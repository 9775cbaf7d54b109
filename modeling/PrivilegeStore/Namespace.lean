import PrivilegeStore.Bits.Stored
import PrivilegeStore.Value.Form

/-!
# Namespaces

The prefix of a qualified name stands before its first colon; a name without a colon has the empty
prefix. A name is reserved when its prefix belongs to the reserved ones.
-/
namespace PrivilegeStore.Namespace

def prefixOf (name : String) : String :=
  if name.toList.contains ':' then String.ofList (name.toList.takeWhile (· != ':')) else ""

/-- The prefixes that are reserved unless others are named. -/
def reservedByDefault : List String := ["jcr", "nt", "mix", "xml", "sv", "rep", "oak"]

def isReserved (reserved : List String) (name : String) : Bool := reserved.contains (prefixOf name)

def isPrefixOf : List Char → List Char → Bool
  | [], _ => true
  | _ :: _, [] => false
  | c :: cs, d :: ds => c == d && isPrefixOf cs ds

/-- Whether some characters stand next to one another in others. -/
def occursIn (part : List Char) : List Char → Bool
  | [] => part.isEmpty
  | c :: cs => isPrefixOf part (c :: cs) || occursIn part cs

/-- Whether the prefix of a name belongs to a value: is an item of a list or a name in an object, or
stands somewhere in a text. Other values have no members. -/
def belongsTo (reserved : Value) (name : String) : Except Fault Bool :=
  let found := prefixOf name
  match reserved with
  | .list items => .ok (items.any fun item => item.same (.text found))
  | .object entries => .ok (entries.any fun (n, _) => n == found)
  | .scalar (.text s) => .ok (occursIn found.toList s.toList)
  | .scalar _ => .error .notEnumerable

end PrivilegeStore.Namespace
