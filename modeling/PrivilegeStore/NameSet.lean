import PrivilegeStore.Bits.Stored
import PrivilegeStore.Sorting
import PrivilegeStore.Value.Form

/-!
# Sets of names

A set of names is a list without two scalars that are the same. Names are texts, but a broken
definition may declare other scalars as members, and they are kept. Of scalars that are the
same, the one met first stays.
-/
namespace PrivilegeStore

abbrev NameSet := List Scalar

namespace Key

/-- Numbers by size between the infinities; texts by code point. -/
def le : Key → Key → Bool
  | .infinity true, _ => true
  | _, .infinity true => false
  | .number a x, .number b y => a < b || (a == b && x ≤ y)
  | .number _ _, _ => true
  | _, .number _ _ => false
  | .text s, .text t => nameLe s t
  | _, _ => true

def isNumeric : Key → Bool
  | .nan | .infinity _ | .number _ _ => true
  | _ => false

end Key

namespace NameSet

def contains (names : NameSet) (name : Scalar) : Bool := names.any (·.same name)

def ofList : List Scalar → NameSet
  | [] => []
  | name :: rest => name :: (ofList rest).filter fun other => !name.same other

/-- Both sets hold the same names. -/
def sameAs (a b : NameSet) : Bool := a.all b.contains && b.all a.contains

/-- Texts by code point, numbers by size. More than one name of mixed kinds have no order. -/
def sorted (names : NameSet) : Except Fault NameSet :=
  match names with
  | [] => .ok []
  | [name] => .ok [name]
  | names =>
    if names.all (·.text?.isSome) || names.all (·.key.isNumeric) then
      .ok (sortBy (fun a b => a.key.le b.key) names)
    else .error .unorderedMembers

/-- The names for display, each kind by its literals: texts, then null, truth values and integers
together, and floats at the end. -/
def listing (names : NameSet) : NameSet :=
  let inOrder := sortBy fun (a b : Scalar) => nameLe a.literal b.literal
  let (texts, others) := names.partition (·.text?.isSome)
  let (floats, exact) := others.partition Scalar.isFloat
  inOrder texts ++ inOrder exact ++ inOrder floats

/-- Admits elements as members: scalars only. -/
def scalars : List Value → Except Fault (List Scalar)
  | [] => .ok []
  | .scalar s :: rest =>
    match scalars rest with
    | .error fault => .error fault
    | .ok names => .ok (s :: names)
  | _ :: _ => .error .compoundMember

def ofValues (elements : List Value) : Except Fault NameSet := (scalars elements).map ofList

/-- The set of a value's elements; of a text, its characters. -/
def ofValue (value : Value) : Except Fault NameSet :=
  match value.elements with
  | .error fault => .error fault
  | .ok elements => ofValues elements

end NameSet

end PrivilegeStore
