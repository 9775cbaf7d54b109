import PrivilegeStore.NameSet
import PrivilegeStore.Schema
import PrivilegeStore.Snapshot

/-!
# Privilege definitions

A definition is a child of the privileges node whose primary type is `rep:Privilege`. It is read
from a view: the name is the view's, the members are what `rep:aggregates` holds, and the bits what
`rep:bits` holds. A definition with members is an aggregate, one without is atomic.
-/
namespace PrivilegeStore

structure Definition where
  name : String
  members : NameSet := []
  isAbstract : Bool := false
deriving DecidableEq, Repr

namespace Definition

def isAggregate (d : Definition) : Bool := !d.members.isEmpty

/-- The members that a stored value declares: none if it is void, the text itself if it is a text,
and otherwise its elements. -/
def declared (stored : Value) : Except Fault NameSet :=
  if stored.isVoid then .ok []
  else
    match stored with
    | .scalar (.text s) => .ok [.text s]
    | value => NameSet.ofValue value

def declared? : Option Value → Except Fault NameSet
  | none => .ok []
  | some stored => declared stored

end Definition

/-- Whether a node is a privilege definition. -/
def Node.isDefinition (n : Node) : Bool :=
  (n.property? Schema.primaryType).bind Value.text? == some Schema.privilegeType

namespace View

def isDefinition (v : View) : Bool := v.state.any Node.isDefinition

def definition (v : View) : Except Fault Definition :=
  match Definition.declared? (v.property? Schema.aggregates) with
  | .error fault => .error fault
  | .ok members =>
    .ok ⟨v.name, members, (v.property? Schema.isAbstract).any fun stored => !stored.isVoid⟩

def bits (v : View) : Except Fault Bits := Bits.ofValue? (v.property? Schema.bits)

/-- The allocation counter of a view of the privileges node. -/
def nextBits (v : View) : Except Fault Bits := Bits.ofValue? (v.property? Schema.next)

end View

end PrivilegeStore
