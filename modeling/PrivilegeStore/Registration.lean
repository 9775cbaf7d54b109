import PrivilegeStore.Definition.BitsTable
import PrivilegeStore.Notice
import PrivilegeStore.Settings

/-!
# Registration of privileges

Registering derives the snapshot that a commit would propose; it judges nothing. An atomic privilege
takes the bits that the counter stands at and moves the counter on. An aggregate takes the
union of its members' bits.
-/
namespace PrivilegeStore

namespace Snapshot

/-- Puts an empty store into a snapshot, with its counter at some bits. -/
def putStore (s : Snapshot) (next : Bits := ⟨1⟩) (settings : Settings := {}) : Snapshot :=
  s.put settings.privilegesPath
    ⟨[(Schema.primaryType, .text Schema.privilegesType), (Schema.next, next.stored)], []⟩

end Snapshot

namespace Registration

/-- The node of a new definition. -/
def definitionNode (bits : Bits) (members : NameSet) (isAbstract : Bool) : Node where
  properties :=
    [(Schema.primaryType, .text Schema.privilegeType), (Schema.bits, bits.stored)] ++
      (if members.isEmpty then []
        else [(Schema.aggregates, .list (members.map Value.scalar))]) ++
      (if isAbstract then [(Schema.isAbstract, .bool true)] else [])
  children := []

/-- The bits of a new definition, and the privileges node with the counter moved on if they were
taken from it. -/
def allocate (store : View) (node : Node) (members : NameSet) : Except Fault (Bits × Node) :=
  if members.isEmpty then
    match store.nextBits with
    | .error fault => .error fault
    | .ok bits => .ok (bits, node.setProperty Schema.next bits.next.stored)
  else
    match (BitsIndex.mk store false).bitsOf members with
    | (.error fault, _) => .error fault
    | (.ok bits, _) => .ok (bits, node)

/-- The snapshot with a definition added, and the bits it was given. Repeated members count once. -/
def register (s : Snapshot) (name : String) (members : List Scalar := [])
    (isAbstract : Bool := false) (settings : Settings := {}) : Except Fault (Snapshot × Bits) :=
  let store := s.view settings.privilegesPath
  match store.state with
  | none => .error (.storeMissing settings.privilegesPath)
  | some node =>
    match NameSet.sorted (NameSet.ofList members) with
    | .error fault => .error fault
    | .ok members =>
      match allocate store node members with
      | .error fault => .error fault
      | .ok (bits, node) =>
        let node := node.setChild name (definitionNode bits members isAbstract)
        .ok (s.put settings.privilegesPath node, bits)

/-- Registers a definition whose members are the elements of a value. That the store is missing is
noticed before what is wrong with the members. -/
def registerElements (s : Snapshot) (name : String) (members : Value) (isAbstract : Bool)
    (settings : Settings) : Except Fault (Snapshot × Bits) :=
  match NameSet.ofValue members with
  | .ok names => register s name names isAbstract settings
  | .error fault =>
    if (s.view settings.privilegesPath).isPresent then .error fault
    else .error (.storeMissing settings.privilegesPath)

end Registration

end PrivilegeStore
