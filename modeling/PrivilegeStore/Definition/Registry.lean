import PrivilegeStore.Definition

/-!
# The definitions of a store

A registry holds the definitions below a privileges node, each under its child's name, in the order
of the children. Reading a registry stops at the first definition that cannot be read.
-/
namespace PrivilegeStore

abbrev Registry := Entries Definition

namespace View

def childNames (v : View) : List String := (v.state.map Node.childNames).getD []

/-- Reads the definitions among children of some names. -/
def definitionsAmong (store : View) : List String → Except Fault Registry
  | [] => .ok []
  | name :: rest =>
    if (store.child name).isDefinition then
      match (store.child name).definition with
      | .error fault => .error fault
      | .ok definition =>
        match definitionsAmong store rest with
        | .error fault => .error fault
        | .ok others => .ok ((name, definition) :: others)
    else definitionsAmong store rest

/-- The definitions below a privileges node; none if the node is absent. -/
def registry (store : View) : Except Fault Registry := store.definitionsAmong store.childNames

/-- The definition of one child. -/
def definition? (store : View) (name : String) : Except Fault (Option Definition) :=
  if (store.child name).isDefinition then (store.child name).definition.map some else .ok none

end View

namespace Registry

/-- The definition of a name. Scalars other than texts name nothing. -/
def find? (registry : Registry) : Scalar → Option Definition
  | .text name => Entries.find? name registry
  | _ => none

/-- The declared members of a name; none if it is not registered. -/
def membersOf (registry : Registry) (name : Scalar) : NameSet :=
  match registry.find? name with
  | some definition => definition.members
  | none => []

/-- How many members are declared in all. -/
def memberCount (registry : Registry) : Nat :=
  (registry.map fun (_, d) => d.members.length).foldr (· + ·) 0

end Registry

end PrivilegeStore
