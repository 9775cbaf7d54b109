import PrivilegeStore.Node

/-!
# Nodes read from values

A node is written as an object with the objects `properties` and `children`, either of which may be
missing; other names are ignored. Every fault is reported, with the names that lead to it:
those of a node's properties before those of its children, and the children in order.
-/
namespace PrivilegeStore.Node

inductive Expectation where
  /-- A node was expected. -/
  | node
  /-- Properties or children were expected. -/
  | entries
deriving DecidableEq, Repr

structure ReadingFault where
  location : List String
  expected : Expectation
deriving DecidableEq, Repr

/-- What a reading found, and what was wrong on the way. -/
structure Reading (α : Type) where
  faults : List ReadingFault
  found : α

def ReadingFault.below (names : List String) (fault : ReadingFault) : ReadingFault :=
  { fault with location := names ++ fault.location }

def readProperties (entries : List (String × Value)) : Reading (List (String × Value)) :=
  match Entries.find? "properties" entries with
  | none => ⟨[], []⟩
  | some (.object properties) => ⟨[], properties⟩
  | some _ => ⟨[⟨["properties"], .entries⟩], []⟩

mutual

def read : Value → Reading Node
  | .object entries =>
    let properties := readProperties entries
    let children := readChildren entries
    ⟨properties.faults ++ children.faults, ⟨properties.found, children.found⟩⟩
  | _ => ⟨[⟨[], .node⟩], empty⟩

/-- Looks for the entry that holds the children. -/
def readChildren : List (String × Value) → Reading (List (String × Node))
  | [] => ⟨[], []⟩
  | (name, value) :: rest =>
    if name = "children" then
      match value with
      | .object children => readEach children
      | _ => ⟨[⟨["children"], .entries⟩], []⟩
    else readChildren rest

def readEach : List (String × Value) → Reading (List (String × Node))
  | [] => ⟨[], []⟩
  | (name, value) :: rest =>
    let child := read value
    let others := readEach rest
    ⟨child.faults.map (·.below ["children", name]) ++ others.faults,
      (name, child.found) :: others.found⟩

end

def ofValue (value : Value) : Except (List ReadingFault) Node :=
  let reading := read value
  if reading.faults.isEmpty then .ok reading.found else .error reading.faults

end PrivilegeStore.Node
