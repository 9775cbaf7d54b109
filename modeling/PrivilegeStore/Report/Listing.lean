import PrivilegeStore.Definition.Registry
import PrivilegeStore.Renderer
import PrivilegeStore.Settings

/-!
# Listing of definitions

A listing has a row for each definition of a snapshot, by name: the name, the bits in hexadecimal,
the members and whether the definition is abstract. A dash stands for members that make no text and
for "no".
-/
namespace PrivilegeStore.Report

/-- The headings; the last column has a fixed width. -/
def headings : List Heading :=
  [⟨"Name", none⟩, ⟨"Bits", none⟩, ⟨"Declared aggregates", none⟩, ⟨"Abstract", some 9⟩]

def dash : String := "—"

structure Row where
  name : String
  bits : String
  members : String
  isAbstract : String
deriving DecidableEq, Repr

def Row.cells (r : Row) : List String := [r.name, r.bits, r.members, r.isAbstract]

def joined (names : List String) : String :=
  let text := ", ".intercalate names
  if text.isEmpty then dash else text

/-- The members in order; every one must be a text. -/
def memberCell (members : NameSet) : Except Fault String :=
  match NameSet.sorted members with
  | .error fault => .error fault
  | .ok sorted =>
    let texts := sorted.filterMap Scalar.text?
    if texts.length = sorted.length then .ok (joined texts) else .error .memberNotText

def row (store : View) (name : String) (definition : Definition) : Except Fault Row :=
  match (store.child name).bits with
  | .error fault => .error fault
  | .ok bits =>
    match memberCell definition.members with
    | .error fault => .error fault
    | .ok members => .ok ⟨name, bits.hex, members, if definition.isAbstract then "yes" else dash⟩

def rowsFor (store : View) : List (String × Definition) → Except Fault (List Row)
  | [] => .ok []
  | (name, definition) :: rest =>
    match row store name definition with
    | .error fault => .error fault
    | .ok first =>
      match rowsFor store rest with
      | .error fault => .error fault
      | .ok others => .ok (first :: others)

/-- The rows of a store whose definitions have been read. -/
def rows (store : View) (registry : Registry) : Except Fault (List Row) :=
  rowsFor store (sortBy (fun a b => nameLe a.1 b.1) registry)

def listing (s : Snapshot) (settings : Settings := {}) : Except Fault (List Row) :=
  let store := s.view settings.privilegesPath
  match store.registry with
  | .error fault => .error fault
  | .ok registry => rows store registry

end PrivilegeStore.Report
