import PrivilegeStore.Value.Form

/-!
# Nodes

A node has named properties and named child nodes. Nodes are values: changing one makes another.
Two nodes are the same when their forms are equal, that is, when they have the same properties and
the same children, in whatever order.
-/
namespace PrivilegeStore

structure Node where
  properties : List (String × Value) := []
  children : List (String × Node) := []
deriving Repr, Inhabited

namespace Node

def empty : Node := ⟨[], []⟩

def property? (n : Node) (name : String) : Option Value := Entries.find? name n.properties

def child? (n : Node) (name : String) : Option Node := Entries.find? name n.children

def propertyNames (n : Node) : List String := Entries.names n.properties

def childNames (n : Node) : List String := Entries.names n.children

def setProperty (n : Node) (name : String) (value : Value) : Node :=
  { n with properties := Entries.insert name value n.properties }

def eraseProperty (n : Node) (name : String) : Node :=
  { n with properties := Entries.erase name n.properties }

def setChild (n : Node) (name : String) (child : Node) : Node :=
  { n with children := Entries.insert name child n.children }

def eraseChild (n : Node) (name : String) : Node :=
  { n with children := Entries.erase name n.children }

/-! Setting and erasing, seen through lookups: only the name concerned is affected. -/

theorem property?_setProperty (n : Node) (name other : String) (value : Value) :
    (n.setProperty name value).property? other =
      if name = other then some value else n.property? other :=
  Entries.find?_insert name other value n.properties

theorem property?_eraseProperty (n : Node) (name other : String) :
    (n.eraseProperty name).property? other = if name = other then none else n.property? other :=
  Entries.find?_erase name other n.properties

theorem child?_setChild (n : Node) (name other : String) (child : Node) :
    (n.setChild name child).child? other =
      if name = other then some child else n.child? other :=
  Entries.find?_insert name other child n.children

theorem child?_eraseChild (n : Node) (name other : String) :
    (n.eraseChild name).child? other = if name = other then none else n.child? other :=
  Entries.find?_erase name other n.children

theorem setChild_setChild (n : Node) (name : String) (former child : Node) :
    (n.setChild name former).setChild name child = n.setChild name child := by
  simp only [setChild, Entries.insert_insert]

theorem setChild_of_child? {n child : Node} {name : String} (there : n.child? name = some child) :
    n.setChild name child = n := by
  obtain ⟨properties, children⟩ := n
  rw [setChild, Entries.insert_of_find? there]

@[simp] theorem property?_setChild (n : Node) (name other : String) (child : Node) :
    (n.setChild name child).property? other = n.property? other := rfl

@[simp] theorem property?_eraseChild (n : Node) (name other : String) :
    (n.eraseChild name).property? other = n.property? other := rfl

@[simp] theorem child?_setProperty (n : Node) (name other : String) (value : Value) :
    (n.setProperty name value).child? other = n.child? other := rfl

@[simp] theorem child?_eraseProperty (n : Node) (name other : String) :
    (n.eraseProperty name).child? other = n.child? other := rfl

mutual

/-- The form of a node: that of its properties, then that of its children. -/
def form : Node → Form
  | ⟨properties, children⟩ =>
    .list [.object (Value.formEntries properties), .object (formChildren children)]

def formChildren : List (String × Node) → List (String × Form)
  | [] => []
  | (name, child) :: rest => Form.insertEntry name (form child) (formChildren rest)

end

/-- Whether two nodes have the same properties and the same children. -/
def same (a b : Node) : Bool := a.form == b.form

end Node

end PrivilegeStore
