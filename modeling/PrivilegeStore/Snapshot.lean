import PrivilegeStore.Node
import PrivilegeStore.Path

/-!
# Snapshots and views

A snapshot is a whole tree. Looking up a path follows its element names from the root. Putting a
node at a path replaces what is there, and ancestors that are missing are created empty. A view
is a path with the node that was found there, if any; its name is the last element of
its path.
-/
namespace PrivilegeStore

namespace Node

/-- The node that element names lead to. -/
def descend (n : Node) : List String → Option Node
  | [] => some n
  | name :: rest =>
    match n.child? name with
    | none => none
    | some child => child.descend rest

/-- Puts a node where element names lead. -/
def graft (n : Node) : List String → Node → Node
  | [], node => node
  | name :: rest, node => n.setChild name (((n.child? name).getD empty).graft rest node)

/-- What was grafted is found where it was put. -/
theorem descend_graft (n : Node) (names : List String) (node : Node) :
    (n.graft names node).descend names = some node := by
  induction names generalizing n with
  | nil => rfl
  | cons name rest ih => simp [graft, descend, child?_setChild, ih]

end Node

structure View where
  path : String
  state : Option Node
deriving Repr

namespace View

def name (v : View) : String := Path.name v.path

def isPresent (v : View) : Bool := v.state.isSome

def property? (v : View) (name : String) : Option Value := v.state.bind (·.property? name)

/-- A view of a node below another one, be it there or proposed. -/
def below (v : View) (name : String) (state : Option Node) : View := ⟨Path.join v.path name, state⟩

def child (v : View) (name : String) : View := v.below name (v.state.bind (·.child? name))

end View

structure Snapshot where
  root : Node := {}
deriving Repr, Inhabited

namespace Snapshot

def node? (s : Snapshot) (path : String) : Option Node := s.root.descend (Path.elements path)

def view (s : Snapshot) (path : String) : View := ⟨path, s.node? path⟩

def put (s : Snapshot) (path : String) (node : Node) : Snapshot :=
  ⟨s.root.graft (Path.elements path) node⟩

/-- What was put at a path is seen there. -/
theorem view_put (s : Snapshot) (path : String) (node : Node) :
    (s.put path node).view path = ⟨path, some node⟩ := by
  rw [view, node?, put, Node.descend_graft]

/-- Changes the node at a path, an empty one if there is none. -/
def update (s : Snapshot) (path : String) (change : Node → Node) : Snapshot :=
  s.put path (change ((s.node? path).getD .empty))

end Snapshot

end PrivilegeStore
