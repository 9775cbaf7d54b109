import PrivilegeStore.Node
import PrivilegeStore.Sorting

/-!
# Changes of a node

Two states of a node are compared at one level: their properties, and their children as wholes. Each
change is an event with the state of what changed on both sides. The events of properties come
first, then those of children, each in the order of their names. Applying them to the one
state gives the other.

An event from elsewhere may carry any sides and any kind.
-/
namespace PrivilegeStore

inductive EventKind where
  | propertyAdded
  | propertyChanged
  | propertyDeleted
  | childAdded
  | childChanged
  | childDeleted
  | unknown (label : String)
deriving DecidableEq, Repr

namespace EventKind

def label : EventKind → String
  | .propertyAdded => "property_added"
  | .propertyChanged => "property_changed"
  | .propertyDeleted => "property_deleted"
  | .childAdded => "child_node_added"
  | .childChanged => "child_node_changed"
  | .childDeleted => "child_node_deleted"
  | .unknown label => label

def known : List EventKind :=
  [.propertyAdded, .propertyChanged, .propertyDeleted, .childAdded, .childChanged, .childDeleted]

def ofLabel (label : String) : EventKind :=
  (known.find? fun kind => kind.label == label).getD (.unknown label)

end EventKind

structure Property where
  name : String
  value : Value
deriving Repr

inductive Side where
  | absent
  | property (p : Property)
  | node (n : Node)
deriving Repr

structure Event where
  kind : EventKind
  name : String
  before : Side := .absent
  after : Side := .absent
deriving Repr

namespace Event

def propertyAdded (after : Property) : Event := ⟨.propertyAdded, after.name, .absent, .property after⟩

def propertyChanged (before after : Property) : Event :=
  ⟨.propertyChanged, before.name, .property before, .property after⟩

def propertyDeleted (before : Property) : Event :=
  ⟨.propertyDeleted, before.name, .property before, .absent⟩

def childAdded (name : String) (after : Node) : Event := ⟨.childAdded, name, .absent, .node after⟩

def childChanged (name : String) (before after : Node) : Event :=
  ⟨.childChanged, name, .node before, .node after⟩

def childDeleted (name : String) (before : Node) : Event :=
  ⟨.childDeleted, name, .node before, .absent⟩

end Event

namespace Node

/-- Names of two lists without repetitions, by code point. -/
def allNames (names others : List String) : List String :=
  sortNames (names ++ others.filter fun name => !names.contains name)

/-- What happened to a property. -/
def propertyEvent? (before after : Node) (name : String) : Option Event :=
  match before.property? name, after.property? name with
  | none, none => none
  | none, some value => some (.propertyAdded ⟨name, value⟩)
  | some value, none => some (.propertyDeleted ⟨name, value⟩)
  | some old, some new =>
    if old.differs new then some (.propertyChanged ⟨name, old⟩ ⟨name, new⟩) else none

/-- What happened to a child. -/
def childEvent? (before after : Node) (name : String) : Option Event :=
  match before.child? name, after.child? name with
  | none, none => none
  | none, some child => some (.childAdded name child)
  | some child, none => some (.childDeleted name child)
  | some old, some new => if old.same new then none else some (.childChanged name old new)

/-- The changes that make one state of a node into another. -/
def changes (before after : Node) : List Event :=
  (allNames before.propertyNames after.propertyNames).filterMap (propertyEvent? before after) ++
    (allNames before.childNames after.childNames).filterMap (childEvent? before after)

/-- Makes one change. -/
def apply (n : Node) (e : Event) : Node :=
  match e.kind, e.after with
  | .propertyAdded, .property p => n.setProperty p.name p.value
  | .propertyChanged, .property p => n.setProperty p.name p.value
  | .propertyDeleted, _ => n.eraseProperty e.name
  | .childAdded, .node child => n.setChild e.name child
  | .childChanged, .node child => n.setChild e.name child
  | .childDeleted, _ => n.eraseChild e.name
  | _, _ => n

end Node

end PrivilegeStore
