import Mathlib.Control.Monad.Basic
import PrivilegeStore.Proofs.Definition.Readings
import PrivilegeStore.Proofs.Path.Elements

/-!
# Ways to a child

A child is found under its name in its parent, and at the end of the path that joins its name to the
parent's. The first looks a name up as it is, the second cuts a text at its slashes. For a name that
is a single element of a path both lead to the same child, seen at the same path, and the name is
read off the path again.

So it makes no difference by which way a definition is read. The registry, which is read child by
child or not at all, holds under a name what is read from the child of that name alone, and this is
what is read from the same node when it is only proposed, below whatever store stands at the path.
-/
namespace PrivilegeStore

/-- Element names lead from a node by way of the nodes that the first of them lead to. -/
theorem Node.descend_append (n : Node) (names rest : List String) :
    n.descend (names ++ rest) = (n.descend names).bind (·.descend rest) := by
  induction names generalizing n with
  | nil => rfl
  | cons name later ih =>
    rw [List.cons_append, descend, descend]
    cases n.child? name with
    | none => rfl
    | some child => exact ih child

theorem Node.descend_singleton (n : Node) (name : String) : n.descend [name] = n.child? name := by
  rw [descend]
  cases n.child? name <;> rfl

namespace Snapshot

/-- The child under a name is the node at the joined path. -/
theorem child_view (s : Snapshot) (path : String) {name : String} (named : name ≠ "")
    (plain : '/' ∉ name.toList) : (s.view path).child name = s.view (Path.join path name) := by
  have found : s.node? (Path.join path name) = (s.node? path).bind (·.child? name) := by
    rw [node?, node?, Path.elements_join path named plain, Node.descend_append]
    simp only [Node.descend_singleton]
  rw [view, view, found]
  rfl

end Snapshot

namespace View

variable {store other : View} {name : String} {child : Node} {d : Definition}
  {registry : Registry} {fault : Fault}

theorem name_of_definition (read : store.definition = .ok d) : d.name = store.name := by
  rw [definition] at read
  split at read
  · contradiction
  · cases read
    rfl

/-- The name of a view below another one is read off its path. -/
theorem name_below (some : name ≠ "") (single : '/' ∉ name.toList) (state : Option Node) :
    (store.below name state).name = name :=
  Path.name_join store.path some single

theorem name_child (some : name ≠ "") (single : '/' ∉ name.toList) :
    (store.child name).name = name :=
  name_below some single _

/-- A child is what is proposed with its node below any view at the same path. -/
theorem below_eq_child_of_path (same : other.path = store.path)
    (there : (store.child name).state = some child) :
    other.below name (some child) = store.child name := by
  rw [← there, below, same]
  rfl

/-- What the registry holds under a name is read from the child of that name alone. -/
theorem definition?_eq_of_registry (known : store.registry = .ok registry) :
    store.definition? name = .ok (Entries.find? name registry) := by
  rw [definition?]
  split
  next isDef =>
    obtain ⟨d, read⟩ := definition_of_registry known isDef
    rw [(find?_registry known).2 ⟨isDef, read⟩, read]
    rfl
  -- a child that is no definition is not listed
  next noDef =>
    cases found : Entries.find? name registry with
    | none => rfl
    | some d => exact absurd ((find?_registry known).1 found).1 noDef

theorem fault_of_definitionsAmong {names : List String}
    (failed : store.definitionsAmong names = .error fault) :
    ∃ name, (store.child name).isDefinition = true ∧
      (store.child name).definition = .error fault := by
  induction names with
  | nil => cases failed
  | cons name rest ih =>
    rw [definitionsAmong] at failed
    split at failed
    next isDef =>
      split at failed
      next own read =>
        cases failed
        exact ⟨name, isDef, read⟩
      next =>
        split at failed
        next later => exact ih (later.trans failed)
        next => cases failed
    next => exact ih failed

/-- A child is the same definition as read on its own, as proposed and as listed in its store, which
can be listed unless a definition in it cannot be read. The definition has the child's name. -/
structure ReadAlike (store proposed : View) (name : String) : Prop where
  alone : store.definition? name =
    if proposed.isDefinition then proposed.definition.map some else .ok none
  listed : ∀ registry, store.registry = .ok registry →
    store.definition? name = .ok (Entries.find? name registry)
  unlisted : ∀ fault, store.registry = .error fault →
    ∃ other, (store.child other).isDefinition = true ∧
      (store.child other).definition = .error fault
  named : ∀ d, proposed.definition = .ok d → d.name = name

theorem readAlike_child (some : name ≠ "") (single : '/' ∉ name.toList) :
    store.ReadAlike (store.child name) name where
  alone := rfl
  listed _ := definition?_eq_of_registry
  unlisted _ := fault_of_definitionsAmong
  named _ read := (name_of_definition read).trans (name_child some single)

end View

/-- The ways to a child lead to the same place: joining a name to a path adds it to the elements of
the path, the child under the name is what stands at the joined path, and a view below the path has
the name. So a child is read as the same definition in its store, on its own and as proposed, and
the definition has its name. -/
theorem Snapshot.child_reached_alike (s before : Snapshot) (path : String) {name : String}
    (named : name ≠ "") (plain : '/' ∉ name.toList) :
    Path.elements (Path.join path name) = Path.elements path ++ [name] ∧
      (s.view path).child name = s.view (Path.join path name) ∧
      (∀ state, ((before.view path).below name state).name = name) ∧
      ∀ child, ((s.view path).child name).state = some child →
        (s.view path).ReadAlike ((before.view path).below name (some child)) name := by
  refine ⟨Path.elements_join path named plain, s.child_view path named plain,
    View.name_below named plain, fun child there => ?_⟩
  have proposed : (before.view path).below name (some child) = (s.view path).child name :=
    View.below_eq_child_of_path rfl there
  rw [proposed]
  exact View.readAlike_child named plain

/-- An aggregate is reached at a path with slashes at both ends, and proposed to an empty store. -/
theorem Snapshot.child_reached_alike_between_slashes :
    let read := Registration.definitionNode ⟨1⟩ [] false
    let all := Registration.definitionNode ⟨1⟩ [.text "read"] true
    let s : Snapshot := ⟨⟨[], [("store", ⟨[], [("read", read), ("all", all)]⟩)]⟩⟩
    let before : Snapshot := ⟨⟨[], [("store", .empty)]⟩⟩
    ("all" ≠ "" ∧ '/' ∉ "all".toList) ∧
      Path.elements (Path.join "//store//" "all") = ["store", "all"] ∧
      (s.view "//store//").child "all" = s.view "//store/all" ∧
      ((s.view "//store//").child "all").state = some all ∧
      (s.view "//store//").ReadAlike ((before.view "//store//").below "all" (some all)) "all" ∧
      ∃ registry, (s.view "//store//").registry = .ok registry ∧
        (s.view "//store//").definition? "all" = .ok (Entries.find? "all" registry) := by
  intro read all s before
  have named : "all" ≠ "" := by decide
  have plain : '/' ∉ "all".toList := by decide
  have there : ((s.view "//store//").child "all").state = some all := rfl
  have known : (s.view "//store//").registry = .ok
      [("read", ⟨"read", [], false⟩), ("all", ⟨"all", [.text "read"], true⟩)] := by decide +kernel
  obtain ⟨elements, reached, -, alike⟩ := child_reached_alike s before "//store//" named plain
  exact ⟨⟨named, plain⟩, elements, reached, there, alike all there, _, known,
    (alike all there).listed _ known⟩

end PrivilegeStore
