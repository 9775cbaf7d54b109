import PrivilegeStore.Snapshot

/-!
# What a graft changes

Putting a node at a path changes what is there, what is below it, and the nodes on the way to it.
What was put is found, the last of several nodes put at a path counts, and putting back what is
there changes nothing. A node on the way keeps its properties and its other children, and is empty
but for the way if it was missing. Where neither of two paths leads on to the other, the node at the
one is the same before and after a node is put at the other.

A graft is described from the root on, by recursion on the way. The same tree is made from the
inside out, by setting in each ancestor what was made of the one below it.
-/
namespace PrivilegeStore

/-- Neither of two paths leads on to the other. -/
def Path.Apart (path other : String) : Prop :=
  ¬ elements path <+: elements other ∧ ¬ elements other <+: elements path

/-- A path leads on to another one by way of a child. -/
def Path.LeadsBy (above step path : String) : Prop := elements above ++ [step] <+: elements path

namespace Node

/-- A node has the properties of another one, and its children except for one name. -/
structure AgreesBut (step : String) (old new : Node) : Prop where
  properties : new.properties = old.properties
  children : ∀ name, name ≠ step → new.child? name = old.child? name

theorem agreesBut_setChild (n : Node) (step : String) (child : Node) :
    n.AgreesBut step (n.setChild step child) where
  properties := rfl
  children name different := by rw [child?_setChild, if_neg (Ne.symm different)]

/-- The nodes that names lead through, from the root on; those that are missing are empty. -/
def ancestors (n : Node) : List String → List Node
  | [] => []
  | name :: rest => n :: ((n.child? name).getD empty).ancestors rest

/-- The ancestors are made anew from the innermost one outwards. -/
theorem graft_eq_foldr (n : Node) (names : List String) (node : Node) :
    n.graft names node =
      ((n.ancestors names).zip names).foldr (fun step made => step.1.setChild step.2 made) node := by
  induction names generalizing n with
  | nil => rfl
  | cons name rest ih => rw [graft, ancestors, List.zip_cons_cons, List.foldr_cons, ih]

theorem graft_graft (n : Node) (names : List String) (former node : Node) :
    (n.graft names former).graft names node = n.graft names node := by
  induction names generalizing n with
  | nil => rfl
  | cons name rest ih =>
    rw [graft, graft, graft, setChild_setChild, child?_setChild, if_pos rfl, Option.getD_some, ih]

/-- Grafting what is found there changes nothing. -/
theorem graft_of_descend {n node : Node} {names : List String}
    (found : n.descend names = some node) : n.graft names node = n := by
  induction names generalizing n with
  | nil =>
    cases found
    rfl
  | cons name rest ih =>
    rw [descend] at found
    split at found
    · cases found
    next child there => rw [graft, there, Option.getD_some, ih found, setChild_of_child? there]

/-- On the way to what is grafted stands what was there before, empty if nothing was, with the graft
below it. -/
theorem descend_graft_append (n : Node) (names rest : List String) (node : Node) :
    (n.graft (names ++ rest) node).descend names =
      some (((n.descend names).getD empty).graft rest node) := by
  induction names generalizing n with
  | nil => rfl
  | cons name later ih =>
    rw [List.cons_append, graft, descend, descend, child?_setChild, if_pos rfl]
    simp only [ih]
    cases n.child? name with
    | some child => rfl
    | none => cases later <;> rfl

/-- Where element names part, what is grafted along the ones is not found along the others. -/
theorem descend_graft_of_apart {names others : List String} (before : ¬ names <+: others)
    (behind : ¬ others <+: names) (n node : Node) :
    (n.graft names node).descend others = n.descend others := by
  induction names generalizing n others with
  | nil => exact absurd List.nil_prefix before
  | cons name rest ih =>
    cases others with
    | nil => exact absurd List.nil_prefix behind
    | cons other later =>
      rw [graft, descend, descend, child?_setChild]
      by_cases same : name = other
      · subst same
        rw [List.prefix_cons_inj] at before behind
        simp only [if_true, ih before behind]
        cases n.child? name with
        | some child => rfl
        | none =>
          -- below an ancestor that was missing there is nothing but what was grafted
          cases later with
          | nil => exact absurd List.nil_prefix behind
          | cons => rfl
      · rw [if_neg same]

end Node

namespace Snapshot

/-- Putting a node at a path leaves the nodes at paths apart from it. -/
theorem node?_put_of_apart {path other : String} (apart : Path.Apart path other)
    (s : Snapshot) (node : Node) : (s.put path node).node? other = s.node? other :=
  Node.descend_graft_of_apart apart.1 apart.2 s.root node

/-- A node on the way to what is put changes in the child on the way only. -/
theorem node?_put_above {above step path : String} (leads : Path.LeadsBy above step path)
    (s : Snapshot) (node : Node) : ∃ passed, (s.put path node).node? above = some passed ∧
      ((s.node? above).getD .empty).AgreesBut step passed := by
  obtain ⟨rest, way⟩ := leads
  rw [List.append_assoc, List.singleton_append] at way
  rw [node?, put, ← way, Node.descend_graft_append]
  exact ⟨_, rfl, Node.agreesBut_setChild _ step _⟩

/-- Looking up and putting fit together: what was put is seen, what is put later counts, what is
there can be put back, and of the other nodes only those on the way change, and these in the child
on the way only. -/
theorem put_lawful (s : Snapshot) (path other : String) (former node : Node) :
    (s.put path node).view path = ⟨path, some node⟩ ∧
      (s.put path former).put path node = s.put path node ∧
      (∀ present, s.node? path = some present → s.put path present = s) ∧
      (Path.Apart path other → (s.put path node).view other = s.view other) ∧
      ∀ step, Path.LeadsBy other step path →
        ∃ passed, (s.put path node).node? other = some passed ∧
          ((s.node? other).getD .empty).AgreesBut step passed := by
  refine ⟨s.view_put path node, ?_, fun present found => ?_, fun apart => ?_,
    fun step leads => node?_put_above leads s node⟩
  · simp only [put, Node.graft_graft]
  · rw [put, Node.graft_of_descend found]
  · rw [view, view, node?_put_of_apart apart]

/-- A node is put below a child that is missing, beside one that is there. -/
theorem put_lawful_of_missing_way :
    let s : Snapshot := ⟨⟨[], [("a", ⟨[("x", .int 1)], [("b", ⟨[("y", .null)], []⟩)]⟩)]⟩⟩
    let node : Node := ⟨[("z", .int 2)], []⟩
    (∃ present, s.node? "a/b" = some present ∧ s.put "a/b" present = s) ∧
      Path.Apart "//a/c/d" "a/b" ∧ (s.put "//a/c/d" node).view "a/b" = s.view "a/b" ∧
      Path.LeadsBy "/a/" "c" "//a/c/d" ∧
      ∃ passed, (s.put "//a/c/d" node).node? "/a/" = some passed ∧
        ((s.node? "/a/").getD .empty).AgreesBut "c" passed := by
  intro s node
  have found : s.node? "a/b" = some ⟨[("y", .null)], []⟩ := rfl
  have apart : Path.Apart "//a/c/d" "a/b" := by
    rw [Path.Apart]
    decide
  have leads : Path.LeadsBy "/a/" "c" "//a/c/d" := by
    rw [Path.LeadsBy]
    decide
  obtain ⟨-, -, restored, -, -⟩ := put_lawful s "a/b" "a/b" node node
  obtain ⟨-, -, -, kept, -⟩ := put_lawful s "//a/c/d" "a/b" node node
  obtain ⟨-, -, -, -, passed⟩ := put_lawful s "//a/c/d" "/a/" node node
  exact ⟨⟨_, found, restored _ found⟩, apart, kept apart, leads, passed "c" leads⟩

end Snapshot

end PrivilegeStore
