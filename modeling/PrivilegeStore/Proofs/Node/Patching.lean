import PrivilegeStore.Proofs.Node.Changes
import PrivilegeStore.Proofs.Node.Extensionality

/-!
# Changes make one state into the other

A change sets one property or child to its later state, or removes it, and leaves everything else.
Where a name has no change the states agree, so making all the changes one after another yields the
later state. No name has two changes of a kind, and there is none at all exactly if the states are
the same.
-/
namespace PrivilegeStore

/-- Whether an event is about a property. -/
def EventKind.ofProperty : EventKind → Bool
  | .propertyAdded | .propertyChanged | .propertyDeleted => true
  | _ => false

/-- Properties come before children, each by increasing name. -/
inductive Event.Precedes (e f : Event) : Prop
  | kind (property : e.kind.ofProperty = true) (child : f.kind.ofProperty = false)
  | name (alike : e.kind.ofProperty = f.kind.ofProperty) (less : e.name < f.name)

/-- No event precedes another one of its kind and name. -/
theorem Event.Precedes.apart {e f : Event} (precedes : e.Precedes f) :
    ¬ (e.kind.ofProperty = f.kind.ofProperty ∧ e.name = f.name) := by
  rintro ⟨kinds, names⟩
  cases precedes with
  | kind property child =>
    rw [property, child] at kinds
    cases kinds
  | name alike less => exact ne_of_lt less names

namespace Node

variable {before after : Node} {name : String} {e : Event}

/-- A change of a property brings it into its later state, and nothing else changes properties. -/
theorem Change.property?_apply (change : Change before after e) (n : Node) (name : String) :
    (n.apply e).property? name =
      if e.kind.ofProperty = true ∧ e.name = name then after.property? name
      else n.property? name := by
  by_cases concerned : e.kind.ofProperty = true ∧ e.name = name
  · rw [if_pos concerned]
    obtain ⟨property, rfl⟩ := concerned
    cases change with
    | propertyAdded absent there | propertyChanged found there differ =>
      exact (property?_setProperty n _ _ _).trans ((if_pos rfl).trans there.symm)
    | propertyDeleted found absent =>
      exact (property?_eraseProperty n _ _).trans ((if_pos rfl).trans absent.symm)
    | childAdded | childChanged | childDeleted => cases property
  · rw [if_neg concerned]
    cases change with
    | propertyAdded | propertyChanged =>
      exact (property?_setProperty n _ _ _).trans (if_neg fun same => concerned ⟨rfl, same⟩)
    | propertyDeleted =>
      exact (property?_eraseProperty n _ _).trans (if_neg fun same => concerned ⟨rfl, same⟩)
    | childAdded | childChanged | childDeleted => rfl

/-- A change of a child brings it into its later state, and nothing else changes children. -/
theorem Change.child?_apply (change : Change before after e) (n : Node) (name : String) :
    (n.apply e).child? name =
      if e.kind.ofProperty = false ∧ e.name = name then after.child? name
      else n.child? name := by
  by_cases concerned : e.kind.ofProperty = false ∧ e.name = name
  · rw [if_pos concerned]
    obtain ⟨child, rfl⟩ := concerned
    cases change with
    | childAdded absent there | childChanged found there differ =>
      exact (child?_setChild n _ _ _).trans ((if_pos rfl).trans there.symm)
    | childDeleted found absent =>
      exact (child?_eraseChild n _ _).trans ((if_pos rfl).trans absent.symm)
    | propertyAdded | propertyChanged | propertyDeleted => cases child
  · rw [if_neg concerned]
    cases change with
    | childAdded | childChanged =>
      exact (child?_setChild n _ _ _).trans (if_neg fun same => concerned ⟨rfl, same⟩)
    | childDeleted =>
      exact (child?_eraseChild n _ _).trans (if_neg fun same => concerned ⟨rfl, same⟩)
    | propertyAdded | propertyChanged | propertyDeleted => rfl

/-- A property that no change is about is the same on both sides. -/
theorem property?_form_of_no_change
    (none : ∀ e, Change before after e → ¬ (e.kind.ofProperty = true ∧ e.name = name)) :
    (before.property? name).map Value.form = (after.property? name).map Value.form := by
  cases left : before.property? name with
  | none =>
    cases right : after.property? name with
    | none => rfl
    | some value => exact absurd ⟨rfl, rfl⟩ (none _ (.propertyAdded left right))
  | some old =>
    cases right : after.property? name with
    | none => exact absurd ⟨rfl, rfl⟩ (none _ (.propertyDeleted left right))
    | some new =>
      have same : old.differs new ≠ true := fun differ =>
        none _ (.propertyChanged left right differ) ⟨rfl, rfl⟩
      simp only [Value.differs, Ne, Bool.or_eq_true, bne_iff_ne, not_or, not_not] at same
      rw [Option.map_some, Option.map_some, same.2]

/-- A child that no change is about is the same on both sides. -/
theorem child?_form_of_no_change
    (none : ∀ e, Change before after e → ¬ (e.kind.ofProperty = false ∧ e.name = name)) :
    (before.child? name).map form = (after.child? name).map form := by
  cases left : before.child? name with
  | none =>
    cases right : after.child? name with
    | none => rfl
    | some child => exact absurd ⟨rfl, rfl⟩ (none _ (.childAdded left right))
  | some old =>
    cases right : after.child? name with
    | none => exact absurd ⟨rfl, rfl⟩ (none _ (.childDeleted left right))
    | some new =>
      have same : old.same new ≠ false := fun differ =>
        none _ (.childChanged left right differ) ⟨rfl, rfl⟩
      rw [Option.map_some, Option.map_some, same_iff.1 (Bool.eq_true_of_not_eq_false same)]

/-- What is looked up after a run of events, of which each brings it into its later state or leaves
it: the later state, or what was there if none of them concerned it. -/
theorem look_foldl_apply {α : Type} (look : Node → α) {later : α} {concerns : Event → Prop}
    [DecidablePred concerns] {events : List Event}
    (step : ∀ e ∈ events, ∀ n, look (n.apply e) = if concerns e then later else look n) (n : Node) :
    look (events.foldl apply n) = later ∨
      (∀ e ∈ events, ¬ concerns e) ∧ look (events.foldl apply n) = look n := by
  induction events generalizing n with
  | nil => exact .inr ⟨fun e member => absurd member List.not_mem_nil, rfl⟩
  | cons e rest ih =>
    have here := step e List.mem_cons_self n
    rw [List.foldl_cons]
    rcases ih (fun f member => step f (List.mem_cons_of_mem _ member)) (n.apply e) with
      set | ⟨silent, kept⟩
    · exact .inl set
    · rw [kept, here]
      split
      next => exact .inl rfl
      next apart => exact .inr ⟨List.forall_mem_cons.2 ⟨apart, silent⟩, rfl⟩

/-- Making all changes of one state, one after another, yields the other state. -/
theorem form_foldl_changes (before after : Node) :
    ((before.changes after).foldl apply before).form = after.form := by
  have change : ∀ e ∈ before.changes after, Change before after e := fun _ => mem_changes_iff.1
  refine form_ext (fun name => ?_) fun name => ?_
  · rcases look_foldl_apply (·.property? name)
      (fun e member n => (change e member).property?_apply n name) before with set | ⟨silent, kept⟩
    · rw [set]
    · rw [kept]
      exact property?_form_of_no_change fun e change => silent e (mem_changes_iff.2 change)
  · rcases look_foldl_apply (·.child? name)
      (fun e member n => (change e member).child?_apply n name) before with set | ⟨silent, kept⟩
    · rw [set]
    · rw [kept]
      exact child?_form_of_no_change fun e change => silent e (mem_changes_iff.2 change)

theorem name_of_propertyEvent? (event : propertyEvent? before after name = some e) :
    e.name = name ∧ e.kind.ofProperty = true := by
  rw [propertyEvent?] at event
  split at event
  · cases event
  · cases event
    exact ⟨rfl, rfl⟩
  · cases event
    exact ⟨rfl, rfl⟩
  · split at event
    · cases event
      exact ⟨rfl, rfl⟩
    · cases event

theorem name_of_childEvent? (event : childEvent? before after name = some e) :
    e.name = name ∧ e.kind.ofProperty = false := by
  rw [childEvent?] at event
  split at event
  · cases event
  · cases event
    exact ⟨rfl, rfl⟩
  · cases event
    exact ⟨rfl, rfl⟩
  · split at event
    · cases event
    · cases event
      exact ⟨rfl, rfl⟩

theorem allNames_increasing {α : Type} (entries others : Entries α) :
    (allNames (Entries.names entries) (Entries.names others)).Pairwise (· < ·) := by
  have once : (allNames (Entries.names entries) (Entries.names others)).Nodup :=
    nodup_allNames (Entries.names_nodup entries) (Entries.names_nodup others)
  refine ((sortNames_pairwise _).and once).imp fun {a b} ordered => ?_
  exact lt_of_le_of_ne (of_decide_eq_true ordered.1) ordered.2

theorem changes_pairwise (before after : Node) :
    (before.changes after).Pairwise Event.Precedes := by
  rw [changes, List.pairwise_append]
  refine ⟨?_, ?_, ?_⟩
  · refine (allNames_increasing before.properties after.properties).filterMap _ ?_
    intro m n less e first f second
    obtain ⟨name, kind⟩ := name_of_propertyEvent? first
    obtain ⟨name', kind'⟩ := name_of_propertyEvent? second
    exact .name (kind.trans kind'.symm) (by rwa [name, name'])
  · refine (allNames_increasing before.children after.children).filterMap _ ?_
    intro m n less e first f second
    obtain ⟨name, kind⟩ := name_of_childEvent? first
    obtain ⟨name', kind'⟩ := name_of_childEvent? second
    exact .name (kind.trans kind'.symm) (by rwa [name, name'])
  · intro e first f second
    obtain ⟨_, -, property⟩ := List.mem_filterMap.1 first
    obtain ⟨_, -, child⟩ := List.mem_filterMap.1 second
    exact .kind (name_of_propertyEvent? property).2 (name_of_childEvent? child).2

/-- Events that tell how one state of a node becomes another, with nothing left out and nothing too
much. -/
structure Tells (before after : Node) (events : List Event) : Prop where
  makes : (events.foldl apply before).same after = true
  actual : ∀ e, e ∈ events ↔ Change before after e
  ordered : events.Pairwise Event.Precedes
  once : ∀ e ∈ events, ∀ f ∈ events, e.kind.ofProperty = f.kind.ofProperty → e.name = f.name → e = f
  silent_iff : events = [] ↔ before.same after = true

/-- The changes between two states tell how the one becomes the other, if no property differs from
itself. -/
theorem tells_changes
    (numbers : ∀ name value, before.property? name = some value → value.isNan = false) :
    Tells before after (before.changes after) where
  makes := same_iff.2 (form_foldl_changes before after)
  actual _ := mem_changes_iff
  ordered := changes_pairwise before after
  once := by
    have ordered := changes_pairwise before after
    refine List.Pairwise.forall_of_forall_of_flip (fun _ _ _ _ => rfl) ?_ ?_
    · exact ordered.imp fun precedes kinds names => absurd ⟨kinds, names⟩ precedes.apart
    · exact ordered.imp fun precedes kinds names =>
        absurd ⟨kinds.symm, names.symm⟩ precedes.apart
  silent_iff := by
    refine ⟨fun none => ?_, fun same => changes_eq_nil same numbers⟩
    have made := form_foldl_changes before after
    rw [none, List.foldl_nil] at made
    exact same_iff.2 made

/-- A change of each kind, beside a property written in another type and an added null. -/
theorem tells_six_changes :
    let leaf (mark : Int) : Node := ⟨[("mark", .int mark)], []⟩
    let before : Node := ⟨[("kept", .int 1), ("gone", .null), ("level", .int 2)],
      [("x", leaf 1), ("y", leaf 2)]⟩
    let after : Node := ⟨[("new", .null), ("level", .int 3), ("kept", .bool true)],
      [("z", leaf 2), ("x", leaf 3)]⟩
    Tells before after (before.changes after) ∧
      (before.changes after).map (fun e => (e.kind, e.name)) =
        [(.propertyDeleted, "gone"), (.propertyChanged, "level"), (.propertyAdded, "new"),
          (.childChanged, "x"), (.childDeleted, "y"), (.childAdded, "z")] := by
  intro leaf before after
  refine ⟨tells_changes fun name value found => ?_, by decide +kernel⟩
  have member := Entries.mem_of_find? found
  simp only [before, List.mem_cons, Prod.mk.injEq, List.not_mem_nil, or_false] at member
  rcases member with ⟨-, rfl⟩ | ⟨-, rfl⟩ | ⟨-, rfl⟩ <;> rfl

end Node

end PrivilegeStore
