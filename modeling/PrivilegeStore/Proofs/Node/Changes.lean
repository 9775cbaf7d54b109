import PrivilegeStore.Event
import PrivilegeStore.Proofs.Sorting.Uniqueness
import PrivilegeStore.Proofs.Value.Sameness

/-!
# What the changes of a node contain

Whatever happened to a property or to a child under some name is among the changes: no name of
either state is left out, so a rule that every change satisfies is satisfied under every name.
-/
namespace PrivilegeStore.Node

variable {before after : Node} {name : String} {e : Event}

theorem mem_allNames {names others : List String} :
    name ∈ allNames names others ↔ name ∈ names ∨ name ∈ others := by
  simp only [allNames, mem_sortNames, List.mem_append, List.mem_filter, Bool.not_eq_true',
    List.contains_eq_mem, decide_eq_false_iff_not]
  by_cases known : name ∈ names <;> simp [known]

theorem mem_allNames_entries {α : Type} {entries others : Entries α}
    (found : ¬ (Entries.find? name entries = none ∧ Entries.find? name others = none)) :
    name ∈ allNames (Entries.names entries) (Entries.names others) := by
  rw [mem_allNames, Entries.mem_names, Entries.mem_names]
  cases left : Entries.find? name entries with
  | some value => exact .inl ⟨value, rfl⟩
  | none =>
    cases right : Entries.find? name others with
    | some value => exact .inr ⟨value, rfl⟩
    | none => exact absurd ⟨left, right⟩ found

theorem nodup_allNames {names others : List String} (once : names.Nodup) (once' : others.Nodup) :
    (allNames names others).Nodup := by
  refine nodup_sortNames.2 (List.nodup_append.2 ⟨once, once'.filter _, ?_⟩)
  intro a first b second equal
  subst equal
  simp [first] at second

/-- The names under which something may have happened are determined by where something is. -/
theorem allNames_entries_filter_eq {α : Type} {entries others entries' others' : Entries α}
    (keep : String → Bool)
    (same : ∀ name, keep name = true →
      (Entries.find? name entries).isSome = (Entries.find? name entries').isSome ∧
        (Entries.find? name others).isSome = (Entries.find? name others').isSome) :
    (allNames (Entries.names entries) (Entries.names others)).filter keep =
      (allNames (Entries.names entries') (Entries.names others')).filter keep := by
  have once (xs ys : Entries α) : (allNames (Entries.names xs) (Entries.names ys)).Nodup :=
    nodup_allNames (Entries.names_nodup xs) (Entries.names_nodup ys)
  refine names_ext ((sortNames_pairwise _).filter _) ((sortNames_pairwise _).filter _)
    ((once _ _).filter _) ((once _ _).filter _) fun name => ?_
  simp only [List.mem_filter, mem_allNames, Entries.mem_names, ← Option.isSome_iff_exists]
  constructor
  · rintro ⟨member, kept⟩
    rw [(same name kept).1, (same name kept).2] at member
    exact ⟨member, kept⟩
  · rintro ⟨member, kept⟩
    rw [← (same name kept).1, ← (same name kept).2] at member
    exact ⟨member, kept⟩

theorem allNames_entries_eq {α : Type} {entries others entries' others' : Entries α}
    (left : ∀ name, (Entries.find? name entries).isSome = (Entries.find? name entries').isSome)
    (right : ∀ name, (Entries.find? name others).isSome = (Entries.find? name others').isSome) :
    allNames (Entries.names entries) (Entries.names others) =
      allNames (Entries.names entries') (Entries.names others') := by
  have all (names : List String) : names.filter (fun _ => true) = names :=
    List.filter_eq_self.2 fun _ _ => rfl
  rw [← all (allNames (Entries.names entries) _), ← all (allNames (Entries.names entries') _)]
  exact allNames_entries_filter_eq _ fun name _ => ⟨left name, right name⟩

theorem mem_changes_of_propertyEvent? (h : propertyEvent? before after name = some e) :
    e ∈ before.changes after := by
  refine List.mem_append_left _ (List.mem_filterMap.2 ⟨name, mem_allNames_entries ?_, h⟩)
  rintro ⟨left, right⟩
  simp [propertyEvent?, property?, left, right] at h

theorem mem_changes_of_childEvent? (h : childEvent? before after name = some e) :
    e ∈ before.changes after := by
  refine List.mem_append_right _ (List.mem_filterMap.2 ⟨name, mem_allNames_entries ?_, h⟩)
  rintro ⟨left, right⟩
  simp [childEvent?, child?, left, right] at h

/-- A change is what happened to a property or to a child. -/
theorem event_of_mem_changes (h : e ∈ before.changes after) :
    (∃ name, propertyEvent? before after name = some e) ∨
      ∃ name, childEvent? before after name = some e := by
  rcases List.mem_append.1 h with here | here
  · obtain ⟨name, -, event⟩ := List.mem_filterMap.1 here
    exact .inl ⟨name, event⟩
  · obtain ⟨name, -, event⟩ := List.mem_filterMap.1 here
    exact .inr ⟨name, event⟩

theorem propertyAdded_mem_changes {value : Value} (left : before.property? name = none)
    (right : after.property? name = some value) :
    .propertyAdded ⟨name, value⟩ ∈ before.changes after := by
  have event : propertyEvent? before after name = some (.propertyAdded ⟨name, value⟩) := by
    simp [propertyEvent?, left, right]
  exact mem_changes_of_propertyEvent? event

theorem propertyChanged_mem_changes {old new : Value} (left : before.property? name = some old)
    (right : after.property? name = some new) (differ : old.differs new = true) :
    .propertyChanged ⟨name, old⟩ ⟨name, new⟩ ∈ before.changes after := by
  have event : propertyEvent? before after name =
      some (.propertyChanged ⟨name, old⟩ ⟨name, new⟩) := by
    simp [propertyEvent?, left, right, differ]
  exact mem_changes_of_propertyEvent? event

theorem propertyDeleted_mem_changes {old : Value} (left : before.property? name = some old)
    (right : after.property? name = none) :
    .propertyDeleted ⟨name, old⟩ ∈ before.changes after := by
  have event : propertyEvent? before after name = some (.propertyDeleted ⟨name, old⟩) := by
    simp [propertyEvent?, left, right]
  exact mem_changes_of_propertyEvent? event

/-- Between two same nodes nothing has changed, if no property is a float without a value. -/
theorem changes_eq_nil (same : before.same after = true)
    (numbers : ∀ name value, before.property? name = some value → value.isNan = false) :
    before.changes after = [] := by
  have properties : ∀ name, propertyEvent? before after name = none := by
    intro name
    rcases property?_cases same name with ⟨left, right⟩ | ⟨v, w, left, right, equal⟩
    · simp [propertyEvent?, left, right]
    · simp [propertyEvent?, left, right, Value.differs_of_same (numbers name v left) equal]
  have children : ∀ name, childEvent? before after name = none := by
    intro name
    cases left : before.child? name with
    | none =>
      cases right : after.child? name with
      | none => simp [childEvent?, left, right]
      | some child =>
        obtain ⟨other, there, -⟩ := child?_of_same (same_symm same) right
        rw [left] at there
        contradiction
    | some child =>
      obtain ⟨other, right, equal⟩ := child?_of_same same left
      simp [childEvent?, left, right, equal]
  rw [changes, List.append_eq_nil_iff, List.filterMap_eq_nil_iff, List.filterMap_eq_nil_iff]
  exact ⟨fun name _ => properties name, fun name _ => children name⟩

variable {old new child : Node}

theorem childAdded_mem_changes (left : before.child? name = none)
    (right : after.child? name = some child) : .childAdded name child ∈ before.changes after := by
  have event : childEvent? before after name = some (.childAdded name child) := by
    simp [childEvent?, left, right]
  exact mem_changes_of_childEvent? event

theorem childChanged_mem_changes (left : before.child? name = some old)
    (right : after.child? name = some new) (differ : old.same new = false) :
    .childChanged name old new ∈ before.changes after := by
  have event : childEvent? before after name = some (.childChanged name old new) := by
    simp [childEvent?, left, right, differ]
  exact mem_changes_of_childEvent? event

theorem childDeleted_mem_changes (left : before.child? name = some old)
    (right : after.child? name = none) : .childDeleted name old ∈ before.changes after := by
  have event : childEvent? before after name = some (.childDeleted name old) := by
    simp [childEvent?, left, right]
  exact mem_changes_of_childEvent? event

/-- What changes between two states, by what stands under its name on both sides. -/
inductive Change (before after : Node) : Event → Prop
  | propertyAdded {name : String} {value : Value} (absent : before.property? name = none)
      (there : after.property? name = some value) :
      Change before after (.propertyAdded ⟨name, value⟩)
  | propertyChanged {name : String} {old new : Value} (found : before.property? name = some old)
      (there : after.property? name = some new) (differ : old.differs new = true) :
      Change before after (.propertyChanged ⟨name, old⟩ ⟨name, new⟩)
  | propertyDeleted {name : String} {value : Value} (found : before.property? name = some value)
      (absent : after.property? name = none) :
      Change before after (.propertyDeleted ⟨name, value⟩)
  | childAdded {name : String} {child : Node} (absent : before.child? name = none)
      (there : after.child? name = some child) : Change before after (.childAdded name child)
  | childChanged {name : String} {old new : Node} (found : before.child? name = some old)
      (there : after.child? name = some new) (differ : old.same new = false) :
      Change before after (.childChanged name old new)
  | childDeleted {name : String} {child : Node} (found : before.child? name = some child)
      (absent : after.child? name = none) : Change before after (.childDeleted name child)

theorem change_of_propertyEvent? (h : propertyEvent? before after name = some e) :
    Change before after e := by
  rw [propertyEvent?] at h
  split at h
  · cases h
  next value absent there =>
    cases h
    exact .propertyAdded absent there
  next value found absent =>
    cases h
    exact .propertyDeleted found absent
  next old new found there =>
    split at h
    next differ =>
      cases h
      exact .propertyChanged found there differ
    · cases h

theorem change_of_childEvent? (h : childEvent? before after name = some e) :
    Change before after e := by
  rw [childEvent?] at h
  split at h
  · cases h
  next child absent there =>
    cases h
    exact .childAdded absent there
  next child found absent =>
    cases h
    exact .childDeleted found absent
  next old new found there =>
    split at h
    · cases h
    next differ =>
      cases h
      exact .childChanged found there (by rwa [Bool.not_eq_true] at differ)

/-- The listed events are the changes under each name. -/
theorem mem_changes_iff : e ∈ before.changes after ↔ Change before after e := by
  constructor
  · intro member
    rcases event_of_mem_changes member with ⟨name, event⟩ | ⟨name, event⟩
    · exact change_of_propertyEvent? event
    · exact change_of_childEvent? event
  · intro change
    cases change with
    | propertyAdded absent there => exact propertyAdded_mem_changes absent there
    | propertyChanged found there differ => exact propertyChanged_mem_changes found there differ
    | propertyDeleted found absent => exact propertyDeleted_mem_changes found absent
    | childAdded absent there => exact childAdded_mem_changes absent there
    | childChanged found there differ => exact childChanged_mem_changes found there differ
    | childDeleted found absent => exact childDeleted_mem_changes found absent

end PrivilegeStore.Node
