import PrivilegeStore.Proofs.Commit.Events

/-!
# Commits that add one definition

A commit may do no more than add a definition and move the counter to the bit above. It is accepted
exactly if the definition is admissible and no property of the store is a float without a value.
Such a property differs from itself, so that every later change of the store comes with a change of
this property, which no rule lets pass.
-/
namespace PrivilegeStore

namespace Bits

/-- Bits are not read from a float without a value. -/
theorem isNan_of_ofValue {v : Value} {bits : Bits} (read : ofValue v = .ok bits) :
    v.isNan = false := by
  cases v with
  | scalar a =>
    cases a with
    | float x => simp [ofValue, Value.elements] at read
    | _ => rfl
  | _ => rfl

end Bits

namespace Commit

open Aggregation (Admission Admissible)

variable {settings : Settings} {before after : Snapshot} {name : String} {child : Node}

/-- An accepted commit that changes the store found no property there that differs from itself. -/
theorem Accepts.withoutNan (accepted : Accepts settings before after)
    (changed : (stateOf (before.node? settings.privilegesPath)).same
      (stateOf (after.node? settings.privilegesPath)) = false) :
    (before.privileges settings).WithoutNan := by
  intro property value found
  obtain ⟨later, there, -⟩ := accepted.property_kept found
  rcases accepted.cases with same | all
  · rw [changed] at same
    contradiction
  · cases nan : value.isNan with
    | false => rfl
    | true =>
      have differ : value.differs later = true := by
        simp [Value.differs, nan]
      have old := (property?_stateOf before property).trans found
      have new := (property?_stateOf after property).trans there
      obtain ⟨kept, -, given⟩ := all _ (Node.propertyChanged_mem_changes old new differ)
      obtain ⟨rfl, bits, read, -⟩ := Review.judgeProperty_accepts given
      -- only the counter may change, and as the counter it could not be read
      rw [View.nextBits, found] at read
      rw [Bits.isNan_of_ofValue read] at nan
      contradiction

/-- The counter may move to the bit above. -/
theorem passes_of_moved {old new : Value} {bits : Bits}
    (founded : (before.privileges settings).isPresent = true)
    (present : (after.privileges settings).isPresent = true)
    (read : (before.privileges settings).nextBits = .ok bits)
    (moved : (after.privileges settings).nextBits = .ok bits.next) :
    Passes settings before after (.propertyChanged ⟨Schema.next, old⟩ ⟨Schema.next, new⟩) := by
  have storeBefore := Review.store_eq_ok.2 ⟨founded, rfl⟩
  have storeAfter := Review.store_eq_ok.2 ⟨present, rfl⟩
  rw [passes_iff, Ruling.gist_eq_ok]
  simp only [Review.judge, Event.propertyChanged, Review.judgeProperty, ne_eq, not_true_eq_false,
    ↓reduceIte, storeBefore, read, storeAfter]
  exact Counter.check_accepts_iff.2 moved

/-- A definition that was admitted passes. -/
theorem passes_of_admitted (admitted : Admitted settings before after name child)
    (isDef : child.isDefinition = true)
    (present : (after.privileges settings).isPresent = true) :
    Passes settings before after (.childAdded name child) := by
  obtain ⟨free, founded, registry, definition, bits, known, named, read, judged⟩ := admitted
  have storeBefore := Review.store_eq_ok.2 ⟨founded, rfl⟩
  have storeAfter := Review.store_eq_ok.2 ⟨present, rfl⟩
  rw [passes_iff, Ruling.gist_eq_ok]
  simp only [Review.judge, Event.childAdded, Review.judgeAdded, isDef, Bool.not_true,
    Bool.false_eq_true, ↓reduceIte, free, storeBefore, Review.openAdmission, known, storeAfter,
    Ruling.outcome_after, Ruling.outcome_onAccept, Review.judgeDefinition, named, read]
  exact judged

/-- A commit adds a definition under a name that is free, and moves the counter to the bit above at
most. -/
structure AddsDefinition (settings : Settings) (before after : Snapshot) (name : String)
    (child : Node) : Prop where
  founded : (before.privileges settings).isPresent = true
  free : Namespace.isReserved settings.reservedPrefixes name = false
  isDef : child.isDefinition = true
  fresh : ((before.privileges settings).child name).state = none
  added : ((after.privileges settings).child name).state = some child
  others : ∀ other, name ≠ other → ((after.privileges settings).child other).state =
    ((before.privileges settings).child other).state
  properties : ∀ other, Schema.next ≠ other → (after.privileges settings).property? other =
    (before.privileges settings).property? other
  counter : (after.privileges settings).property? Schema.next =
      (before.privileges settings).property? Schema.next ∨
    ∃ old new bits, (before.privileges settings).property? Schema.next = some old ∧
      (after.privileges settings).property? Schema.next = some new ∧
      (before.privileges settings).nextBits = .ok bits ∧
      (after.privileges settings).nextBits = .ok bits.next

namespace AddsDefinition

variable (adds : AddsDefinition settings before after name child)

include adds

theorem present : (after.privileges settings).isPresent = true := present_of_child adds.added

theorem changed : (stateOf (before.node? settings.privilegesPath)).same
    (stateOf (after.node? settings.privilegesPath)) = false := by
  rw [← Bool.not_eq_true]
  intro same
  have there := (child?_stateOf after name).trans adds.added
  obtain ⟨old, found, -⟩ := Node.child?_of_same (Node.same_symm same) there
  rw [child?_stateOf, adds.fresh] at found
  cases found

/-- Where no property differs from itself, the changes are the new definition and a move of the
counter. -/
theorem cases_of_mem_changes (numbers : (before.privileges settings).WithoutNan) {e : Event}
    (member : e ∈ changes settings before after) :
    e = .childAdded name child ∨ ∃ old new bits,
      e = .propertyChanged ⟨Schema.next, old⟩ ⟨Schema.next, new⟩ ∧
        (before.privileges settings).nextBits = .ok bits ∧
        (after.privileges settings).nextBits = .ok bits.next := by
  have unchanged : ∀ property, (after.privileges settings).property? property =
      (before.privileges settings).property? property →
        Node.propertyEvent? (stateOf (before.node? settings.privilegesPath))
          (stateOf (after.node? settings.privilegesPath)) property = none := by
    intro property same
    rw [Node.propertyEvent?, property?_stateOf, property?_stateOf, same]
    cases found : (before.privileges settings).property? property with
    | none => rfl
    | some value => simp [Value.differs_of_same (numbers property value found) rfl]
  rcases Node.event_of_mem_changes member with ⟨property, event⟩ | ⟨other, event⟩
  · right
    by_cases next : Schema.next = property
    · subst next
      rcases adds.counter with same | ⟨old, new, bits, was, now, read, moved⟩
      · rw [unchanged _ same] at event
        cases event
      · rw [Node.propertyEvent?, property?_stateOf, property?_stateOf, was, now] at event
        simp only [Option.ite_none_right_eq_some, Option.some.injEq] at event
        exact ⟨old, new, bits, event.2.symm, read, moved⟩
    · rw [unchanged _ (adds.properties property next)] at event
      cases event
  · left
    by_cases here : name = other
    · subst here
      rw [Node.childEvent?, child?_stateOf, child?_stateOf, adds.fresh, adds.added] at event
      exact (Option.some.inj event).symm
    · rw [Node.childEvent?, child?_stateOf, child?_stateOf, adds.others other here] at event
      cases found : ((before.privileges settings).child other).state with
      | none => simp [found] at event
      | some node => simp [found, Node.same_refl] at event

/-- The commit is accepted exactly if the definition is admissible and no property differs from
itself. -/
theorem accepts_iff {registry : Registry} {definition : Definition} {bits : Bits}
    (known : (before.privileges settings).registry = .ok registry)
    (clean : (before.privileges settings).bitsTable.fault = none)
    (named : ((after.privileges settings).child name).definition = .ok definition)
    (read : ((after.privileges settings).child name).bits = .ok bits) :
    Accepts settings before after ↔ (before.privileges settings).WithoutNan ∧
      Admissible registry (before.privileges settings).bitsTable.entries
        (after.privileges settings) definition bits := by
  constructor
  · intro accepted
    refine ⟨accepted.withoutNan adds.changed, ?_⟩
    obtain ⟨registry', definition', bits', known', named', read', -, terms⟩ :=
      accepted.admissible adds.fresh adds.added adds.isDef
    rw [known] at known'
    rw [named] at named'
    rw [read] at read'
    cases known'
    cases named'
    cases read'
    exact terms
  · rintro ⟨numbers, terms⟩
    have tree : (before.privileges settings).below name (some child) = _ :=
      below_eq_child adds.added
    have admitted : Admitted settings before after name child := by
      refine ⟨adds.free, adds.founded, registry, definition, bits, known, ?_, ?_, ?_⟩
      · rw [tree, named]
      · rw [tree, read]
      · exact (Admission.judge_accepts_iff (Admission.faithful_start _ _ _)).2
          ⟨terms.1, clean, terms⟩
    apply accepts_of_passes
    intro e member
    rcases adds.cases_of_mem_changes numbers member with rfl | ⟨old, new, counter, rfl, was, moved⟩
    · exact passes_of_admitted admitted adds.isDef adds.present
    · exact passes_of_moved adds.founded adds.present was moved

end AddsDefinition

end Commit

end PrivilegeStore
