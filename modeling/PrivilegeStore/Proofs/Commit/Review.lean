import PrivilegeStore.Commit.Verdict
import PrivilegeStore.Proofs.Aggregation.Acceptance

/-!
# Consistent reviews

A consistent review keeps no admission but one opened from its own snapshots, so that every
definition it accepts would be accepted by an admission that has judged nothing. Judging keeps a
review consistent; so whatever came before a change, a consistent review of the same commit judges
it, and a verdict tells what such reviews make of the changes.
-/
namespace PrivilegeStore

/-- The privileges node of a snapshot. -/
abbrev Snapshot.privileges (s : Snapshot) (settings : Settings := {}) : View :=
  s.view settings.privilegesPath

namespace Commit

open Aggregation (Admission Closed)

/-- A definition is let into the store: its name is not reserved, there was a store, and an
admission that has judged nothing accepts it. -/
structure Admitted (settings : Settings) (before after : Snapshot) (name : String) (child : Node) :
    Prop where
  free : Namespace.isReserved settings.reservedPrefixes name = false
  founded : (before.privileges settings).isPresent = true
  judged : ∃ registry definition bits,
    (before.privileges settings).registry = .ok registry ∧
      ((before.privileges settings).below name (some child)).definition = .ok definition ∧
      ((before.privileges settings).below name (some child)).bits = .ok bits ∧
      ((Admission.start registry (before.privileges settings)
        (after.privileges settings)).judge definition bits).1.outcome = .ok ()

namespace Review

variable {r : Review} {a : Admission} {e : Event} {name : String} {child : Node} {breach : Breach}

/-- An admission was opened from the snapshots of a review, and what it keeps is right. -/
structure Opened (r : Review) (a : Admission) : Prop where
  registry : (r.before.privileges r.settings).registry = .ok a.registry
  index : a.index.store = r.before.privileges r.settings
  storeAfter : a.storeAfter = r.after.privileges r.settings
  faithful : a.Faithful

/-- A review keeps an admission of its own, or none. -/
def Consistent (r : Review) : Prop := ∀ a, r.admission = some a → r.Opened a

theorem store_eq_ok {settings : Settings} {s : Snapshot} {view : View} :
    store settings s = .ok view ↔
      (s.privileges settings).isPresent = true ∧ s.privileges settings = view := by
  simp only [store]
  split
  next present => simp [present]
  next absent => simp [absent]

/-- Judging a definition leaves an admission opened as it was, if it accepts or the bits before can
be read. -/
theorem Opened.of_judge (opened : r.Opened a) {definition : Definition} {bits : Bits}
    (sound : (a.judge definition bits).1.outcome = .ok () ∨
      (r.before.privileges r.settings).bitsTable.fault = none) :
    r.Opened (a.judge definition bits).2 := by
  obtain ⟨registry, storeAfter, index⟩ := Admission.judge_frame a definition bits
  constructor
  · rw [registry]
    exact opened.registry
  · exact index.trans opened.index
  · exact storeAfter.trans opened.storeAfter
  · rw [← opened.index] at sound
    exact Admission.faithful_judge opened.faithful sound

/-- What an opened admission accepts, one that has judged nothing accepts too. -/
theorem Opened.start_accepts (opened : r.Opened a) {definition : Definition} {bits : Bits}
    (accepted : (a.judge definition bits).1.outcome = .ok ()) :
    ((Admission.start a.registry (r.before.privileges r.settings)
      (r.after.privileges r.settings)).judge definition bits).1.outcome = .ok () := by
  have terms := (Admission.judge_accepts_iff opened.faithful).1 accepted
  rw [opened.index, opened.storeAfter] at terms
  exact (Admission.judge_accepts_iff (Admission.faithful_start _ _ _)).2 terms

theorem opened_of_openAdmission (consistent : r.Consistent)
    (h : (r.openAdmission (r.before.privileges r.settings)).1 = .ok a) : r.Opened a := by
  rw [openAdmission] at h
  split at h
  next kept =>
    cases h
    exact consistent a kept
  next =>
    split at h
    · cases h
    next registry read =>
      simp only at h
      split at h
      · cases h
      next storeAfter present =>
        cases h
        obtain ⟨-, rfl⟩ := store_eq_ok.1 present
        exact ⟨read, rfl, rfl, Admission.faithful_start _ _ _⟩

theorem judgeDefinition_accepts (opened : r.Opened a) {tree : View}
    (accepted : (r.judgeDefinition tree a).1.outcome = .ok ()) :
    ∃ definition bits, tree.definition = .ok definition ∧ tree.bits = .ok bits ∧
      ((Admission.start a.registry (r.before.privileges r.settings)
        (r.after.privileges r.settings)).judge definition bits).1.outcome = .ok () := by
  rw [judgeDefinition] at accepted
  cases named : tree.definition with
  | error fault => simp [named, Ruling.fail] at accepted
  | ok definition =>
    cases read : tree.bits with
    | error fault => simp [named, read, Ruling.fail] at accepted
    | ok bits =>
      simp only [named, read] at accepted
      exact ⟨definition, bits, rfl, rfl, opened.start_accepts accepted⟩

/-- An added definition that is accepted was admitted. -/
theorem judgeAdded_accepts (consistent : r.Consistent)
    (accepted : (r.judgeAdded name child).1.outcome = .ok ()) (isDef : child.isDefinition = true) :
    Admitted r.settings r.before r.after name child := by
  simp only [judgeAdded, isDef, Bool.not_true, Bool.false_eq_true, ↓reduceIte] at accepted
  split at accepted
  · cases accepted
  next reserved =>
    split at accepted
    · cases accepted
    next storeBefore founded =>
      obtain ⟨present, rfl⟩ := store_eq_ok.1 founded
      split at accepted
      · cases accepted
      next a notices opening =>
        simp only [Ruling.outcome_after, Ruling.outcome_onAccept] at accepted
        have opened := opened_of_openAdmission consistent (congrArg Prod.fst opening)
        obtain ⟨definition, bits, named, read, judged⟩ := judgeDefinition_accepts opened accepted
        exact ⟨Bool.eq_false_iff.2 reserved, present, a.registry, definition, bits,
          opened.registry, named, read, judged⟩

/-- Only the counter may change, to the bit above the one it was at. -/
theorem judgeProperty_accepts (accepted : (r.judgeProperty name).outcome = .ok ()) :
    name = Schema.next ∧ ∃ bits, (r.before.privileges r.settings).nextBits = .ok bits ∧
      (r.after.privileges r.settings).nextBits = .ok bits.next := by
  rw [judgeProperty] at accepted
  split at accepted
  · cases accepted
  next counter =>
    split at accepted
    · cases accepted
    next storeBefore founded =>
      split at accepted
      · cases accepted
      next bits read =>
        split at accepted
        · cases accepted
        next storeAfter kept =>
          obtain ⟨-, rfl⟩ := store_eq_ok.1 founded
          obtain ⟨-, rfl⟩ := store_eq_ok.1 kept
          exact ⟨Decidable.not_not.1 counter, bits, read, Counter.check_accepts_iff.1 accepted⟩

section Consistency

/-! A review stays consistent over what it accepts, and over everything else as well if the bits
before can be read: a reading that fails would leave an index that answers from half a table. -/

theorem consistent_judgeDefinition (opened : r.Opened a) {tree : View}
    (sound : (r.judgeDefinition tree a).1.outcome = .ok () ∨
      (r.before.privileges r.settings).bitsTable.fault = none) :
    (r.judgeDefinition tree a).2.Consistent := by
  have keeping {b : Admission} (kept : r.Opened b) :
      Consistent { r with admission := some b } := by
    intro c same
    cases same
    exact ⟨kept.registry, kept.index, kept.storeAfter, kept.faithful⟩
  rw [judgeDefinition] at sound ⊢
  split
  · exact keeping opened
  next definition named =>
    simp only [named] at sound
    split
    · exact keeping opened
    next bits read =>
      simp only [read] at sound
      exact keeping (opened.of_judge sound)

theorem consistent_judgeAdded (consistent : r.Consistent)
    (sound : (r.judgeAdded name child).1.outcome = .ok () ∨
      (r.before.privileges r.settings).bitsTable.fault = none) :
    (r.judgeAdded name child).2.Consistent := by
  rw [judgeAdded] at sound ⊢
  split
  · exact consistent
  next added =>
    rw [if_neg added] at sound
    split
    · exact consistent
    next free =>
      rw [if_neg free] at sound
      split
      · exact consistent
      next storeBefore founded =>
        obtain ⟨-, rfl⟩ := store_eq_ok.1 founded
        simp only [founded] at sound
        split
        · exact consistent
        next opening =>
          simp only [opening, Ruling.outcome_after, Ruling.outcome_onAccept] at sound
          exact consistent_judgeDefinition
            (opened_of_openAdmission consistent (congrArg Prod.fst opening)) sound

theorem consistent_judge (consistent : r.Consistent)
    (sound : (r.judge e).1.outcome = .ok () ∨
      (r.before.privileges r.settings).bitsTable.fault = none) : (r.judge e).2.Consistent := by
  obtain ⟨kind, name, old, new⟩ := e
  cases kind with
  | childAdded =>
    cases new with
    | node child => exact consistent_judgeAdded consistent sound
    | _ => exact consistent
  | propertyChanged => cases old <;> exact consistent
  | childChanged => cases old <;> exact consistent
  | childDeleted => cases old <;> exact consistent
  | _ => exact consistent

end Consistency

theorem store_eq_error {settings : Settings} {s : Snapshot}
    (h : store settings s = .error breach) : breach = .storeNotInitialized := by
  simp only [store] at h
  split at h
  · cases h
  · cases h
    rfl

theorem rule_of_judgeProperty (h : (r.judgeProperty name).outcome = .error (.breach breach)) :
    breach.rule ≠ .unknownDeclaredAggregate := by
  rw [judgeProperty] at h
  split at h
  · cases h
    decide
  · split at h
    next absent =>
      cases h
      rw [store_eq_error absent]
      decide
    next =>
      split at h
      · cases h
      · split at h
        next absent =>
          cases h
          rw [store_eq_error absent]
          decide
        next =>
          rw [Counter.check] at h
          split at h
          · cases h
          · split at h
            · cases h
            · cases h
              decide

theorem rule_of_openAdmission {storeBefore : View}
    (h : (r.openAdmission storeBefore).1 = .error (.breach breach)) :
    breach.rule ≠ .unknownDeclaredAggregate := by
  rw [openAdmission] at h
  split at h
  · cases h
  · split at h
    · cases h
    · simp only at h
      split at h
      next absent =>
        cases h
        rw [store_eq_error absent]
        decide
      next => cases h

theorem rule_of_judgeDefinition (opened : r.Opened a) (closed : Closed a.registry) {tree : View}
    (h : (r.judgeDefinition tree a).1.outcome = .error (.breach breach)) :
    breach.rule ≠ .unknownDeclaredAggregate := by
  rw [judgeDefinition] at h
  split at h
  · cases h
  · split at h
    · cases h
    next => exact Admission.rule_of_judge opened.faithful closed h

/-- With all members registered before, no added child breaks the rule on unknown members. -/
theorem rule_of_judgeAdded (consistent : r.Consistent)
    (closed : ∀ registry, (r.before.privileges r.settings).registry = .ok registry →
      Closed registry)
    (h : (r.judgeAdded name child).1.outcome = .error (.breach breach)) :
    breach.rule ≠ .unknownDeclaredAggregate := by
  rw [judgeAdded] at h
  split at h
  · cases h
  · split at h
    · cases h
      simp [Breach.rule]
    · split at h
      next absent =>
        cases h
        rw [store_eq_error absent]
        decide
      next storeBefore present =>
        obtain ⟨-, rfl⟩ := store_eq_ok.1 present
        split at h
        next failure notices opening =>
          cases h
          exact rule_of_openAdmission (congrArg Prod.fst opening)
        next opened notices opening =>
          have own := opened_of_openAdmission consistent (congrArg Prod.fst opening)
          simp only [Ruling.outcome_after, Ruling.outcome_onAccept] at h
          exact rule_of_judgeDefinition own (closed _ own.registry) h

theorem rule_of_judge (consistent : r.Consistent)
    (closed : ∀ registry, (r.before.privileges r.settings).registry = .ok registry →
      Closed registry)
    (h : (r.judge e).1.outcome = .error (.breach breach)) :
    breach.rule ≠ .unknownDeclaredAggregate := by
  obtain ⟨kind, name, old, new⟩ := e
  cases kind with
  | propertyAdded => cases h
  | propertyChanged =>
    cases old with
    | property p => exact rule_of_judgeProperty h
    | _ => cases h
  | propertyDeleted =>
    cases h
    decide
  | childAdded =>
    cases new with
    | node child => exact rule_of_judgeAdded consistent closed h
    | _ => cases h
  | childChanged =>
    cases old with
    | node n =>
      simp only [judge, judgeChanged] at h
      split at h <;> cases h
      simp [Breach.rule]
    | _ => cases h
  | childDeleted =>
    cases old with
    | node n =>
      simp only [judge, judgeDeleted] at h
      split at h <;> cases h
      simp [Breach.rule]
    | _ => cases h
  | unknown label => cases h

theorem frame_judgeDefinition (tree : View) (a : Admission) :
    ∃ kept, (r.judgeDefinition tree a).2 = { r with admission := kept } := by
  rw [judgeDefinition]
  split
  · exact ⟨some a, rfl⟩
  · split
    · exact ⟨some a, rfl⟩
    next bits _ => exact ⟨_, rfl⟩

theorem frame_judgeAdded : ∃ kept, (r.judgeAdded name child).2 = { r with admission := kept } := by
  rw [judgeAdded]
  split
  · exact ⟨r.admission, rfl⟩
  · split
    · exact ⟨r.admission, rfl⟩
    · split
      · exact ⟨r.admission, rfl⟩
      · split
        · exact ⟨r.admission, rfl⟩
        next a _ _ => exact frame_judgeDefinition _ a

/-- Judging changes nothing but the admission that is kept. -/
theorem frame_judge (r : Review) (e : Event) :
    ∃ kept, (r.judge e).2 = { r with admission := kept } := by
  obtain ⟨kind, name, old, new⟩ := e
  cases kind with
  | childAdded =>
    cases new with
    | node child => exact frame_judgeAdded
    | _ => exact ⟨r.admission, rfl⟩
  | propertyChanged => cases old <;> exact ⟨r.admission, rfl⟩
  | childChanged => cases old <;> exact ⟨r.admission, rfl⟩
  | childDeleted => cases old <;> exact ⟨r.admission, rfl⟩
  | _ => exact ⟨r.admission, rfl⟩

/-- Some consistent review of the same commit judges an event with this outcome. -/
def Gives (r : Review) (e : Event) (outcome : Except Failure Unit) : Prop :=
  ∃ kept, Consistent { r with admission := kept } ∧
    (judge { r with admission := kept } e).1.outcome = outcome

/-- With an accepting verdict every event was accepted, and otherwise one broke the rule. -/
theorem verdictFrom_spec (consistent : r.Consistent) {checked : Nat} {events : List Event}
    {v : Verdict} (h : (r.verdictFrom checked events).result = .ok v) :
    match v.breach with
    | none => ∀ e ∈ events, r.Gives e (.ok ())
    | some breach => ∃ e ∈ events, r.Gives e (.error (.breach breach)) := by
  induction events generalizing r checked with
  | nil =>
    cases h
    simp
  | cons e rest ih =>
    rw [verdictFrom] at h
    obtain ⟨kept, frame⟩ := frame_judge r e
    cases judged : (r.judge e).1.outcome with
    | ok accepted =>
      simp only [judged] at h
      -- the rest is judged by a review that differs from this one in its admission only
      have spec := ih (consistent_judge consistent (.inl judged)) h
      rw [frame] at spec
      cases broken : v.breach with
      | none =>
        simp only [broken] at spec ⊢
        intro x member
        rcases List.mem_cons.1 member with rfl | member
        · exact ⟨r.admission, consistent, judged⟩
        · exact spec x member
      | some breach =>
        simp only [broken] at spec ⊢
        obtain ⟨x, member, given⟩ := spec
        exact ⟨x, List.mem_cons_of_mem _ member, given⟩
    | error failure =>
      cases failure with
      | breach breach =>
        simp only [judged] at h
        cases h
        exact ⟨e, List.mem_cons_self, r.admission, consistent, judged⟩
      | fault fault =>
        simp only [judged] at h
        cases h

end Review

end Commit

end PrivilegeStore
