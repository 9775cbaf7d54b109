import PrivilegeStore.Proofs.Aggregation.Agreement
import PrivilegeStore.Proofs.Commit.Acceptance

/-!
# A commit is its changes

The changes of a commit are judged by one review, which opens an admission at the first definition
that is added and keeps it with all that it has read and resolved. Each change comes to what a
review that has judged nothing makes of it, so a verdict is reached by judging the changes apart, up
to the first that is not accepted. This includes commits that are accepted without a look at their
changes, for these have none.
-/
namespace PrivilegeStore

open Aggregation (Admission)

/-- No property of a store is a float without a value, which differs even from itself. -/
def View.WithoutNan (store : View) : Prop :=
  ∀ name value, store.property? name = some value → value.isNan = false

namespace Commit

namespace Review

variable {r : Review} {a b : Admission} {e : Event} {name : String} {child : Node}

/-- A review keeps an admission of its own only if there is a store afterwards, without which none
is opened. -/
structure Settled (r : Review) : Prop where
  consistent : r.Consistent
  founded : r.admission.isSome = true → (r.after.privileges r.settings).isPresent = true

/-- The review of the same commit that has judged nothing. -/
def anew (r : Review) : Review := { r with admission := none }

theorem settled_anew (r : Review) : r.anew.Settled where
  consistent := by
    intro a kept
    simp [anew] at kept
  founded := by simp [anew]

theorem Opened.alike (openedA : r.Opened a) (openedB : r.anew.Opened b) : a.OpenedAlike b := by
  have left := openedA.registry
  have right : (r.before.privileges r.settings).registry = .ok b.registry := openedB.registry
  have stores : a.index.store = b.index.store := openedA.index.trans openedB.index.symm
  have later : a.storeAfter = b.storeAfter := openedA.storeAfter.trans openedB.storeAfter.symm
  exact .of_eq (Except.ok.inj (left.symm.trans right)) (by rw [stores]) (by rw [later])

/-- Where an admission is kept, a review that has judged nothing opens one as well. -/
theorem openAdmission_anew (settled : r.Settled) (kept : r.admission = some a) :
    ∃ b notices, r.anew.openAdmission (r.before.privileges r.settings) = (.ok b, notices) ∧
      r.anew.Opened b := by
  have opened := settled.consistent a kept
  have founded : (r.after.privileges r.settings).isPresent = true :=
    settled.founded (by rw [kept]; rfl)
  have present : store r.settings r.after = .ok (r.after.privileges r.settings) :=
    store_eq_ok.2 ⟨founded, rfl⟩
  have opening : (r.anew.openAdmission (r.before.privileges r.settings)).1 =
      .ok (Admission.start a.registry (r.before.privileges r.settings)
        (r.after.privileges r.settings)) := by
    simp only [openAdmission, anew, opened.registry, present]
  exact ⟨_, _, Prod.ext opening rfl,
    opened_of_openAdmission (settled_anew r).consistent opening⟩

theorem judgeDefinition_anew (openedA : r.Opened a) (openedB : r.anew.Opened b) (tree : View) :
    (r.judgeDefinition tree a).1.account = (r.anew.judgeDefinition tree b).1.account := by
  rw [judgeDefinition, judgeDefinition]
  split
  · rfl
  · split
    · rfl
    next bits _ =>
      exact Admission.judge_account openedA.faithful openedB.faithful (openedA.alike openedB) rfl
        rfl bits

theorem judgeAdded_anew (settled : r.Settled) (name : String) (child : Node) :
    (r.judgeAdded name child).1.account = (r.anew.judgeAdded name child).1.account := by
  cases kept : r.admission with
  | none =>
    have same : r.anew = r := by
      rw [anew, ← kept]
    rw [same]
  | some a =>
    have opened := settled.consistent a kept
    obtain ⟨b, notices, opening, openedB⟩ := openAdmission_anew settled kept
    have keeping (storeBefore : View) : r.openAdmission storeBefore = (.ok a, []) := by
      rw [openAdmission, kept]
    rw [judgeAdded, judgeAdded]
    split
    · rfl
    · have reserved : r.anew.settings = r.settings := rfl
      have earlier : r.anew.before = r.before := rfl
      rw [reserved, earlier]
      split
      · rfl
      · split
        · rfl
        next storeBefore present =>
          obtain ⟨-, rfl⟩ := store_eq_ok.1 present
          rw [keeping, opening]
          simp only [Ruling.account_after, Ruling.account_onAccept]
          exact judgeDefinition_anew opened openedB _

/-- Of an event the same account is given as by a review that has judged nothing. -/
theorem judge_account (settled : r.Settled) (e : Event) :
    (r.judge e).1.account = (r.anew.judge e).1.account := by
  obtain ⟨kind, name, old, new⟩ := e
  cases kind with
  | childAdded =>
    cases new with
    | node child => exact judgeAdded_anew settled name child
    | _ => rfl
  | propertyChanged => cases old <;> rfl
  | childChanged => cases old <;> rfl
  | childDeleted => cases old <;> rfl
  | _ => rfl

/-- An event comes to what a review that has judged nothing makes of it. -/
theorem judge_anew (settled : r.Settled) (e : Event) :
    (r.judge e).1.gist = (r.anew.judge e).1.gist := by
  rw [Ruling.gist_eq_account, Ruling.gist_eq_account, judge_account settled]

theorem present_of_openAdmission (settled : r.Settled) {storeBefore : View}
    (h : (r.openAdmission storeBefore).1 = .ok a) :
    (r.after.privileges r.settings).isPresent = true := by
  rw [openAdmission] at h
  split at h
  next kept => exact settled.founded (by rw [kept]; rfl)
  next =>
    split at h
    · cases h
    · simp only at h
      split at h
      · cases h
      next storeAfter present => exact (store_eq_ok.1 present).1

/-- After an event there is a store, or the review is what it was. -/
theorem present_of_judge (settled : r.Settled) (e : Event) :
    (r.judge e).2 = r ∨ (r.after.privileges r.settings).isPresent = true := by
  obtain ⟨kind, name, old, new⟩ := e
  cases kind with
  | childAdded =>
    cases new with
    | node child =>
      simp only [judge]
      rw [judgeAdded]
      split
      · exact .inl rfl
      · split
        · exact .inl rfl
        · split
          · exact .inl rfl
          · split
            · exact .inl rfl
            next opening =>
              exact .inr (present_of_openAdmission settled (congrArg Prod.fst opening))
    | _ => exact .inl rfl
  | propertyChanged => cases old <;> exact .inl rfl
  | childChanged => cases old <;> exact .inl rfl
  | childDeleted => cases old <;> exact .inl rfl
  | _ => exact .inl rfl

/-- An event leaves the review settled if it is accepted, and in any case if the bits before can be
read. -/
theorem settled_judge (settled : r.Settled) (sound : (r.judge e).1.outcome = .ok () ∨
    (r.before.privileges r.settings).bitsTable.fault = none) : (r.judge e).2.Settled := by
  refine ⟨consistent_judge settled.consistent sound, ?_⟩
  obtain ⟨kept, frame⟩ := frame_judge r e
  rcases present_of_judge settled e with same | present
  · rw [same]
    exact settled.founded
  · rw [frame]
    exact fun _ => present

end Review

variable {settings : Settings} {before after : Snapshot} {e : Event}

/-- An event is accepted when it is judged apart. -/
def Passes (settings : Settings) (before after : Snapshot) (e : Event) : Prop :=
  (verdictOn before after settings e).result.toOption.any Verdict.isAccepted = true

instance (settings : Settings) (before after : Snapshot) (e : Event) :
    Decidable (Passes settings before after e) :=
  inferInstanceAs (Decidable (_ = _))

/-- The review of a commit that keeps some admission. -/
abbrev reviewing (settings : Settings) (before after : Snapshot) (kept : Option Admission) :
    Review :=
  ⟨before, after, settings, kept⟩

theorem passes_iff :
    Passes settings before after e ↔ ((review settings before after).judge e).1.gist = .ok () := by
  rw [Ruling.gist_eq_ok, Passes, verdictOn]
  cases judged : ((review settings before after).judge e).1.outcome with
  | ok accepted => simp [judged, Except.toOption, Verdict.isAccepted]
  | error failure => cases failure <;> simp [judged, Except.toOption, Verdict.isAccepted]

/-- The events that pass are counted, and nothing they leave behind shows in what comes later. -/
theorem verdictFrom_append {kept : Option Admission}
    (settled : (reviewing settings before after kept).Settled) (checked : Nat)
    {passed : List Event} (all : ∀ x ∈ passed, Passes settings before after x) (rest : List Event) :
    ∃ later, (reviewing settings before after later).Settled ∧
      ((reviewing settings before after kept).verdictFrom checked (passed ++ rest)).result =
        ((reviewing settings before after later).verdictFrom (checked + passed.length)
          rest).result := by
  induction passed generalizing kept checked with
  | nil => exact ⟨kept, settled, rfl⟩
  | cons x passed ih =>
    have judged : ((reviewing settings before after kept).judge x).1.outcome = .ok () := by
      rw [← Ruling.gist_eq_ok, Review.judge_anew settled x]
      exact passes_iff.1 (all x List.mem_cons_self)
    have settled' := Review.settled_judge settled (.inl judged)
    obtain ⟨kept', frame⟩ := Review.frame_judge (reviewing settings before after kept) x
    rw [frame] at settled'
    obtain ⟨later, settled'', equal⟩ :=
      ih settled' (checked + 1) fun y member => all y (List.mem_cons_of_mem _ member)
    refine ⟨later, settled'', ?_⟩
    rw [List.cons_append, Review.verdictFrom]
    simp only [judged, frame, List.length_cons]
    rw [Nat.add_comm passed.length 1, ← Nat.add_assoc]
    exact equal

theorem verdictOn_of_breach {breach : Breach}
    (judged : ((review settings before after).judge e).1.outcome = .error (.breach breach)) :
    (verdictOn before after settings e).result = .ok ⟨some breach, 1⟩ := by
  simp only [verdictOn, judged]

theorem verdictOn_of_fault {fault : Fault}
    (judged : ((review settings before after).judge e).1.outcome = .error (.fault fault)) :
    (verdictOn before after settings e).result = .error fault := by
  simp only [verdictOn, judged]

/-- What a result is that an event decides after some that passed: the number of the rule that the
event breaks when it is judged apart, with the event counted as well, or the same fault. -/
def Decides (settings : Settings) (before after : Snapshot) (e : Event) (passed : Nat)
    (result : Except Fault Verdict) : Prop :=
  match (verdictOn before after settings e).result with
  | .ok apart => ∃ v, result = .ok v ∧ v.isAccepted = false ∧ v.code? = apart.code? ∧
      v.eventsChecked = passed + 1
  | .error fault => result = .error fault

/-- An event that does not pass decides the verdict. -/
theorem verdictFrom_of_not_passes {kept : Option Admission}
    (settled : (reviewing settings before after kept).Settled) (checked : Nat) (rest : List Event)
    (stops : ¬ Passes settings before after e) :
    Decides settings before after e checked
      ((reviewing settings before after kept).verdictFrom checked (e :: rest)).result := by
  rw [passes_iff] at stops
  have agree : ((reviewing settings before after kept).judge e).1.gist =
      ((review settings before after).judge e).1.gist := Review.judge_anew settled e
  rw [Review.verdictFrom, Decides]
  cases apart : ((review settings before after).judge e).1.outcome with
  | ok accepted => exact absurd (Ruling.gist_eq_ok.2 apart) stops
  | error failure =>
    cases failure with
    | breach breach =>
      rw [Ruling.gist_eq_breach.2 ⟨breach, apart, rfl⟩] at agree
      obtain ⟨reported, judged, rule⟩ := Ruling.gist_eq_breach.1 agree
      simp only [verdictOn_of_breach apart, judged]
      exact ⟨_, rfl, rfl, by simp [Verdict.code?, Breach.code, rule], rfl⟩
    | fault fault =>
      rw [Ruling.gist_eq_fault.2 apart] at agree
      simp only [verdictOn_of_fault apart, Ruling.gist_eq_fault.1 agree]

/-- All of some events pass, or there is a first one that does not. -/
theorem pass_or_stop (settings : Settings) (before after : Snapshot) (events : List Event) :
    (∀ e ∈ events, Passes settings before after e) ∨
      ∃ passed e rest, events = passed ++ e :: rest ∧
        (∀ x ∈ passed, Passes settings before after x) ∧ ¬ Passes settings before after e := by
  cases first : events.find? fun e => !decide (Passes settings before after e) with
  | none =>
    left
    intro e member
    simpa using List.find?_eq_none.1 first e member
  | some e =>
    obtain ⟨stops, passed, rest, split, all⟩ := List.find?_eq_some_iff_append.1 first
    refine .inr ⟨passed, e, rest, split, fun x member => ?_, by simpa using stops⟩
    simpa using all x member

/-- The verdict on some events accepts exactly if they all pass. -/
theorem verdictFrom_accepts_iff {events : List Event} :
    ((review settings before after).verdictFrom 0 events).result.toOption.any
        Verdict.isAccepted = true ↔ ∀ e ∈ events, Passes settings before after e := by
  have settled : (reviewing settings before after none).Settled :=
    Review.settled_anew (review settings before after)
  constructor
  · intro accepted
    rcases pass_or_stop settings before after events with all | ⟨passed, e, rest, split, all, stops⟩
    · exact all
    -- the first event that does not pass decides the verdict, and not for acceptance
    · obtain ⟨later, settled', equal⟩ := verdictFrom_append settled 0 all (e :: rest)
      have decided := verdictFrom_of_not_passes settled' (0 + passed.length) rest stops
      rw [← equal, ← split, Decides] at decided
      split at decided
      · obtain ⟨v, reached, refused, -⟩ := decided
        rw [reached] at accepted
        simp [Except.toOption, refused] at accepted
      · rw [decided] at accepted
        simp [Except.toOption] at accepted
  · intro all
    obtain ⟨later, -, equal⟩ := verdictFrom_append settled 0 all []
    rw [List.append_nil] at equal
    rw [equal]
    rfl

/-- Where a commit is accepted without a look at its changes, it has none. -/
theorem changes_of_isUnchanged
    (unchanged : isUnchanged (before.node? settings.privilegesPath)
      (after.node? settings.privilegesPath) = true)
    (numbers : (before.privileges settings).WithoutNan) : changes settings before after = [] := by
  refine Node.changes_eq_nil (same_of_isUnchanged unchanged) fun name value found => ?_
  rw [property?_stateOf] at found
  exact numbers name value found

/-- A commit whose changes all pass is accepted with all of them counted. -/
theorem result_of_passes
    (changed : isUnchanged (before.node? settings.privilegesPath)
      (after.node? settings.privilegesPath) = false)
    (all : ∀ e ∈ changes settings before after, Passes settings before after e) :
    (verdict before after settings).result =
      .ok ⟨none, (changes settings before after).length⟩ := by
  have settled : (reviewing settings before after none).Settled :=
    Review.settled_anew (review settings before after)
  obtain ⟨later, -, equal⟩ := verdictFrom_append settled 0 all []
  rw [List.append_nil, Nat.zero_add] at equal
  rw [verdict, changed]
  simp only [Bool.false_eq_true, ↓reduceIte]
  exact equal

theorem accepts_of_passes
    (all : ∀ e ∈ changes settings before after, Passes settings before after e) :
    Accepts settings before after := by
  cases changed : isUnchanged (before.node? settings.privilegesPath)
      (after.node? settings.privilegesPath) with
  | true =>
    rw [Accepts, verdict, changed]
    rfl
  | false =>
    rw [Accepts, result_of_passes changed all]
    rfl

/-- The verdict is reached by judging the changes apart, up to the first that does not pass. -/
theorem verdict_of_changes (numbers : (before.privileges settings).WithoutNan) :
    ((∀ e ∈ changes settings before after, Passes settings before after e) →
        (verdict before after settings).result =
          .ok ⟨none, (changes settings before after).length⟩) ∧
      (∀ passed e rest, changes settings before after = passed ++ e :: rest →
        (∀ x ∈ passed, Passes settings before after x) → ¬ Passes settings before after e →
          Decides settings before after e passed.length (verdict before after settings).result) ∧
      (isUnchanged (before.node? settings.privilegesPath) (after.node? settings.privilegesPath) =
        true → changes settings before after = []) := by
  have none : isUnchanged (before.node? settings.privilegesPath)
      (after.node? settings.privilegesPath) = true → changes settings before after = [] :=
    fun unchanged => changes_of_isUnchanged unchanged numbers
  have settled : (reviewing settings before after .none).Settled :=
    Review.settled_anew (review settings before after)
  refine ⟨fun all => ?_, fun passed e rest split all stops => ?_, none⟩
  · cases changed : isUnchanged (before.node? settings.privilegesPath)
        (after.node? settings.privilegesPath) with
    | true =>
      rw [verdict, changed, none changed]
      rfl
    | false => exact result_of_passes changed all
  · rw [verdict]
    split
    next unchanged =>
      rw [none unchanged] at split
      simp at split
    next =>
      obtain ⟨later, settled', equal⟩ := verdictFrom_append settled 0 all (e :: rest)
      rw [← split, Nat.zero_add] at equal
      have decided := verdictFrom_of_not_passes settled' passed.length rest stops
      rwa [← equal] at decided

theorem withoutNan_holding {next : Bits} {children : Entries Node} :
    (holding next children).privileges.WithoutNan := by
  intro name value found
  rw [property?_holding] at found
  have member := Entries.mem_of_find? found
  simp only [List.mem_cons, Prod.mk.injEq, List.not_mem_nil, or_false] at member
  rcases member with ⟨-, rfl⟩ | ⟨-, rfl⟩ <;> rfl

/-- Of two privileges that a commit adds the first passes, and the second one, by using the bits of
a registered one, decides the verdict as the third change. -/
theorem verdict_of_third_change :
    let before := holding ⟨2⟩ [("read", atom ⟨1⟩)]
    let after := holding ⟨4⟩ [("read", atom ⟨1⟩), ("write", atom ⟨2⟩), ("xread", atom ⟨1⟩)]
    ∃ v, (verdict before after).result = .ok v ∧ v.isAccepted = false ∧ v.code? = some 49 ∧
      v.eventsChecked = 3 := by
  intro before after
  have split : changes {} before after =
      [.propertyChanged ⟨Schema.next, Bits.stored ⟨2⟩⟩ ⟨Schema.next, Bits.stored ⟨4⟩⟩,
        .childAdded "write" (atom ⟨2⟩)] ++ .childAdded "xread" (atom ⟨1⟩) :: [] := by
    rfl
  have apart : (verdictOn before after {} (.childAdded "xread" (atom ⟨1⟩))).result.toOption =
      some ⟨some .bitsInUse, 1⟩ := by decide +kernel
  have decided := (verdict_of_changes withoutNan_holding).2.1 _ _ _ split (by decide +kernel)
    (by decide +kernel)
  rw [Decides] at decided
  cases judged : (verdictOn before after {} (.childAdded "xread" (atom ⟨1⟩))).result with
  | error fault =>
    rw [judged] at apart
    cases apart
  | ok v =>
    rw [judged] at apart decided
    cases apart
    exact decided

end Commit

end PrivilegeStore
