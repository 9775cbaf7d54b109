import PrivilegeStore.Proofs.Aggregation.Coincidence
import PrivilegeStore.Proofs.Bits.Positions

/-!
# Admissions that agree

Two admissions may have been opened on definitions that are stored in different order, may have kept
different closures and have read the bits table or not. Asked the same, they accept alike and refuse
for the same breach. What they may differ in is the name by which an unknown member is reported,
since that is the first one met and the order in which names are met depends on the closures that
are kept.
-/
namespace PrivilegeStore

namespace Failure

/-- The rule that was broken, whatever it was broken by, or the fault. -/
def cause : Failure → Rule ⊕ Fault
  | .breach b => .inl b.rule
  | .fault f => .inr f

/-- A failure, without the name by which an unknown member is reported. -/
def account : Failure → Failure
  | .breach b => .breach b.account
  | .fault f => .fault f

@[simp] theorem cause_account (failure : Failure) : failure.account.cause = failure.cause := by
  cases failure <;> simp [account, cause]

end Failure

namespace Ruling

/-- What a ruling comes to: acceptance, or the cause of a failure. -/
def gist (r : Ruling) : Except (Rule ⊕ Fault) Unit := r.outcome.mapError Failure.cause

/-- The outcome of a ruling, without the name by which an unknown member is reported. -/
def account (r : Ruling) : Except Failure Unit := r.outcome.mapError Failure.account

theorem gist_of_ok {r : Ruling} (accepted : r.outcome = .ok ()) : r.gist = .ok () := by
  rw [gist, accepted]
  rfl

theorem gist_of_error {r : Ruling} {failure : Failure} (failed : r.outcome = .error failure) :
    r.gist = .error failure.cause := by
  rw [gist, failed]
  rfl

theorem account_of_ok {r : Ruling} (accepted : r.outcome = .ok ()) : r.account = .ok () := by
  rw [account, accepted]
  rfl

theorem account_of_error {r : Ruling} {failure : Failure} (failed : r.outcome = .error failure) :
    r.account = .error failure.account := by
  rw [account, failed]
  rfl

/-- The account of a ruling says what it comes to. -/
theorem gist_eq_account (r : Ruling) : r.gist = r.account.mapError Failure.cause := by
  cases outcome : r.outcome with
  | ok accepted =>
    rw [gist_of_ok outcome, account_of_ok outcome]
    rfl
  | error failure =>
    rw [gist_of_error outcome, account_of_error outcome, Except.mapError, Failure.cause_account]

@[simp] theorem account_refuse (b : Breach) :
    (refuse b).account = .error (.breach b.account) := rfl

@[simp] theorem gist_after (r : Ruling) (notices : List Notice) :
    (r.after notices).gist = r.gist := rfl

@[simp] theorem account_after (r : Ruling) (notices : List Notice) :
    (r.after notices).account = r.account := rfl

@[simp] theorem account_onAccept (r : Ruling) (notice : Notice) :
    (r.onAccept notice).account = r.account := by
  rw [account, outcome_onAccept, account]

theorem gist_eq_ok {r : Ruling} : r.gist = .ok () ↔ r.outcome = .ok () := by
  cases outcome : r.outcome with
  | ok accepted => simp [gist_of_ok outcome]
  | error failure => simp [gist_of_error outcome]

theorem gist_eq_breach {r : Ruling} {rule : Rule} :
    r.gist = .error (.inl rule) ↔ ∃ b, r.outcome = .error (.breach b) ∧ b.rule = rule := by
  cases outcome : r.outcome with
  | ok accepted => simp [gist_of_ok outcome]
  | error failure => cases failure <;> simp [gist_of_error outcome, Failure.cause]

theorem gist_eq_fault {r : Ruling} {fault : Fault} :
    r.gist = .error (.inr fault) ↔ r.outcome = .error (.fault fault) := by
  cases outcome : r.outcome with
  | ok accepted => simp [gist_of_ok outcome]
  | error failure => cases failure <;> simp [gist_of_error outcome, Failure.cause]

end Ruling

namespace NameSet

variable {names others inOrder : NameSet}

/-- Sets that come to the same when they are sorted hold the same names. -/
theorem mem_iff_of_sorted_eq (same : sorted names = sorted others)
    (ordered : sorted names = .ok inOrder) (a : Scalar) : a ∈ names ↔ a ∈ others := by
  rw [← mem_sorted ordered, mem_sorted (same.symm.trans ordered)]

theorem length_of_sorted (ordered : sorted names = .ok inOrder) :
    inOrder.length = names.length := by
  rw [sorted.eq_def] at ordered
  split at ordered
  · cases ordered
    rfl
  · cases ordered
    rfl
  · split at ordered
    · cases ordered
      rw [sortBy_eq_insertionSort]
      exact List.length_insertionSort _ _
    · contradiction

theorem sorted_eq_nil (same : sorted others = sorted []) : others = [] :=
  List.length_eq_zero_iff.1 (length_of_sorted same).symm

theorem sorted_eq_singleton {a : Scalar} (same : sorted others = sorted [a]) : others = [a] := by
  obtain ⟨b, rfl⟩ := List.length_eq_one_iff.1 (length_of_sorted same).symm
  exact Except.ok.inj same

end NameSet

namespace BitsTable

/-- Names have the same union of bits wherever each of them is found with the same bits. -/
theorem unionOf_eq {entries entries' : Entries Bits} {names others : NameSet}
    (found : ∀ name, find? entries name = find? entries' name)
    (same : ∀ a, a ∈ names ↔ a ∈ others) : unionOf entries names = unionOf entries' others := by
  have lookup : find? entries = find? entries' := funext found
  rw [unionOf, lookup, ← unionOf, unionOf_congr same]

end BitsTable

namespace Aggregation.Admission

variable {a b : Admission} {definition other : Definition} {bits : Bits} {name : String}
  {members others : NameSet}

/-- Two admissions were opened from definitions, bits and a counter that are read alike. -/
structure OpenedAlike (a b : Admission) : Prop where
  registry : Coincide a.registry b.registry
  existing : List.Forall₂ Definition.Alike a.existing b.existing
  fault : a.index.store.bitsTable.fault = b.index.store.bitsTable.fault
  found : ∀ name, BitsTable.find? a.index.store.bitsTable.entries name =
    BitsTable.find? b.index.store.bitsTable.entries name
  owned : ∀ bits, BitsTable.ownersOf a.index.store.bitsTable.entries bits = [] ↔
    BitsTable.ownersOf b.index.store.bitsTable.entries bits = []
  counter : a.storeAfter.nextBits = b.storeAfter.nextBits

theorem OpenedAlike.of_eq (registry : a.registry = b.registry)
    (table : a.index.store.bitsTable = b.index.store.bitsTable)
    (counter : a.storeAfter.nextBits = b.storeAfter.nextBits) : a.OpenedAlike b where
  registry := by
    rw [registry]
    exact .refl _
  existing := by
    rw [Admission.existing, Admission.existing, registry]
    exact List.forall₂_same.2 fun d _ => .refl d
  fault := by rw [table]
  found _ := by rw [table]
  owned _ := by rw [table]
  counter := counter

theorem judgeAtomic_agree (counter : a.storeAfter.nextBits = b.storeAfter.nextBits)
    {owners owners' : List String} (owned : owners = [] ↔ owners' = []) (name : String)
    (bits : Bits) :
    (a.judgeAtomic name owners bits).account = (b.judgeAtomic name owners' bits).account := by
  have empty : owners.isEmpty = owners'.isEmpty := by
    rw [Bool.eq_iff_iff, List.isEmpty_iff, List.isEmpty_iff, owned]
  rw [judgeAtomic, judgeAtomic, Counter.check, Counter.check, counter, empty]
  split <;> simp

theorem judgeAggregate_agree (faithfulA : a.Faithful) (faithfulB : b.Faithful)
    (alike : a.OpenedAlike b) (clean : b.index.store.bitsTable.fault = none) (name : String)
    (ordered : NameSet.sorted members = NameSet.sorted others) (bits : Bits) :
    (a.judgeAggregate name members bits).1.account =
      (b.judgeAggregate name others bits).1.account := by
  have cleanA : a.index.store.bitsTable.fault = none := by rw [alike.fault, clean]
  have coincide : Coincide a.resolver.registry b.resolver.registry := by
    rw [faithfulA.resolver, faithfulB.resolver]
    exact alike.registry
  rw [judgeAggregate, judgeAggregate, ordered]
  cases inOrder : NameSet.sorted others with
  | error fault => rfl
  | ok sorted =>
    have held := NameSet.mem_iff_of_sorted_eq ordered (ordered.trans inOrder)
    have same := NameSet.sameAs_of_mem held
    simp only
    rw [alike.registry.memberBreach?_eq]
    split
    · rfl
    · have answers := resolve_alike faithfulA.sound faithfulB.sound coincide same
      obtain ⟨-, keptA, soundA⟩ := Resolver.resolve_spec faithfulA.sound members
      obtain ⟨-, keptB, soundB⟩ := Resolver.resolve_spec faithfulB.sound others
      generalize a.resolver.resolve members = left at *
      generalize b.resolver.resolve others = right at *
      obtain ⟨resultA, laterA⟩ := left
      obtain ⟨resultB, laterB⟩ := right
      simp only at answers keptA keptB soundA soundB ⊢
      cases resultA with
      | error breach =>
        cases resultB with
        | error other =>
          simp only [Ruling.account_refuse]
          rw [show breach.account = other.account from answers]
        | ok found => exact answers.elim
      | ok leaves =>
        cases resultB with
        | error other => exact answers.elim
        | ok leaves' =>
          simp only [BitsIndex.bitsOf_of_no_fault _ cleanA, BitsIndex.bitsOf_of_no_fault _ clean]
          rw [BitsTable.unionOf_eq alike.found held]
          split
          · have compared := checkEquivalents_agree soundA soundB (by rwa [keptA, keptB]) name same
              answers alike.existing
            generalize checkEquivalents laterA name members leaves a.existing = left at *
            generalize checkEquivalents laterB name others leaves' b.existing = right at *
            obtain ⟨resultA, finalA⟩ := left
            obtain ⟨resultB, finalB⟩ := right
            cases resultA with
            | ok passed =>
              cases resultB with
              | ok passed' => rfl
              | error other => cases compared
            | error breach =>
              cases resultB with
              | ok passed => cases compared
              | error other =>
                have account : breach.account = other.account := by injection compared
                simp [account]
          · rfl

/-- Admissions opened alike that keep nothing wrong give the same account of a definition, in
whatever order its members are listed. -/
theorem judge_account (faithfulA : a.Faithful) (faithfulB : b.Faithful) (alike : a.OpenedAlike b)
    (name : definition.name = other.name)
    (ordered : NameSet.sorted definition.members = NameSet.sorted other.members) (bits : Bits) :
    (a.judge definition bits).1.account = (b.judge other bits).1.account := by
  rw [judge, judge]
  cases empty : bits.isEmpty with
  | true => rfl
  | false =>
    simp only [Bool.false_eq_true, ↓reduceIte]
    cases broken : b.index.store.bitsTable.fault with
    | some fault =>
      have brokenA : a.index.store.bitsTable.fault = some fault := by rw [alike.fault, broken]
      rw [BitsIndex.namesOf_of_fault empty faithfulA.index brokenA,
        BitsIndex.namesOf_of_fault empty faithfulB.index broken]
    | none =>
      have clean : a.index.store.bitsTable.fault = none := by rw [alike.fault, broken]
      rw [BitsIndex.namesOf_of_no_fault empty clean, BitsIndex.namesOf_of_no_fault empty broken,
        name]
      -- from here on both tables have been read
      have askedA := faithfulA.consulted clean
      have askedB := faithfulB.consulted broken
      have still : OpenedAlike { a with index := { a.index with consulted := true } }
          { b with index := { b.index with consulted := true } } :=
        ⟨alike.registry, alike.existing, alike.fault, alike.found, alike.owned, alike.counter⟩
      simp only
      cases first : definition.members with
      | nil =>
        rw [first] at ordered
        rw [NameSet.sorted_eq_nil ordered.symm]
        exact judgeAtomic_agree alike.counter (alike.owned bits) _ _
      | cons m rest =>
        rw [first] at ordered
        cases rest with
        | nil => rw [NameSet.sorted_eq_singleton ordered.symm]
        | cons n rest =>
          cases second : other.members with
          | nil =>
            rw [second] at ordered
            cases NameSet.sorted_eq_nil ordered
          | cons m' rest' =>
            rw [second] at ordered
            cases rest' with
            | nil => cases NameSet.sorted_eq_singleton ordered
            | cons n' rest' => exact judgeAggregate_agree askedA askedB still broken _ ordered _

end Aggregation.Admission

end PrivilegeStore
