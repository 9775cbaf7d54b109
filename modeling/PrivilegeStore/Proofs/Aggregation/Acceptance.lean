import PrivilegeStore.Aggregation.Admission
import PrivilegeStore.Proofs.Aggregation.Extension
import PrivilegeStore.Proofs.Definition.Consulting
import PrivilegeStore.Proofs.Sorting.Uniqueness

/-!
# When a definition is admitted

`Admissible` says what a new definition must satisfy, in terms of what was registered before and of
the counter, without an order of rules and without anything kept. `judge_accepts_iff` shows that an
admission accepts exactly such definitions, also one that has judged others before. So an admission
that accepts a definition agrees with one that has not been asked anything.
-/
namespace PrivilegeStore

namespace NameSet

theorem mem_sorted {names inOrder : NameSet} (h : sorted names = .ok inOrder) {name : Scalar} :
    name ∈ inOrder ↔ name ∈ names := by
  rw [sorted.eq_def] at h
  split at h
  · cases h
    rfl
  · cases h
    rfl
  · split at h
    · cases h
      exact mem_sortBy
    · contradiction

end NameSet

namespace Aggregation

/-- An aggregate differs in effect from one that is registered. -/
structure Distinguished (registry : Registry) (members : NameSet) (existing : Definition) :
    Prop where
  declared : NameSet.sameAs members existing.members = false
  resolvable : ∀ m ∈ existing.members, Resolvable registry m
  leaves : ¬ ∀ leaf, (∃ m ∈ members, LeafOf registry m leaf) ↔
    ∃ m ∈ existing.members, LeafOf registry m leaf

/-- What an aggregate must satisfy besides having members enough. -/
structure AggregateTerms (registry : Registry) (entries : Entries Bits) (definition : Definition)
    (bits : Bits) : Prop where
  ordered : ∃ inOrder, NameSet.sorted definition.members = .ok inOrder
  registered : ∀ m ∈ definition.members, registry.Registered m
  acyclic : ∀ m ∈ definition.members, ¬ Reaches registry.membersOf m (.text definition.name)
  resolvable : ∀ m ∈ definition.members, Resolvable registry m
  union : bits = BitsTable.unionOf entries definition.members
  distinguished : ∀ existing ∈ registry.map Prod.snd, existing.isAggregate = true →
    Distinguished registry definition.members existing

/-- What an atomic definition must satisfy. -/
structure AtomicTerms (entries : Entries Bits) (storeAfter : View) (bits : Bits) : Prop where
  unused : BitsTable.ownersOf entries bits = []
  counted : storeAfter.nextBits = .ok bits.next

/-- What a new definition must satisfy. -/
def Admissible (registry : Registry) (entries : Entries Bits) (storeAfter : View)
    (definition : Definition) (bits : Bits) : Prop :=
  bits.isEmpty = false ∧
    ((definition.members = [] ∧ AtomicTerms entries storeAfter bits) ∨
      (2 ≤ definition.members.length ∧ AggregateTerms registry entries definition bits))

variable {registry : Registry} {name : String}

theorem memberBreach?_eq_none {members : List Scalar} :
    memberBreach? registry name members = none ↔
      ∀ m ∈ members, ¬ Reaches registry.membersOf m (.text name) ∧ registry.Registered m := by
  induction members with
  | nil => simp [memberBreach?]
  | cons m rest ih =>
    rw [memberBreach?]
    by_cases circular : isCircular registry (.text name) m = true
    · have reached := isCircular_iff.1 circular
      simp [circular, reached]
    · have unreached : ¬ Reaches registry.membersOf m (.text name) :=
        fun reached => circular (isCircular_iff.2 reached)
      cases found : registry.find? m <;> simp [circular, unreached, found, Registry.Registered, ih]

theorem rule_of_memberBreach? {members : List Scalar} {breach : Breach}
    (h : memberBreach? registry name members = some breach) :
    breach.rule = .circularAggregation ∨ breach.rule = .unregisteredAggregate := by
  induction members with
  | nil => simp [memberBreach?] at h
  | cons m rest ih =>
    rw [memberBreach?] at h
    split at h
    · cases h
      exact .inl rfl
    · split at h
      · cases h
        exact .inr rfl
      · exact ih h

/-- Every declared member is registered. -/
def Closed (registry : Registry) : Prop :=
  ∀ entry ∈ registry, ∀ m ∈ entry.2.members, registry.Registered m

instance (registry : Registry) : Decidable (Closed registry) :=
  inferInstanceAs (Decidable (∀ entry ∈ registry, ∀ m ∈ entry.2.members, registry.Registered m))

theorem Closed.linked (closed : Closed registry) : Linked registry := by
  intro a m member
  cases a with
  | text name =>
    obtain ⟨d, found⟩ := Option.isSome_iff_exists.1 (registered_of_mem member)
    rw [Registry.membersOf_of_find? found] at member
    exact closed (name, d) (Entries.mem_of_find? found) m member
  | _ => exact absurd member List.not_mem_nil

/-- In a linked graph registered names can be resolved. -/
theorem Linked.resolve_ok (linked : Linked registry) {names : List Scalar}
    (known : ∀ n ∈ names, registry.Registered n) :
    ∃ leaves, resolve registry names = .ok leaves ∧
      ∀ leaf, leaf ∈ leaves ↔ ∃ n ∈ names, LeafOf registry n leaf := by
  obtain ⟨leaves, resolved⟩ := Aggregation.resolve_ok (Resolver.sound_empty registry) names
    fun n member => linked.resolvable (known n member)
  have answers := resolve_answers registry names
  rw [resolve, resolved] at answers
  exact ⟨leaves, resolved, answers.2⟩

/-- The comparison with registered aggregates keeps a resolver sound, whatever it finds. -/
theorem checkEquivalents_keeps {r : Resolver} (sound : r.Sound) (name : String) (members : NameSet)
    (leaves : List String) (existing : List Definition) :
    (checkEquivalents r name members leaves existing).2.registry = r.registry ∧
      (checkEquivalents r name members leaves existing).2.Sound := by
  induction existing generalizing r with
  | nil => exact ⟨rfl, sound⟩
  | cons d rest ih =>
    rw [checkEquivalents]
    split
    · exact ih sound
    · split
      · exact ⟨rfl, sound⟩
      · obtain ⟨-, kept, sound'⟩ := Resolver.resolve_spec sound d.members
        generalize r.resolve d.members = outcome at *
        obtain ⟨result, later⟩ := outcome
        cases result with
        | error breach => exact ⟨kept, sound'⟩
        | ok others =>
          simp only
          split
          · exact ⟨kept, sound'⟩
          · obtain ⟨kept', sound''⟩ := ih sound'
            exact ⟨kept'.trans kept, sound''⟩

/-- The comparison with registered aggregates finds none that is equivalent, or fails. -/
theorem checkEquivalents_ok_iff {r : Resolver} (sound : r.Sound) (name : String)
    {members : NameSet} {leaves : List String}
    (right : ∀ leaf, leaf ∈ leaves ↔ ∃ m ∈ members, LeafOf r.registry m leaf)
    (existing : List Definition) :
    (checkEquivalents r name members leaves existing).1 = .ok () ↔
      ∀ d ∈ existing, d.isAggregate = true → Distinguished r.registry members d := by
  induction existing generalizing r with
  | nil => simp [checkEquivalents]
  | cons d rest ih =>
    rw [checkEquivalents]
    cases aggregate : d.isAggregate with
    | false => simpa [aggregate] using ih sound right
    | true =>
      cases same : NameSet.sameAs members d.members with
      | true =>
        simp only [Bool.not_true, Bool.false_eq_true, ↓reduceIte, reduceCtorEq, false_iff]
        intro all
        have differ := (all d List.mem_cons_self aggregate).declared
        rw [same] at differ
        contradiction
      | false =>
        obtain ⟨answer, kept, sound'⟩ := Resolver.resolve_spec sound d.members
        simp only [Bool.not_true, Bool.false_eq_true, ↓reduceIte]
        generalize r.resolve d.members = outcome at *
        obtain ⟨result, later⟩ := outcome
        simp only at answer kept sound' ⊢
        cases result with
        | error breach =>
          simp only [reduceCtorEq, false_iff]
          intro all
          obtain ⟨m, member, unknown, -, reached, missing⟩ := answer
          exact missing ((all d List.mem_cons_self aggregate).resolvable m member unknown reached)
        | ok others =>
          simp only
          have leavesIff : sameNames leaves others = true ↔
              ∀ leaf, (∃ m ∈ members, LeafOf r.registry m leaf) ↔
                ∃ m ∈ d.members, LeafOf r.registry m leaf := by
            rw [sameNames_iff]
            exact forall_congr' fun leaf => by rw [right leaf, answer.2 leaf]
          by_cases equal : sameNames leaves others = true
          · rw [if_pos equal]
            simp only [reduceCtorEq, false_iff]
            intro all
            exact (all d List.mem_cons_self aggregate).leaves (leavesIff.1 equal)
          · rw [if_neg equal, ih sound' (by rwa [kept]), kept]
            have first : Distinguished r.registry members d :=
              ⟨same, answer.1, fun h => equal (leavesIff.2 h)⟩
            constructor
            · intro later x member
              rcases List.mem_cons.1 member with rfl | member
              · exact fun _ => first
              · exact later x member
            · intro all x member
              exact all x (List.mem_cons_of_mem _ member)

/-- Where all members are registered the comparison breaks no rule but the one on equivalents. -/
theorem rule_of_checkEquivalents {r : Resolver} (sound : r.Sound) {members : NameSet}
    {leaves : List String} {existing : List Definition}
    (resolvable : ∀ d ∈ existing, ∀ m ∈ d.members, Resolvable r.registry m) {breach : Breach}
    (h : (checkEquivalents r name members leaves existing).1 = .error breach) :
    breach.rule = .duplicateAggregation := by
  induction existing generalizing r with
  | nil => simp [checkEquivalents] at h
  | cons d rest ih =>
    have later : ∀ x ∈ rest, ∀ m ∈ x.members, Resolvable r.registry m :=
      fun x member => resolvable x (List.mem_cons_of_mem _ member)
    rw [checkEquivalents] at h
    split at h
    · exact ih sound later h
    · split at h
      · cases h
        rfl
      · obtain ⟨leaves', resolved⟩ := resolve_ok sound d.members (resolvable d List.mem_cons_self)
        obtain ⟨-, kept, sound'⟩ := Resolver.resolve_spec sound d.members
        generalize r.resolve d.members = outcome at *
        obtain ⟨result, resolver⟩ := outcome
        simp only at resolved kept sound'
        subst resolved
        simp only at h
        split at h
        · cases h
          rfl
        · exact ih sound' (by rwa [kept]) h

namespace Admission

/-- What an admission keeps is right. -/
structure Faithful (a : Admission) : Prop where
  resolver : a.resolver.registry = a.registry
  sound : a.resolver.Sound
  index : a.index.Trusted

theorem faithful_start (registry : Registry) (storeBefore storeAfter : View) :
    (start registry storeBefore storeAfter).Faithful where
  resolver := rfl
  sound := Resolver.sound_empty registry
  index := by
    intro asked
    simp [start] at asked

variable {a : Admission} {definition : Definition} {bits : Bits}

/-- Asking for bits keeps an admission faithful where they can be read. -/
theorem Faithful.consulted (faithful : a.Faithful) (clean : a.index.store.bitsTable.fault = none) :
    Faithful { a with index := { a.index with consulted := true } } :=
  ⟨faithful.resolver, faithful.sound, fun _ => clean⟩

theorem mem_existing {d : Definition} : d ∈ a.existing ↔ d ∈ a.registry.map Prod.snd := mem_sortBy

theorem judgeAtomic_accepts_iff {owners : List String} :
    (a.judgeAtomic name owners bits).outcome = .ok () ↔
      owners = [] ∧ a.storeAfter.nextBits = .ok bits.next := by
  rw [judgeAtomic]
  cases owners with
  | nil => simp [Counter.check_accepts_iff]
  | cons owner rest => simp [Ruling.refuse]

/-- Judging an aggregate keeps an admission faithful, whatever the ruling. -/
theorem faithful_judgeAggregate (faithful : a.Faithful)
    (clean : a.index.store.bitsTable.fault = none) (name : String) (members : NameSet)
    (bits : Bits) : (a.judgeAggregate name members bits).2.Faithful := by
  rw [judgeAggregate]
  split
  · exact faithful
  · split
    · exact faithful
    · obtain ⟨-, kept, sound⟩ := Resolver.resolve_spec faithful.sound members
      rw [faithful.resolver] at kept
      generalize a.resolver.resolve members = outcome at *
      obtain ⟨result, resolver⟩ := outcome
      cases result with
      | error breach => exact ⟨kept, sound, faithful.index⟩
      | ok leaves =>
        rw [BitsIndex.bitsOf_of_no_fault _ clean]
        simp only
        split
        · obtain ⟨kept', sound'⟩ := checkEquivalents_keeps sound name members leaves a.existing
          generalize checkEquivalents resolver name members leaves a.existing = outcome at *
          obtain ⟨result, resolver'⟩ := outcome
          cases result <;> exact ⟨kept'.trans kept, sound', fun _ => clean⟩
        · exact ⟨kept, sound, fun _ => clean⟩

/-- An aggregate is accepted on its terms. -/
theorem judgeAggregate_accepts_iff (definition : Definition) (bits : Bits) (faithful : a.Faithful)
    (clean : a.index.store.bitsTable.fault = none) :
    (a.judgeAggregate definition.name definition.members bits).1.outcome = .ok () ↔
      AggregateTerms a.registry a.index.store.bitsTable.entries definition bits := by
  rw [judgeAggregate]
  cases ordered : NameSet.sorted definition.members with
  | error fault =>
    simp only [Ruling.fail, reduceCtorEq, false_iff]
    intro terms
    obtain ⟨inOrder, sorted⟩ := terms.ordered
    rw [ordered] at sorted
    contradiction
  | ok inOrder =>
    simp only
    cases broken : memberBreach? a.registry definition.name inOrder with
    | some breach =>
      simp only [Ruling.refuse, reduceCtorEq, false_iff]
      intro terms
      have none : memberBreach? a.registry definition.name inOrder = none := by
        refine memberBreach?_eq_none.2 fun m member => ?_
        rw [NameSet.mem_sorted ordered] at member
        exact ⟨terms.acyclic m member, terms.registered m member⟩
      rw [none] at broken
      contradiction
    | none =>
      have members := memberBreach?_eq_none.1 broken
      obtain ⟨answer, kept, sound⟩ := Resolver.resolve_spec faithful.sound definition.members
      simp only
      generalize a.resolver.resolve definition.members = outcome at *
      obtain ⟨result, resolver⟩ := outcome
      simp only at answer kept sound ⊢
      rw [faithful.resolver] at answer kept
      cases result with
      | error breach =>
        simp only [Ruling.refuse, reduceCtorEq, false_iff]
        intro terms
        obtain ⟨m, member, unknown, -, reached, missing⟩ := answer
        exact missing (terms.resolvable m member unknown reached)
      | ok leaves =>
        rw [BitsIndex.bitsOf_of_no_fault _ clean]
        simp only
        by_cases union : bits = BitsTable.unionOf a.index.store.bitsTable.entries definition.members
        · rw [if_pos union]
          have right : ∀ leaf, leaf ∈ leaves ↔
              ∃ m ∈ definition.members, LeafOf resolver.registry m leaf := by
            rw [kept]
            exact answer.2
          have accepts := checkEquivalents_ok_iff sound definition.name right a.existing
          rw [kept] at accepts
          generalize checkEquivalents resolver definition.name definition.members leaves
            a.existing = outcome at *
          obtain ⟨result, resolver'⟩ := outcome
          simp only at accepts ⊢
          cases result with
          | error breach =>
            simp only [Ruling.refuse, reduceCtorEq, false_iff] at accepts ⊢
            intro terms
            exact accepts fun d member => terms.distinguished d (mem_existing.1 member)
          | ok accepted =>
            simp only [Ruling.outcome_onAccept, Ruling.accept, true_iff] at accepts ⊢
            refine ⟨⟨inOrder, ordered⟩, ?_, ?_, answer.1, union, ?_⟩
            · intro m member
              exact (members m ((NameSet.mem_sorted ordered).2 member)).2
            · intro m member
              exact (members m ((NameSet.mem_sorted ordered).2 member)).1
            · intro d member
              exact accepts d (mem_existing.2 member)
        · rw [if_neg union]
          simp only [Ruling.refuse, reduceCtorEq, false_iff]
          exact fun terms => union terms.union

/-- An admission accepts exactly the admissible definitions, if the bits before can be read. -/
theorem judge_accepts_iff (faithful : a.Faithful) :
    (a.judge definition bits).1.outcome = .ok () ↔
      bits.isEmpty = false ∧ a.index.store.bitsTable.fault = none ∧
        Admissible a.registry a.index.store.bitsTable.entries a.storeAfter definition bits := by
  rw [judge]
  cases empty : bits.isEmpty with
  | true => simp [Ruling.refuse]
  | false =>
    simp only [Bool.false_eq_true, ↓reduceIte, true_and]
    cases clean : a.index.store.bitsTable.fault with
    | some fault =>
      rw [BitsIndex.namesOf_of_fault empty faithful.index clean]
      simp [Ruling.fail]
    | none =>
      rw [BitsIndex.namesOf_of_no_fault empty clean]
      have asked := faithful.consulted clean
      simp only [true_and, Admissible, empty]
      cases members : definition.members with
      | nil =>
        rw [judgeAtomic_accepts_iff]
        constructor
        · rintro ⟨unused, counted⟩
          exact .inl ⟨rfl, unused, counted⟩
        · rintro (⟨-, unused, counted⟩ | ⟨enough, -⟩)
          · exact ⟨unused, counted⟩
          · simp at enough
      | cons first rest =>
        cases rest with
        | nil => simp [Ruling.refuse]
        | cons second rest =>
          have accepts := judgeAggregate_accepts_iff definition bits asked clean
          rw [members] at accepts
          simpa using accepts

/-- Judging keeps an admission faithful if it accepts, and whatever the ruling if the bits before
can be read. -/
theorem faithful_judge (faithful : a.Faithful)
    (sound : (a.judge definition bits).1.outcome = .ok () ∨
      a.index.store.bitsTable.fault = none) : (a.judge definition bits).2.Faithful := by
  have clean : a.index.store.bitsTable.fault = none := by
    rcases sound with accepted | clean
    · exact ((judge_accepts_iff faithful).1 accepted).2.1
    · exact clean
  rw [judge]
  cases empty : bits.isEmpty with
  | true => exact faithful
  | false =>
    have asked := faithful.consulted clean
    rw [BitsIndex.namesOf_of_no_fault empty clean]
    simp only [Bool.false_eq_true, ↓reduceIte]
    split
    · exact asked
    · exact asked
    · exact faithful_judgeAggregate asked clean _ _ _

/-- Judging changes nothing that the admission was opened with. -/
theorem judgeAggregate_frame (a : Admission) (name : String) (members : NameSet) (bits : Bits) :
    (a.judgeAggregate name members bits).2.registry = a.registry ∧
      (a.judgeAggregate name members bits).2.storeAfter = a.storeAfter ∧
      (a.judgeAggregate name members bits).2.index.store = a.index.store := by
  have store := BitsIndex.store_bitsOf (p := a.index) members
  rw [judgeAggregate]
  split
  · exact ⟨rfl, rfl, rfl⟩
  · split
    · exact ⟨rfl, rfl, rfl⟩
    · split
      · exact ⟨rfl, rfl, rfl⟩
      · generalize a.index.bitsOf members = outcome at *
        obtain ⟨result, index⟩ := outcome
        cases result with
        | error fault => exact ⟨rfl, rfl, store⟩
        | ok union =>
          simp only
          split
          · split <;> exact ⟨rfl, rfl, store⟩
          · exact ⟨rfl, rfl, store⟩

theorem judge_frame (a : Admission) (definition : Definition) (bits : Bits) :
    (a.judge definition bits).2.registry = a.registry ∧
    (a.judge definition bits).2.storeAfter = a.storeAfter ∧
    (a.judge definition bits).2.index.store = a.index.store := by
  have store := BitsIndex.store_namesOf (p := a.index) bits
  rw [judge]
  split
  · exact ⟨rfl, rfl, rfl⟩
  · generalize a.index.namesOf bits = outcome at *
    obtain ⟨result, index⟩ := outcome
    cases result with
    | error fault => exact ⟨rfl, rfl, store⟩
    | ok owners =>
      simp only
      split
      · exact ⟨rfl, rfl, store⟩
      · exact ⟨rfl, rfl, store⟩
      · have frame := judgeAggregate_frame { a with index } definition.name definition.members bits
        exact ⟨frame.1, frame.2.1, frame.2.2.trans store⟩

theorem rule_of_judgeAtomic {owners : List String} {breach : Breach}
    (h : (a.judgeAtomic name owners bits).outcome = .error (.breach breach)) :
    breach.rule = .bitsInUse ∨ breach.rule = .nextBitsNotUpdated := by
  rw [judgeAtomic] at h
  split at h
  · rw [Ruling.outcome_onAccept, Counter.check] at h
    split at h
    · cases h
    · split at h
      · cases h
      · cases h
        exact .inr rfl
  · cases h
    exact .inl rfl

theorem rule_of_judgeAggregate (same : a.resolver.registry = a.registry)
    (sound : a.resolver.Sound) (closed : Closed a.registry) {members : NameSet} {breach : Breach}
    (h : (a.judgeAggregate name members bits).1.outcome = .error (.breach breach)) :
    breach.rule ≠ .unknownDeclaredAggregate := by
  rw [judgeAggregate] at h
  split at h
  · cases h
  next inOrder ordered =>
    split at h
    next broken =>
      cases h
      rcases rule_of_memberBreach? broken with rule | rule <;> rw [rule] <;> decide
    next unbroken =>
      have known := memberBreach?_eq_none.1 unbroken
      have resolvable : ∀ m ∈ members, Resolvable a.registry m := by
        intro m member
        exact closed.linked.resolvable (known m ((NameSet.mem_sorted ordered).2 member)).2
      have kept := (Resolver.resolve_spec sound members).2
      obtain ⟨leaves, resolved⟩ := resolve_ok sound members (by rwa [same])
      generalize a.resolver.resolve members = outcome at *
      obtain ⟨result, resolver⟩ := outcome
      simp only at kept resolved
      subst resolved
      simp only at h
      split at h
      · cases h
      · split at h
        · split at h
          next equivalent =>
            cases h
            have all : ∀ d ∈ a.existing, ∀ m ∈ d.members, Resolvable resolver.registry m := by
              intro d member m declared
              obtain ⟨entry, there, rfl⟩ := List.mem_map.1 (mem_existing.1 member)
              rw [kept.1, same]
              exact closed.linked.resolvable (closed entry there m declared)
            rw [rule_of_checkEquivalents kept.2 all (congrArg Prod.fst equivalent)]
            decide
          · cases h
        · cases h
          decide

/-- Where all members are registered no definition breaks the rule on unknown members. -/
theorem rule_of_judge (faithful : a.Faithful) (closed : Closed a.registry) {breach : Breach}
    (h : (a.judge definition bits).1.outcome = .error (.breach breach)) :
    breach.rule ≠ .unknownDeclaredAggregate := by
  rw [judge] at h
  split at h
  · cases h
    decide
  · split at h
    · cases h
    next owners index asked =>
      simp only at h
      split at h
      · rcases rule_of_judgeAtomic h with rule | rule <;> rw [rule] <;> decide
      · cases h
        decide
      · exact rule_of_judgeAggregate (a := { a with index }) faithful.resolver faithful.sound
          closed h

end Admission

end Aggregation

end PrivilegeStore
