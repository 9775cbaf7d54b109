import PrivilegeStore.Proofs.Aggregation.Demands

/-!
# Definitions are judged by the demands

The code tries the demands one by one, on walks and kept closures. Each of its parts picks the first
demand of its own that is broken: the loop over the members, the loop over the registered
aggregates, and the checks between. Put together they pick the first one of all, in an admission
that has judged any definitions before.
-/
namespace PrivilegeStore

namespace Aggregation

variable {registry : Registry} {names : List String}

/-- The loop over the members makes the demands on each of them. -/
theorem memberBreach?_follows (registry : Registry) (name : String) (members : List String) :
    FirstBroken (members.flatMap (memberDemands registry name))
      ((memberBreach? registry name (members.map .text)).map Breach.rule) := by
  induction members with
  | nil => exact .done
  | cons m rest ih =>
    rw [List.flatMap_cons, List.map_cons, memberBreach?]
    split
    next circular => exact .here (isCircular_iff.1 circular)
    next acyclic =>
      refine .later (fun reached => acyclic (isCircular_iff.2 reached)) ?_
      split
      next missing => exact .here (by simp_all [Registry.Registered])
      next found =>
        refine .later (fun missing => ?_) ih
        simp_all [Registry.Registered]

/-- A set of texts is the same as another exactly if it has the same members. -/
theorem sameAs_texts_iff {others : NameSet} : NameSet.sameAs (names.map Scalar.text) others = true ↔
    ∀ a, a ∈ names.map Scalar.text ↔ a ∈ others := by
  refine ⟨fun same a => ?_, NameSet.sameAs_of_mem⟩
  have held := NameSet.sameAs_iff.1 same
  constructor
  · intro member
    obtain ⟨m, -, rfl⟩ := List.mem_map.1 member
    exact NameSet.contains_text.1 ((held _).1 (NameSet.contains_of_mem member))
  · intro member
    obtain ⟨n, there, same⟩ := NameSet.contains_iff.1 ((held a).2 (NameSet.contains_of_mem member))
    obtain ⟨m, -, rfl⟩ := List.mem_map.1 there
    rwa [← Scalar.same_text.1 (Scalar.same_symm same)] at there

/-- A registered name can be resolved if its members can. -/
theorem resolvable_iff_members {a : Scalar} {d : Definition} (found : registry.find? a = some d) :
    Resolvable registry a ↔ ∀ m ∈ d.members, Resolvable registry m := by
  rw [← Registry.membersOf_of_find? found]
  constructor
  · intro resolvable m declared
    exact resolvable.of_reaches (.member (.refl a) (NameSet.contains_of_mem declared))
  · intro members target reached
    rcases reached.cases_head registry.respects_membersOf with same | ⟨m, declared, further⟩
    · exact (registered_congr same).1 (registered_of_find? found)
    · exact members m declared target further

/-- The rule by which a check refuses, if it does. -/
def refusal? : Except Breach Unit → Option Rule
  | .ok () => none
  | .error breach => some breach.rule

/-- The loop over the registered aggregates makes the demands on each of them, although it may stop
at the first member that closes the question. -/
theorem checkEquivalents_follows {r : Resolver} (sound : r.Sound) (opened : r.registry = registry)
    (name : String) {leaves : List String}
    (right : ∀ leaf, leaf ∈ leaves ↔ ∃ m ∈ names.map Scalar.text, LeafOf registry m leaf)
    {existing : List Definition}
    (listed : ∀ d ∈ existing, registry.find? (.text d.name) = some d) :
    FirstBroken
      (((existing.filter Definition.isAggregate).map Definition.name).flatMap
        (rivalDemands registry names))
      (refusal? (checkEquivalents r name (names.map .text) leaves existing).1) := by
  induction existing generalizing r with
  | nil => exact .done
  | cons d rest ih =>
    have later := fun x member => listed x (List.mem_cons_of_mem _ member)
    have found := listed d List.mem_cons_self
    rw [checkEquivalents]
    cases aggregate : d.isAggregate with
    | false =>
      rw [List.filter_cons_of_neg (by simp [aggregate])]
      exact ih sound opened later
    | true =>
      rw [List.filter_cons_of_pos aggregate, List.map_cons, List.flatMap_cons, rivalDemands,
        Registry.membersOf_of_find? found]
      simp only [Bool.not_true, Bool.false_eq_true, ↓reduceIte]
      split
      next same => exact .here (sameAs_texts_iff.1 same)
      next different =>
        refine .later (fun same => different (sameAs_texts_iff.2 same)) ?_
        obtain ⟨answer, kept, sound'⟩ := Resolver.resolve_spec sound d.members
        rw [opened] at answer kept
        generalize r.resolve d.members = outcome at *
        obtain ⟨result, resolver⟩ := outcome
        cases result with
        | error breach =>
          obtain ⟨m, member, unknown, rfl, reached, missing⟩ := answer
          refine .here fun resolvable => missing ?_
          exact (resolvable_iff_members found).1 resolvable m member unknown reached
        | ok others =>
          have resolvable := (resolvable_iff_members found).2 answer.1
          have compared : sameNames leaves others = true ↔
              SameLeaves registry (names.map .text) [.text d.name] := by
            rw [sameLeaves_iff_of_aggregate found aggregate, sameNames_iff]
            exact forall_congr' fun leaf => by rw [right leaf, answer.2 leaf]
          refine .later (fun stuck => stuck resolvable) ?_
          simp only
          split
          next same => exact .here (compared.1 same)
          next other => exact .later (fun same => other (compared.2 same)) (ih sound' kept later)

namespace Admission

variable {a : Admission} {counter bits : Bits} {definition : Definition}

/-- An admission whose store, bits and counter can be read, and that keeps nothing wrong. -/
structure Ready (a : Admission) (counter : Bits) : Prop where
  faithful : a.Faithful
  registry : a.index.store.registry = .ok a.registry
  plain : a.index.store.PlainlyNamed
  clean : a.index.store.bitsTable.fault = none
  counter : a.storeAfter.nextBits = .ok counter

/-- An admission is ready when it is opened. -/
theorem ready_start {registry : Registry} {store storeAfter : View}
    (read : store.registry = .ok registry) (clean : store.bitsTable.fault = none)
    (plain : store.PlainlyNamed) (counted : storeAfter.nextBits = .ok counter) :
    (start registry store storeAfter).Ready counter :=
  ⟨faithful_start registry store storeAfter, read, plain, clean, counted⟩

/-- Judging leaves an admission ready. -/
theorem Ready.judge (ready : a.Ready counter) (definition : Definition) (bits : Bits) :
    (a.judge definition bits).2.Ready counter := by
  obtain ⟨registry, later, store⟩ := judge_frame a definition bits
  constructor
  · exact faithful_judge ready.faithful (.inr ready.clean)
  · rw [store, registry]
    exact ready.registry
  · rw [store]
    exact ready.plain
  · rw [store]
    exact ready.clean
  · rw [later]
    exact ready.counter

/-- So does judging any number of definitions. -/
theorem Ready.judgeAll (ready : a.Ready counter) (earlier : List (Definition × Bits)) :
    (a.judgeAll earlier).2.Ready counter := by
  induction earlier generalizing a with
  | nil => exact ready
  | cons pair rest ih => exact ih (ready.judge pair.1 pair.2)

theorem judgeAll_frame (a : Admission) (earlier : List (Definition × Bits)) :
    (a.judgeAll earlier).2.registry = a.registry ∧
      (a.judgeAll earlier).2.index.store = a.index.store := by
  induction earlier generalizing a with
  | nil => exact ⟨rfl, rfl⟩
  | cons pair rest ih =>
    obtain ⟨registry, -, store⟩ := judge_frame a pair.1 pair.2
    obtain ⟨registry', store'⟩ := ih (a.judge pair.1 pair.2).2
    exact ⟨registry'.trans registry, store'.trans store⟩

/-- Registered definitions are found under their own names. -/
theorem Ready.listed (ready : a.Ready counter) {d : Definition} (member : d ∈ a.existing) :
    a.registry.find? (.text d.name) = some d := by
  obtain ⟨name, isDef, read⟩ := View.mem_existing (v := a.index.store) (w := a.storeAfter)
    ready.registry member
  rw [ready.plain.name_eq isDef read]
  exact (View.find?_registry ready.registry).2 ⟨isDef, read⟩

/-- The registered aggregates are compared in the order of their names. -/
theorem Ready.aggregateNames (ready : a.Ready counter) :
    (a.existing.filter Definition.isAggregate).map Definition.name = aggregateNames a.registry := by
  have compared : a.existing.map Definition.name = sortNames (a.registry.map Prod.fst) :=
    ready.plain.map_name_existing (v := a.index.store) (w := a.storeAfter) ready.registry
  rw [Aggregation.aggregateNames, ← compared, List.filter_map]
  refine congrArg _ (List.filter_congr fun d member => ?_)
  rw [Function.comp_apply, Registry.membersOf_of_find? (ready.listed member),
    Definition.isAggregate]

theorem Ready.ownersOf_eq_nil_iff (ready : a.Ready counter) :
    BitsTable.ownersOf a.index.store.bitsTable.entries bits = [] ↔
      ¬ ∃ owner, a.index.store.Owns owner bits := by
  constructor
  · rintro unowned ⟨owner, owns⟩
    exact BitsTable.ownersOf_eq_nil unowned ((View.find?_bitsTable ready.clean).2 owns) rfl
  · intro unowned
    refine View.ownersOf_bitsTable fun owner stored owns same => unowned ⟨owner, ?_⟩
    rwa [← same]

theorem Ready.eq_unionOf_iff (ready : a.Ready counter) :
    bits = BitsTable.unionOf a.index.store.bitsTable.entries (names.map .text) ↔
      IsUnion a.index.store names bits := by
  have held := isUnion_unionOf names ready.clean
  constructor
  · rintro rfl
    exact held
  · intro union
    exact Bits.ext_testBit fun position => (union position).trans (held position).symm

theorem judgeAtomic_follows (ready : a.Ready counter) (name : String) (bits : Bits) :
    (a.judgeAtomic name (BitsTable.ownersOf a.index.store.bitsTable.entries bits) bits).Follows
      (atomicDemands a.index.store counter bits) := by
  rw [judgeAtomic]
  split
  next unowned =>
    refine .next (ready.ownersOf_eq_nil_iff.1 (List.isEmpty_iff.1 unowned)) ?_
    rw [Ruling.Follows, Ruling.outcome_onAccept, Counter.check, ready.counter]
    by_cases same : counter = bits.next
    · simp only [if_pos same]
      exact .later (fun differs => differs same) .done
    · simp only [if_neg same]
      exact .here same
  next owned =>
    refine .here ?_
    by_contra unowned
    exact owned (List.isEmpty_iff.2 (ready.ownersOf_eq_nil_iff.2 unowned))

/-- An aggregate is judged by the demands on aggregates. -/
theorem judgeAggregate_follows (ready : a.Ready counter) (name : String) (names : List String)
    (bits : Bits) : (a.judgeAggregate name (names.map .text) bits).1.Follows
      (aggregateDemands a.index.store a.registry name names bits) := by
  have members := memberBreach?_follows a.registry name (sortNames names)
  rw [judgeAggregate, NameSet.sorted_map_text]
  simp only
  cases broken : memberBreach? a.registry name ((sortNames names).map .text) with
  | some breach =>
    rw [broken] at members
    exact members.append_left
  | none =>
    rw [broken] at members
    refine .append members ?_
    obtain ⟨answer, kept, sound⟩ := Resolver.resolve_spec ready.faithful.sound (names.map .text)
    rw [ready.faithful.resolver] at answer kept
    simp only
    generalize a.resolver.resolve (names.map .text) = outcome at *
    obtain ⟨result, resolver⟩ := outcome
    cases result with
    | error breach =>
      obtain ⟨n, member, unknown, rfl, reached, missing⟩ := answer
      obtain ⟨m, there, rfl⟩ := List.mem_map.1 member
      exact .here ⟨m, there, fun resolvable => missing (resolvable unknown reached)⟩
    | ok leaves =>
      refine .next ?_ ?_
      · rintro ⟨m, member, stuck⟩
        exact stuck (answer.1 _ (List.mem_map_of_mem member))
      · rw [BitsIndex.bitsOf_of_no_fault _ ready.clean]
        simp only
        split
        next union =>
          refine .next (fun other => other (ready.eq_unionOf_iff.1 union)) ?_
          have rivals := checkEquivalents_follows sound kept name answer.2
            fun d member => ready.listed member
          rw [ready.aggregateNames] at rivals
          generalize checkEquivalents resolver name (names.map .text) leaves a.existing =
            outcome at *
          obtain ⟨result, later⟩ := outcome
          cases result with
          | ok passed => exact rivals
          | error breach => exact rivals
        next other => exact .here fun union => other (ready.eq_unionOf_iff.2 union)

/-- A definition that declares texts is judged by the demands in their order. -/
theorem judge_follows (ready : a.Ready counter) (members : definition.members = names.map .text)
    (bits : Bits) : (a.judge definition bits).1.Follows
      (demands a.index.store a.registry definition.name names counter bits) := by
  rw [judge, demands]
  cases empty : bits.isEmpty with
  | true => exact .here rfl
  | false =>
    have asked : Ready { a with index := { a.index with consulted := true } } counter :=
      ⟨ready.faithful.consulted ready.clean, ready.registry, ready.plain, ready.clean,
        ready.counter⟩
    refine .next Bool.false_ne_true ?_
    rw [BitsIndex.namesOf_of_no_fault empty ready.clean, members]
    simp only [Bool.false_eq_true, ↓reduceIte]
    cases names with
    | nil => exact judgeAtomic_follows asked _ bits
    | cons first rest =>
      cases rest with
      | nil => exact .here rfl
      | cons second rest =>
        refine .next (by simp) ?_
        exact judgeAggregate_follows asked _ (first :: second :: rest) bits

/-- Where definitions, bits and the counter can be read, every definition that declares texts is
decided on, whatever was judged before: it is accepted exactly if it satisfies the rules, and is
otherwise refused for the first demand that it breaks. -/
theorem judge_decides {store storeAfter : View} {registry : Registry} {counter : Bits}
    (read : store.registry = .ok registry) (clean : store.bitsTable.fault = none)
    (plain : store.PlainlyNamed) (counted : storeAfter.nextBits = .ok counter)
    (earlier : List (Definition × Bits)) (name : String) (names : List String) (isAbstract : Bool)
    (bits : Bits) :
    let judged := ((start registry store storeAfter).judgeAll earlier).2
    let outcome := (judged.judge ⟨name, names.map .text, isAbstract⟩ bits).1.outcome
    (outcome = .ok () ↔ Acceptable store registry name names counter bits) ∧
      (∀ rule, (∃ breach, outcome = .error (.breach breach) ∧ breach.rule = rule) ↔
        FirstBroken (demands store registry name names counter bits) (some rule)) ∧
      ∀ fault, outcome ≠ .error (.fault fault) := by
  intro judged outcome
  have opened : Ready (start registry store storeAfter) counter :=
    ready_start read clean plain counted
  obtain ⟨sameRegistry, sameStore⟩ := judgeAll_frame (start registry store storeAfter) earlier
  let candidate : Definition := ⟨name, names.map .text, isAbstract⟩
  have members : candidate.members = names.map .text := rfl
  have follows := judge_follows (opened.judgeAll earlier) members bits
  rw [sameStore, sameRegistry] at follows
  exact ⟨follows.accepted_iff.trans firstBroken_none_iff, fun _ => follows.refused_iff,
    follows.no_fault⟩

/-- Beside an aggregate with a dangling member no other aggregate is admitted, but an atomic
definition still is. -/
theorem judge_decides_beside_dangling :
    let children := [("write", Registration.definitionNode ⟨2⟩ [] false),
      ("browse", Registration.definitionNode ⟨1⟩ [.text "read", .text "list"] false),
      ("read", Registration.definitionNode ⟨1⟩ [] false)]
    let store : View := ⟨"/privileges", some ⟨[], children⟩⟩
    let registry : Registry := [("write", ⟨"write", [], false⟩),
      ("browse", ⟨"browse", [.text "read", .text "list"], false⟩), ("read", ⟨"read", [], false⟩)]
    FirstBroken (demands store registry "edit" ["write", "read"] ⟨8⟩ ⟨3⟩)
        (some .unknownDeclaredAggregate) ∧
      Acceptable store registry "run" [] ⟨8⟩ ⟨4⟩ := by
  intro children store registry
  have read : store.registry = .ok registry := by decide +kernel
  have clean : store.bitsTable.fault = none := by decide +kernel
  have named : ∀ name ∈ store.childNames, name ≠ "" ∧ '/' ∉ name.toList := by decide +kernel
  have plain : store.PlainlyNamed :=
    fun name isDef => named name (View.mem_childNames_of_isDefinition isDef)
  let storeAfter : View := ⟨"/privileges", some ⟨[(Schema.next, (⟨8⟩ : Bits).stored)], []⟩⟩
  have counted : storeAfter.nextBits = .ok ⟨8⟩ := by decide +kernel
  obtain ⟨-, refused, -⟩ :=
    judge_decides read clean plain counted [] "edit" ["write", "read"] false ⟨3⟩
  obtain ⟨accepted, -, -⟩ := judge_decides read clean plain counted
    [(⟨"edit", [.text "write", .text "read"], false⟩, ⟨3⟩)] "run" [] false ⟨4⟩
  exact ⟨(refused .unknownDeclaredAggregate).1
    ⟨.unknownDeclaredAggregate (.text "list"), by decide +kernel, rfl⟩,
    accepted.1 (by decide +kernel)⟩

end Admission

end Aggregation

end PrivilegeStore
