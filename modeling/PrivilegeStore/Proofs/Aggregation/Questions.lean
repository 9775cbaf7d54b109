import PrivilegeStore.Proofs.Aggregation.Coincidence
import PrivilegeStore.Proofs.Aggregation.Termination

/-!
# Questions asked of one resolver

A resolver is asked for closures and for leaves in any order, and it keeps what it finds. Kept
closures cut its walks short, but only behind names that can be resolved. The names that cannot are
met in the same order whatever is kept: `Resolver.met_filter`. So every question gets the answer of
a fresh resolver, in its refusals down to the name that is reported.
-/
namespace PrivilegeStore

namespace Aggregation

section Filter

variable {next : Scalar → NameSet} {p : Scalar → Bool}

theorem contains_filter (respects : ∀ a b : Scalar, a.same b = true → p a = p b) {names : NameSet}
    {a : Scalar} (holds : p a = true) :
    NameSet.contains (names.filter p) a = NameSet.contains names a := by
  rw [Bool.eq_iff_iff, NameSet.contains_iff, NameSet.contains_iff]
  constructor
  · rintro ⟨n, member, same⟩
    exact ⟨n, List.mem_of_mem_filter member, same⟩
  · rintro ⟨n, member, same⟩
    exact ⟨n, List.mem_filter.2 ⟨member, by rw [respects n a same, holds]⟩, same⟩

/-- What is discovered among the names of a property does not depend on the other names. -/
theorem discover_filter (respects : ∀ a b : Scalar, a.same b = true → p a = p b)
    (met pending names : NameSet) :
    discover (met.filter p) (pending.filter p) (names.filter p) =
      ((discover met pending names).1.filter p, (discover met pending names).2.filter p) := by
  induction names generalizing met pending with
  | nil => rfl
  | cons name rest ih =>
    cases holds : p name with
    | true =>
      rw [List.filter_cons_of_pos holds, discover, discover, contains_filter respects holds]
      split
      · exact ih met pending
      · rw [← ih, List.filter_cons_of_pos holds, List.filter_cons_of_pos holds]
    | false =>
      have fails : ¬ p name = true := by simp [holds]
      rw [List.filter_cons_of_neg fails, discover]
      split
      · exact ih met pending
      · rw [← ih, List.filter_cons_of_neg fails, List.filter_cons_of_neg fails]

/-- A walk, seen on the names of a property that is inherited backwards, is the walk that follows
these names only. -/
theorem Finishes.filter (respects : ∀ a b : Scalar, a.same b = true → p a = p b)
    (backwards : ∀ name, p name = false → (next name).filter p = [])
    {met pending result : NameSet} (ended : Finishes next met pending result) :
    Finishes (fun name => (next name).filter p) (met.filter p) (pending.filter p)
      (result.filter p) := by
  induction ended with
  | done met => exact .done _
  | @step met pending result name _ ih =>
    have seen := discover_filter respects met pending (next name)
    cases holds : p name with
    | true =>
      rw [List.filter_cons_of_pos holds]
      refine .step ?_
      rw [seen]
      exact ih
    | false =>
      rw [List.filter_cons_of_neg (by simp [holds])]
      -- nothing of the property lies behind the name, so this step leaves no trace
      rw [backwards name holds, discover, Prod.mk.injEq] at seen
      rwa [← seen.1, ← seen.2] at ih

end Filter

/-- Two answers hold the same leaves, or are the same refusal. -/
def SameAnswer : Except Breach (List String) → Except Breach (List String) → Prop
  | .ok leaves, .ok others => ∀ leaf, leaf ∈ leaves ↔ leaf ∈ others
  | .error breach, .error other => breach = other
  | _, _ => False

variable {registry : Registry} {a b : Scalar}

theorem resolvable_congr (same : a.same b = true) :
    Resolvable registry a ↔ Resolvable registry b :=
  ⟨.of_reaches (.here same), .of_reaches (.here (Scalar.same_symm same))⟩

/-- Whether an unregistered name is reached from a name. -/
def isStuck (registry : Registry) (name : Scalar) : Bool :=
  (reachable registry name).any fun x => (registry.find? x).isNone

theorem isStuck_eq_false_iff : isStuck registry a = false ↔ Resolvable registry a := by
  simp only [isStuck, List.any_eq_false, Bool.not_eq_true, Option.isNone_eq_false_iff]
  constructor
  · intro all target reached
    obtain ⟨x, member, same⟩ := NameSet.contains_iff.1 (contains_reachable.2 reached)
    exact (registered_congr same).1 (all x member)
  · intro resolvable x member
    exact resolvable x (contains_reachable.1 (NameSet.contains_of_mem member))

theorem isStuck_congr (same : a.same b = true) : isStuck registry a = isStuck registry b := by
  rw [← Bool.not_inj_iff, Bool.eq_iff_iff, Bool.not_eq_true', Bool.not_eq_true',
    isStuck_eq_false_iff, isStuck_eq_false_iff, resolvable_congr same]

/-- No member of a name that can be resolved is stuck. -/
theorem filter_membersOf (resolvable : Resolvable registry a) :
    (registry.membersOf a).filter (isStuck registry) = [] := by
  refine List.filter_eq_nil_iff.2 fun m member => ?_
  have declared := Reaches.member (.refl a) (NameSet.contains_of_mem member)
  rw [isStuck_eq_false_iff.2 (resolvable.of_reaches declared)]
  exact Bool.false_ne_true

namespace Resolver

variable {r s : Resolver} {name : Scalar}

/-- No kept closure stands before a name that is stuck. -/
theorem following_filter (sound : r.Sound) (name : Scalar) :
    (r.following name).filter (isStuck r.registry) =
      (r.registry.membersOf name).filter (isStuck r.registry) := by
  rw [following]
  split
  · next kept =>
    obtain ⟨leaves, found⟩ := Option.isSome_iff_exists.1 kept
    exact (filter_membersOf (sound name leaves found).1).symm
  · rfl

/-- The names met that are stuck are those of a walk that nothing kept cuts short, in its order. -/
theorem met_filter (sound : r.Sound) (name : Scalar) :
    (r.met name).filter (isStuck r.registry) =
      (reachable r.registry name).filter (isStuck r.registry) := by
  have backwards : ∀ x, isStuck r.registry x = false →
      (r.registry.membersOf x).filter (isStuck r.registry) = [] :=
    fun x free => filter_membersOf (isStuck_eq_false_iff.1 free)
  have kept := (r.finishes_met name).filter (fun _ _ => isStuck_congr)
    fun x free => by rw [following_filter sound, backwards x free]
  have plain := (finishes_reachable r.registry name).filter (fun _ _ => isStuck_congr) backwards
  simp only [following_filter sound] at kept
  exact kept.unique plain

/-- For a sound resolver the unknown names are the unregistered ones. -/
theorem isUnknown_eq (sound : r.Sound) (name : Scalar) :
    r.isUnknown name = (r.registry.find? name).isNone := by
  cases kept : r.kept? name with
  | none => simp [isUnknown, kept]
  | some leaves =>
    have known := (sound name leaves kept).1 name (.refl name)
    rw [Registry.Registered, Option.isSome_iff_exists] at known
    obtain ⟨d, found⟩ := known
    simp [isUnknown, kept, found]

/-- The first unknown name that is met depends on the registry only. -/
theorem find?_met (sound : r.Sound) (name : Scalar) : (r.met name).find? r.isUnknown =
    (reachable r.registry name).find? fun x => (r.registry.find? x).isNone := by
  have stuck : ∀ names : NameSet, names.find? (fun x => (r.registry.find? x).isNone) =
      (names.filter (isStuck r.registry)).find? fun x => (r.registry.find? x).isNone := by
    intro names
    rw [List.find?_filter]
    refine congrArg (List.find? · names) (funext fun x => ?_)
    cases missing : (r.registry.find? x).isNone with
    | false => simp
    | true =>
      have held : isStuck r.registry x = true := by
        rw [← Bool.not_eq_false, isStuck_eq_false_iff]
        intro resolvable
        have known := resolvable x (.refl x)
        simp_all [Registry.Registered]
      simp [held]
  rw [funext (isUnknown_eq sound), stuck, met_filter sound, ← stuck]

/-- A closure is refused for the first unknown name that is met. -/
theorem unknown_of_closureOf {breach : Breach} (refused : (r.closureOf name).1 = .error breach) :
    ∃ unknown, (r.met name).find? r.isUnknown = some unknown ∧
      breach = .unknownDeclaredAggregate unknown := by
  cases kept : r.kept? name with
  | some leaves => simp [closureOf_of_kept kept] at refused
  | none =>
    cases found : (r.met name).find? r.isUnknown with
    | none => simp [closureOf_of_known kept found] at refused
    | some unknown =>
      rw [closureOf_of_unknown kept found] at refused
      cases refused
      exact ⟨unknown, rfl, rfl⟩

/-- Sound resolvers of one registry give the same closures. -/
theorem closureOf_same (soundR : r.Sound) (soundS : s.Sound) (shared : r.registry = s.registry)
    (name : Scalar) : SameAnswer (r.closureOf name).1 (s.closureOf name).1 := by
  have answerR := (closureOf_spec soundR name).1
  have answerS := (closureOf_spec soundS name).1
  have alike := Answers.alike (.refl r.registry) (NameSet.sameAs_of_mem fun _ => Iff.rfl)
    answerR (shared ▸ answerS)
  cases resultR : (r.closureOf name).1 with
  | ok leaves =>
    cases resultS : (s.closureOf name).1 with
    | ok others =>
      rw [resultR, resultS] at alike
      exact alike
    | error breach =>
      rw [resultR, resultS] at alike
      exact alike.elim
  | error breach =>
    cases resultS : (s.closureOf name).1 with
    | ok others =>
      rw [resultR, resultS] at alike
      exact alike.elim
    | error other =>
      obtain ⟨u, foundR, rfl⟩ := unknown_of_closureOf resultR
      obtain ⟨v, foundS, rfl⟩ := unknown_of_closureOf resultS
      rw [find?_met soundR, shared] at foundR
      rw [find?_met soundS, foundR] at foundS
      cases foundS
      rfl

/-- Sound resolvers of one registry decompose names alike, from whatever each has found before. -/
theorem resolveFrom_same (soundR : r.Sound) (soundS : s.Sound) (shared : r.registry = s.registry)
    {leaves others : List String} (before : ∀ leaf, leaf ∈ leaves ↔ leaf ∈ others)
    (names : List Scalar) :
    SameAnswer (r.resolveFrom leaves names).1 (s.resolveFrom others names).1 := by
  induction names generalizing r s leaves others with
  | nil => exact before
  | cons name rest ih =>
    have same := closureOf_same soundR soundS shared name
    obtain ⟨-, keptR, soundR'⟩ := closureOf_spec soundR name
    obtain ⟨-, keptS, soundS'⟩ := closureOf_spec soundS name
    rw [resolveFrom, resolveFrom]
    generalize r.closureOf name = first at *
    generalize s.closureOf name = second at *
    obtain ⟨resultR, laterR⟩ := first
    obtain ⟨resultS, laterS⟩ := second
    cases resultR with
    | error breach =>
      cases resultS with
      | error other => exact same
      | ok found => exact same.elim
    | ok found =>
      cases resultS with
      | error other => exact same.elim
      | ok found' =>
        refine ih soundR' soundS' (keptR.trans (shared.trans keptS.symm)) fun leaf => ?_
        rw [mem_joinNames, mem_joinNames, before leaf, same leaf]

/-- The closure of a name is what the name alone decomposes into. -/
theorem same_resolve_singleton (r : Resolver) (name : Scalar) :
    SameAnswer (r.closureOf name).1 (r.resolve [name]).1 := by
  rw [resolve, resolveFrom]
  generalize r.closureOf name = outcome
  obtain ⟨result, later⟩ := outcome
  cases result with
  | error breach => exact rfl
  | ok found =>
    intro leaf
    simp [mem_joinNames]

end Resolver

theorem SameAnswer.trans {x y z : Except Breach (List String)} (first : SameAnswer x y)
    (second : SameAnswer y z) : SameAnswer x z := by
  cases x <;> cases y <;> cases z <;> simp_all [SameAnswer]

/-- What a resolver can be asked. -/
inductive Question where
  | closureOf (name : Scalar)
  | resolve (names : List Scalar)
deriving DecidableEq, Repr

/-- The names that a question is about. -/
def Question.names : Question → List Scalar
  | .closureOf name => [name]
  | .resolve names => names

namespace Resolver

def answer (r : Resolver) : Question → Except Breach (List String) × Resolver
  | .closureOf name => r.closureOf name
  | .resolve names => r.resolve names

/-- Answers questions one after another, and goes on after a refusal. -/
def answerAll (r : Resolver) : List Question → List (Except Breach (List String)) × Resolver
  | [] => ([], r)
  | question :: rest =>
    let (answer, r) := r.answer question
    let (answers, r) := r.answerAll rest
    (answer :: answers, r)

/-- A question to a sound resolver is answered rightly, as by a fresh one, and leaves it sound. -/
theorem answer_spec {r : Resolver} (sound : r.Sound) (question : Question) :
    Answers r.registry question.names (r.answer question).1 ∧
      SameAnswer (r.answer question).1 (Aggregation.resolve r.registry question.names) ∧
      (r.answer question).2.registry = r.registry ∧ (r.answer question).2.Sound := by
  have fresh (names : List Scalar) :
      SameAnswer (r.resolve names).1 (Aggregation.resolve r.registry names) :=
    resolveFrom_same sound (sound_empty r.registry) rfl (fun _ => Iff.rfl) names
  cases question with
  | closureOf name =>
    obtain ⟨right, rest⟩ := closureOf_spec sound name
    exact ⟨right, (same_resolve_singleton r name).trans (fresh [name]), rest⟩
  | resolve names =>
    obtain ⟨right, rest⟩ := resolve_spec sound names
    exact ⟨right, fresh names, rest⟩

end Resolver

/-- An answer is plain reachability: a question is refused, always by the same rule, exactly if an
unregistered name is requested or reached, and otherwise answered by the atomic names requested or
reached. A fresh resolver gives the same answer. -/
structure Settles (registry : Registry) (question : Question)
    (answer : Except Breach (List String)) : Prop where
  refused_iff : (∃ breach, answer = .error breach ∧ breach.code = 47) ↔ ∃ name ∈ question.names,
    ∃ target, Reaches registry.membersOf name target ∧ ¬ registry.Registered target
  refused : ∀ breach, answer = .error breach → breach.code = 47
  leaves : ∀ leaves, answer = .ok leaves → ∀ leaf, leaf ∈ leaves ↔
    ∃ name ∈ question.names, Reaches registry.membersOf name (.text leaf) ∧
      registry.Registered (.text leaf) ∧ registry.membersOf (.text leaf) = []
  fresh : SameAnswer answer (resolve registry question.names)

theorem Answers.settles {question : Question} {answer : Except Breach (List String)}
    (answers : Answers registry question.names answer)
    (fresh : SameAnswer answer (resolve registry question.names)) :
    Settles registry question answer where
  refused_iff := by
    constructor
    · rintro ⟨breach, rfl, -⟩
      obtain ⟨name, member, unknown, -, reached, missing⟩ := answers
      exact ⟨name, member, unknown, reached, missing⟩
    · rintro ⟨name, member, unknown, reached, missing⟩
      cases answer with
      | ok leaves => exact absurd (answers.not_ok ⟨name, member, reached⟩) missing
      | error breach =>
        obtain ⟨-, -, -, rfl, -, -⟩ := answers
        exact ⟨_, rfl, rfl⟩
  refused := by
    rintro breach rfl
    obtain ⟨-, -, -, rfl, -, -⟩ := answers
    rfl
  leaves := by
    rintro leaves rfl leaf
    rw [answers.2 leaf]
    simp only [LeafOf, atomic_iff]
  fresh := fresh

/-- Whatever one resolver is asked and in whatever order, every answer is plain reachability, also
after questions that were refused. -/
theorem answers_settle (registry : Registry) (questions : List Question) :
    List.Forall₂ (Settles registry) questions (Resolver.answerAll ⟨registry, []⟩ questions).1 := by
  suffices all : ∀ r : Resolver, r.Sound → r.registry = registry →
      List.Forall₂ (Settles registry) questions (r.answerAll questions).1 from
    all ⟨registry, []⟩ (Resolver.sound_empty registry) rfl
  induction questions with
  | nil => exact fun _ _ _ => .nil
  | cons question rest ih =>
    rintro r sound rfl
    obtain ⟨right, fresh, kept, sound'⟩ := Resolver.answer_spec sound question
    exact .cons (right.settles fresh) (ih _ sound' kept)

end Aggregation

end PrivilegeStore
