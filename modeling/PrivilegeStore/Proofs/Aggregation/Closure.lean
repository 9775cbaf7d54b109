import PrivilegeStore.Aggregation.Resolver
import PrivilegeStore.Proofs.Aggregation.Reachability

/-!
# Leaf closures are reachability

A resolver is sound when every closure it keeps is the set of atomic names reached from its name,
and no unregistered name is reached from there. Questions keep it sound, those that fail included,
so the answer to each is the one that a resolver without kept closures would give, up to order.
-/
namespace PrivilegeStore

namespace Registry

/-- Whether a name is defined. -/
def Registered (registry : Registry) (name : Scalar) : Prop := (registry.find? name).isSome = true

instance (registry : Registry) (name : Scalar) : Decidable (registry.Registered name) :=
  inferInstanceAs (Decidable (_ = true))

/-- Whether a name is defined without members. -/
def Atomic (registry : Registry) (name : Scalar) : Prop :=
  ∃ d, registry.find? name = some d ∧ d.isAggregate = false

end Registry

namespace Aggregation

/-- Every name reached from a name is registered. -/
def Resolvable (registry : Registry) (name : Scalar) : Prop :=
  ∀ target, Reaches registry.membersOf name target → registry.Registered target

/-- A leaf is an atomic name that is reached. -/
def LeafOf (registry : Registry) (name : Scalar) (leaf : String) : Prop :=
  Reaches registry.membersOf name (.text leaf) ∧ registry.Atomic (.text leaf)

/-- What a resolver should answer when it is asked for the leaves of names. -/
def Answers (registry : Registry) (names : List Scalar) : Except Breach (List String) → Prop
  | .ok leaves => (∀ name ∈ names, Resolvable registry name) ∧
      ∀ leaf, leaf ∈ leaves ↔ ∃ name ∈ names, LeafOf registry name leaf
  | .error breach => ∃ name ∈ names, ∃ unknown, breach = .unknownDeclaredAggregate unknown ∧
      Reaches registry.membersOf name unknown ∧ ¬ registry.Registered unknown

theorem mem_joinNames {names others : List String} {name : String} :
    name ∈ joinNames names others ↔ name ∈ names ∨ name ∈ others := by
  simp only [joinNames, List.mem_append, List.mem_filter, Bool.not_eq_true', List.contains_eq_mem,
    decide_eq_false_iff_not]
  by_cases known : name ∈ names <;> simp [known]

theorem mem_foldl_joinNames {start : List String} {lists : List (List String)} {name : String} :
    name ∈ lists.foldl joinNames start ↔ name ∈ start ∨ ∃ list ∈ lists, name ∈ list := by
  induction lists generalizing start with
  | nil => simp
  | cons list rest ih =>
    rw [List.foldl_cons, ih, mem_joinNames]
    simp [or_assoc]

theorem sameNames_iff {a b : List String} : sameNames a b = true ↔ ∀ name, name ∈ a ↔ name ∈ b := by
  simp only [sameNames, Bool.and_eq_true, List.all_eq_true, List.contains_eq_mem, decide_eq_true_eq]
  constructor
  · rintro ⟨left, right⟩ name
    exact ⟨left name, right name⟩
  · intro h
    exact ⟨fun name => (h name).1, fun name => (h name).2⟩

variable {registry : Registry} {a b : Scalar} {leaf : String}

theorem LeafOf.of_reaches (reached : Reaches registry.membersOf a b) (h : LeafOf registry b leaf) :
    LeafOf registry a leaf :=
  ⟨reached.trans h.1, h.2⟩

theorem Resolvable.of_reaches (reached : Reaches registry.membersOf a b)
    (h : Resolvable registry a) : Resolvable registry b :=
  fun _ further => h _ (reached.trans further)

/-- The leaf of an atomic name is the name itself. -/
theorem leafOf_of_atomic {name : String} (atomic : registry.Atomic (.text name)) :
    LeafOf registry (.text name) leaf ↔ leaf = name := by
  obtain ⟨d, found, plain⟩ := atomic
  constructor
  · rintro ⟨reached, -⟩
    rcases reached.cases_head registry.respects_membersOf with same | ⟨middle, member, -⟩
    · rw [Scalar.same_text] at same
      cases same
      rfl
    · rw [Registry.membersOf_of_find? found] at member
      have none : d.members = [] := by simpa [Definition.isAggregate] using plain
      simp [none] at member
  · rintro rfl
    exact ⟨.refl _, d, found, plain⟩

/-- The leaves of an aggregate are those of its members. -/
theorem leafOf_of_aggregate {d : Definition} (found : registry.find? a = some d)
    (aggregate : d.isAggregate = true) :
    LeafOf registry a leaf ↔ ∃ member ∈ d.members, LeafOf registry member leaf := by
  constructor
  · rintro ⟨reached, atomic⟩
    rcases reached.cases_head registry.respects_membersOf with same | ⟨middle, member, rest⟩
    · obtain ⟨e, there, plain⟩ := atomic
      rw [← Registry.find?_congr same, found] at there
      cases there
      rw [aggregate] at plain
      contradiction
    · rw [Registry.membersOf_of_find? found] at member
      exact ⟨middle, member, rest, atomic⟩
  · rintro ⟨member, declared, reached, atomic⟩
    rw [← Registry.membersOf_of_find? found] at declared
    exact ⟨.head (NameSet.contains_of_mem declared) reached, atomic⟩

namespace Resolver

/-- Every closure that is kept is right. -/
def Sound (r : Resolver) : Prop :=
  ∀ name leaves, r.kept? name = some leaves →
    Resolvable r.registry name ∧ ∀ leaf, leaf ∈ leaves ↔ LeafOf r.registry name leaf

theorem sound_empty (registry : Registry) : Sound ⟨registry, []⟩ := by
  intro name leaves kept
  cases name <;> simp [kept?] at kept

variable {r : Resolver} {name target : Scalar}

theorem kept?_congr (same : a.same b = true) : r.kept? a = r.kept? b := by
  have texts := Scalar.text?_congr (Scalar.same_iff.1 same)
  cases a <;> cases b <;> simp_all [kept?, Scalar.text?]

theorem respects_following (r : Resolver) : Respects r.following := by
  intro a b same
  rw [following, following, kept?_congr same, Registry.membersOf_congr same]

theorem mem_following (h : a ∈ r.following name) : a ∈ r.registry.membersOf name := by
  simp only [following] at h
  split at h
  · exact absurd h List.not_mem_nil
  · exact h

theorem contains_met :
    NameSet.contains (r.met name) target = true ↔ Reaches r.following name target := by
  have closed : ∀ x y, y ∈ r.following x → y.key ∈ r.registry.members.map Scalar.key :=
    fun x y behind => List.mem_map_of_mem (Registry.mem_members (mem_following behind))
  have walked : NameSet.contains
      (walk r.following (r.registry.members.length + 1) [name] [name]) target = true ↔
      Reaches r.following name target := contains_walk r.respects_following closed
  rwa [Registry.length_members] at walked

theorem reaches_of_following (h : Reaches r.following name target) :
    Reaches r.registry.membersOf name target :=
  h.mono fun _ _ => NameSet.contains_mono fun _ => mem_following

/-- What is reached is met by the walk, or lies behind a name whose closure is kept. -/
theorem following_or_kept (h : Reaches r.registry.membersOf name target) :
    Reaches r.following name target ∨ ∃ stop leaves, Reaches r.following name stop ∧
      r.kept? stop = some leaves ∧ Reaches r.registry.membersOf stop target := by
  induction h with
  | here same => exact .inl (.here same)
  | @member middle target _ declared ih =>
    rcases ih with met | ⟨stop, leaves, met, kept, further⟩
    · cases kept : r.kept? middle with
      | some leaves => exact .inr ⟨middle, leaves, met, kept, .member (.refl middle) declared⟩
      | none =>
        left
        refine .member met ?_
        rwa [following, kept]
    · exact .inr ⟨stop, leaves, met, kept, .member further declared⟩

/-- With no unknown name met, all names reached are registered. -/
theorem resolvable_of_met (sound : r.Sound) (known : (r.met name).find? r.isUnknown = none) :
    Resolvable r.registry name := by
  intro target reached
  rcases following_or_kept reached with met | ⟨stop, leaves, -, kept, further⟩
  · obtain ⟨x, member, same⟩ := NameSet.contains_iff.1 (contains_met.2 met)
    have notUnknown := List.find?_eq_none.1 known x member
    simp only [isUnknown, Bool.and_eq_true, Option.isNone_iff_eq_none, not_and] at notUnknown
    rw [Registry.Registered, ← Registry.find?_congr same]
    cases kept : r.kept? x with
    | some leaves => exact (sound x leaves kept).1 x (.refl x)
    | none => exact Option.isSome_iff_ne_none.2 (notUnknown kept)
  · exact (sound stop leaves kept).1 target further

theorem contribution_of_kept {leaves : List String} (kept : r.kept? name = some leaves) :
    r.contribution name = leaves := by
  simp [contribution, kept]

theorem mem_contribution_of_not_kept (kept : r.kept? name = none) :
    leaf ∈ r.contribution name ↔ name = .text leaf ∧ r.registry.Atomic name := by
  cases found : r.registry.find? name with
  | none => simp [contribution, kept, found, Registry.Atomic]
  | some d =>
    cases name with
    | text own =>
      cases plain : d.isAggregate
      · have atomic : r.registry.Atomic (.text own) := ⟨d, found, plain⟩
        simp only [contribution, kept, found, plain, atomic, and_true, Scalar.text.injEq]
        exact List.mem_singleton.trans eq_comm
      · simp [contribution, kept, found, plain, Registry.Atomic]
    | _ => simp [Registry.find?] at found

/-- What the met names contribute are the leaves. -/
theorem mem_contributions (sound : r.Sound) :
    (∃ x ∈ r.met name, leaf ∈ r.contribution x) ↔ LeafOf r.registry name leaf := by
  constructor
  · rintro ⟨x, member, contributed⟩
    have reached := reaches_of_following (contains_met.1 (NameSet.contains_of_mem member))
    refine .of_reaches reached ?_
    cases kept : r.kept? x with
    | some leaves =>
      rw [contribution_of_kept kept] at contributed
      exact ((sound x leaves kept).2 leaf).1 contributed
    | none =>
      obtain ⟨rfl, atomic⟩ := (mem_contribution_of_not_kept kept).1 contributed
      exact ⟨.refl _, atomic⟩
  · rintro ⟨reached, atomic⟩
    rcases following_or_kept reached with met | ⟨stop, leaves, met, kept, further⟩
    · refine ⟨.text leaf, NameSet.contains_text.1 (contains_met.2 met), ?_⟩
      cases kept : r.kept? (.text leaf) with
      | some leaves =>
        rw [contribution_of_kept kept]
        exact ((sound _ leaves kept).2 leaf).2 ⟨.refl _, atomic⟩
      | none => exact (mem_contribution_of_not_kept kept).2 ⟨rfl, atomic⟩
    · obtain ⟨x, member, same⟩ := NameSet.contains_iff.1 (contains_met.2 met)
      rw [← kept?_congr same] at kept
      refine ⟨x, member, ?_⟩
      rw [contribution_of_kept kept]
      exact ((sound x leaves kept).2 leaf).2 ⟨(Reaches.here same).trans further, atomic⟩

theorem kept?_keep {leaves : List String} {other : Scalar} {found : List String}
    (h : (r.keep name leaves).kept? other = some found) :
    (name.same other = true ∧ found = leaves) ∨ r.kept? other = some found := by
  cases name with
  | text s =>
    cases other with
    | text t =>
      simp only [keep, kept?, Entries.find?_insert] at h
      split at h
      next same =>
        subst same
        cases h
        exact .inl ⟨Scalar.same_refl _, rfl⟩
      next => exact .inr h
    | _ => simp [kept?] at h
  | _ => exact .inr h

theorem registry_keep (leaves : List String) : (r.keep name leaves).registry = r.registry := by
  cases name <;> rfl

theorem Sound.keep (sound : r.Sound) {leaves : List String}
    (resolvable : Resolvable r.registry name)
    (right : ∀ leaf, leaf ∈ leaves ↔ LeafOf r.registry name leaf) : (r.keep name leaves).Sound := by
  intro other found kept
  rw [registry_keep]
  rcases kept?_keep kept with ⟨same, rfl⟩ | before
  · refine ⟨resolvable.of_reaches (.here same), fun leaf => ?_⟩
    rw [right leaf]
    exact ⟨.of_reaches (.here (Scalar.same_symm same)), .of_reaches (.here same)⟩
  · exact sound other found before

theorem closureOf_of_kept {leaves : List String} (kept : r.kept? name = some leaves) :
    r.closureOf name = (.ok leaves, r) := by
  rw [closureOf, kept]

theorem closureOf_of_unknown {unknown : Scalar} (kept : r.kept? name = none)
    (found : (r.met name).find? r.isUnknown = some unknown) :
    r.closureOf name = (.error (.unknownDeclaredAggregate unknown), r) := by
  simp [closureOf, kept, found]

theorem closureOf_of_known (kept : r.kept? name = none)
    (known : (r.met name).find? r.isUnknown = none) :
    r.closureOf name = (.ok (((r.met name).map r.contribution).foldl joinNames []),
      r.keep name (((r.met name).map r.contribution).foldl joinNames [])) := by
  simp [closureOf, kept, known]

theorem answers_singleton {leaves : List String} :
    Answers registry [name] (.ok leaves) ↔ Resolvable registry name ∧
      ∀ leaf, leaf ∈ leaves ↔ LeafOf registry name leaf := by
  simp [Answers]

/-- A closure asked of a sound resolver is right, and leaves it sound. -/
theorem closureOf_spec (sound : r.Sound) (name : Scalar) :
    Answers r.registry [name] (r.closureOf name).1 ∧
      (r.closureOf name).2.registry = r.registry ∧ (r.closureOf name).2.Sound := by
  cases kept : r.kept? name with
  | some leaves =>
    rw [closureOf_of_kept kept]
    exact ⟨answers_singleton.2 (sound name leaves kept), rfl, sound⟩
  | none =>
    cases unknown : (r.met name).find? r.isUnknown with
    | some u =>
      rw [closureOf_of_unknown kept unknown]
      have member := List.mem_of_find?_eq_some unknown
      have reached := reaches_of_following (contains_met.1 (NameSet.contains_of_mem member))
      have missing := List.find?_some unknown
      simp only [isUnknown, Bool.and_eq_true, Option.isNone_iff_eq_none] at missing
      refine ⟨⟨name, List.mem_cons_self, u, rfl, reached, ?_⟩, rfl, sound⟩
      simp [Registry.Registered, missing.2]
    | none =>
      rw [closureOf_of_known kept unknown]
      have resolvable := resolvable_of_met sound unknown
      have right : ∀ leaf, leaf ∈ ((r.met name).map r.contribution).foldl joinNames [] ↔
          LeafOf r.registry name leaf := by
        intro leaf
        rw [mem_foldl_joinNames, ← mem_contributions sound]
        constructor
        · rintro (none | ⟨list, member, here⟩)
          · exact absurd none List.not_mem_nil
          · obtain ⟨x, met, rfl⟩ := List.mem_map.1 member
            exact ⟨x, met, here⟩
        · rintro ⟨x, met, here⟩
          exact .inr ⟨_, List.mem_map_of_mem met, here⟩
      exact ⟨answers_singleton.2 ⟨resolvable, right⟩, registry_keep _, sound.keep resolvable right⟩

/-- The leaves of names, joined to leaves found so far. -/
theorem resolveFrom_spec (sound : r.Sound) (leaves : List String) (names : List Scalar) :
    (match (r.resolveFrom leaves names).1 with
      | .ok all => (∀ name ∈ names, Resolvable r.registry name) ∧
          ∀ leaf, leaf ∈ all ↔ leaf ∈ leaves ∨ ∃ name ∈ names, LeafOf r.registry name leaf
      | .error breach => Answers r.registry names (.error breach)) ∧
      (r.resolveFrom leaves names).2.registry = r.registry ∧
      (r.resolveFrom leaves names).2.Sound := by
  induction names generalizing r leaves with
  | nil => exact ⟨by simp [resolveFrom], rfl, sound⟩
  | cons name rest ih =>
    obtain ⟨answer, same, sound'⟩ := closureOf_spec sound name
    rw [resolveFrom]
    generalize r.closureOf name = outcome at *
    obtain ⟨result, later⟩ := outcome
    cases result with
    | error breach =>
      obtain ⟨n, member, rest⟩ := answer
      exact ⟨⟨n, by simp_all, rest⟩, same, sound'⟩
    | ok found =>
      simp only [Answers, List.mem_singleton, forall_eq, exists_eq_left] at answer
      simp only at same sound'
      obtain ⟨final, kept, sound''⟩ := ih sound' (joinNames leaves found)
      rw [same] at final kept
      refine ⟨?_, kept, sound''⟩
      simp only at final ⊢
      generalize (later.resolveFrom (joinNames leaves found) rest).1 = outcome at *
      cases outcome with
      | error breach =>
        obtain ⟨n, member, rest⟩ := final
        exact ⟨n, List.mem_cons_of_mem _ member, rest⟩
      | ok all =>
        refine ⟨by simpa using ⟨answer.1, final.1⟩, fun leaf => ?_⟩
        rw [final.2 leaf, mem_joinNames, answer.2 leaf]
        simp [or_assoc]

/-- What a sound resolver answers is right, and asking keeps it sound. -/
theorem resolve_spec (sound : r.Sound) (names : List Scalar) :
    Answers r.registry names (r.resolve names).1 ∧
      (r.resolve names).2.registry = r.registry ∧ (r.resolve names).2.Sound := by
  obtain ⟨answer, rest⟩ := resolveFrom_spec sound [] names
  refine ⟨?_, rest⟩
  rw [resolve]
  generalize (r.resolveFrom [] names).1 = outcome at *
  cases outcome with
  | ok leaves => simpa [Answers] using answer
  | error breach => exact answer

end Resolver

/-- Names that can be resolved are. -/
theorem resolve_ok {r : Resolver} (sound : r.Sound) (names : List Scalar)
    (resolvable : ∀ n ∈ names, Resolvable r.registry n) :
    ∃ leaves, (r.resolve names).1 = .ok leaves := by
  have answer := (Resolver.resolve_spec sound names).1
  cases outcome : (r.resolve names).1 with
  | ok leaves => exact ⟨leaves, rfl⟩
  | error breach =>
    rw [outcome] at answer
    obtain ⟨n, member, unknown, -, reached, missing⟩ := answer
    exact absurd (resolvable n member unknown reached) missing

/-- The leaf closure of names is the set of atomic names reached from them. -/
theorem resolve_answers (registry : Registry) (names : List Scalar) :
    Answers registry names (resolve registry names) :=
  (Resolver.resolve_spec (Resolver.sound_empty registry) names).1

end Aggregation

end PrivilegeStore
