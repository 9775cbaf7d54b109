import Mathlib.Data.List.Forall2
import PrivilegeStore.Proofs.Aggregation.Eligibility
import PrivilegeStore.Proofs.Definition.Alike

/-!
# Registries with the same graph

Two registries that retain each other have the same graph, in whatever order they list their names
and the members of these. The walks over the two graphs may then meet names in different order, and
may end at kept closures at different places. They answer alike all the same, but for the name that
is reported where a closure is not known: it is the first unregistered one that is met.
-/
namespace PrivilegeStore

/-- A breach, without the name by which an unknown member is reported. -/
def Breach.account : Breach → Breach
  | .unknownDeclaredAggregate _ => .unknownDeclaredAggregate .null
  | breach => breach

namespace Breach

variable {breach other : Breach}

@[simp] theorem rule_account (breach : Breach) : breach.account.rule = breach.rule := by
  cases breach <;> rfl

theorem eq_of_account (same : breach.account = other.account)
    (known : breach.rule ≠ .unknownDeclaredAggregate) : breach = other := by
  cases breach <;> cases other <;> simp_all [account, rule]

end Breach

namespace NameSet

theorem sameAs_of_mem {names others : NameSet} (same : ∀ a, a ∈ names ↔ a ∈ others) :
    sameAs names others = true := by
  refine sameAs_iff.2 fun a => ?_
  simp only [contains_iff, same]

theorem sameAs_congr {names others names' others' : NameSet} (left : sameAs names names' = true)
    (right : sameAs others others' = true) : sameAs names others = sameAs names' others' := by
  rw [sameAs_iff] at left right
  rw [Bool.eq_iff_iff, sameAs_iff, sameAs_iff]
  exact forall_congr' fun a => by rw [left a, right a]

end NameSet

theorem Definition.Alike.isAggregate {d e : Definition} (alike : d.Alike e) :
    d.isAggregate = e.isAggregate := by
  have same := NameSet.sameAs_iff.1 alike.members
  have empty : d.members = [] ↔ e.members = [] := by
    rw [NameSet.eq_nil_iff, NameSet.eq_nil_iff]
    exact forall_congr' fun a => by rw [same a]
  rw [Definition.isAggregate, Definition.isAggregate, Bool.eq_iff_iff]
  simp [empty]

namespace Aggregation

/-- Two registries register the same names with the same sets of members. -/
structure Coincide (left right : Registry) : Prop where
  there : Retains left right
  back : Retains right left

variable {left right : Registry} {a b : Scalar} {names others : NameSet} {name : String}

namespace Coincide

theorem refl (registry : Registry) : Coincide registry registry where
  there := ⟨fun _ known => known, fun _ _ _ => Iff.rfl⟩
  back := ⟨fun _ known => known, fun _ _ _ => Iff.rfl⟩

variable (coincide : Coincide left right)

include coincide

theorem registered_iff : left.Registered a ↔ right.Registered a :=
  ⟨coincide.there.registered a, coincide.back.registered a⟩

theorem reaches_iff : Reaches left.membersOf a b ↔ Reaches right.membersOf a b :=
  ⟨coincide.there.reaches, coincide.back.reaches⟩

theorem atomic_iff : left.Atomic a ↔ right.Atomic a := by
  constructor <;> intro atomic
  · exact (coincide.there.atomic_iff (Aggregation.atomic_iff.1 atomic).1).2 atomic
  · exact (coincide.back.atomic_iff (Aggregation.atomic_iff.1 atomic).1).2 atomic

theorem leafOf_iff {leaf : String} : LeafOf left a leaf ↔ LeafOf right a leaf := by
  rw [LeafOf, LeafOf, coincide.reaches_iff, coincide.atomic_iff]

theorem isCircular_eq : isCircular left a b = isCircular right a b := by
  rw [Bool.eq_iff_iff, isCircular_iff, isCircular_iff, coincide.reaches_iff]

theorem memberBreach?_eq (members : List Scalar) :
    memberBreach? left name members = memberBreach? right name members := by
  induction members with
  | nil => rfl
  | cons m rest ih =>
    have known : (left.find? m).isNone = (right.find? m).isNone := by
      rw [← Bool.not_inj_iff, Option.not_isNone, Option.not_isNone, Bool.eq_iff_iff]
      exact coincide.registered_iff
    rw [memberBreach?, memberBreach?, coincide.isCircular_eq, known, ih]

end Coincide

/-- What is reached from some of the names is reached from some of the same names. -/
theorem exists_reaches_congr {next : Scalar → NameSet} (same : NameSet.sameAs names others = true)
    {target : Scalar} :
    (∃ n ∈ names, Reaches next n target) ↔ ∃ n ∈ others, Reaches next n target := by
  have held := NameSet.sameAs_iff.1 same
  constructor
  · rintro ⟨n, member, reached⟩
    obtain ⟨m, other, equal⟩ :=
      NameSet.contains_iff.1 ((held n).1 (NameSet.contains_of_mem member))
    exact ⟨m, other, .trans (.here equal) reached⟩
  · rintro ⟨n, member, reached⟩
    obtain ⟨m, other, equal⟩ :=
      NameSet.contains_iff.1 ((held n).2 (NameSet.contains_of_mem member))
    exact ⟨m, other, .trans (.here equal) reached⟩

/-- Two answers hold the same leaves, or both report an unknown name. -/
def Alike : Except Breach (List String) → Except Breach (List String) → Prop
  | .ok leaves, .ok others => ∀ leaf, leaf ∈ leaves ↔ leaf ∈ others
  | .error breach, .error other => breach.account = other.account
  | _, _ => False

/-- An answer is no closure if something reached is not registered. -/
theorem Answers.not_ok {registry : Registry} {leaves : List String} {unknown : Scalar}
    (answers : Answers registry names (.ok leaves))
    (reached : ∃ n ∈ names, Reaches registry.membersOf n unknown) :
    registry.Registered unknown := by
  obtain ⟨n, member, reached⟩ := reached
  exact answers.1 n member unknown reached

/-- Right answers to one question about the same graph are alike. -/
theorem Answers.alike (coincide : Coincide left right) (same : NameSet.sameAs names others = true)
    {x y : Except Breach (List String)} (hx : Answers left names x) (hy : Answers right others y) :
    Alike x y := by
  cases x with
  | ok leaves =>
    cases y with
    | ok leaves' =>
      intro leaf
      rw [hx.2 leaf, hy.2 leaf, sameLeaves_of_sameAs same leaf]
      simp only [coincide.leafOf_iff]
    | error breach =>
      obtain ⟨n, member, unknown, -, reached, missing⟩ := hy
      rw [← coincide.registered_iff] at missing
      refine missing (hx.not_ok ((exists_reaches_congr same).2 ⟨n, member, ?_⟩))
      exact coincide.reaches_iff.2 reached
  | error breach =>
    obtain ⟨n, member, unknown, rfl, reached, missing⟩ := hx
    cases y with
    | ok leaves =>
      rw [coincide.registered_iff] at missing
      refine missing (hy.not_ok ((exists_reaches_congr same).1 ⟨n, member, ?_⟩))
      exact coincide.reaches_iff.1 reached
    | error other =>
      obtain ⟨-, -, -, rfl, -, -⟩ := hy
      rfl

/-- Sound resolvers of registries with the same graph answer alike. -/
theorem resolve_alike {r s : Resolver} (soundR : r.Sound) (soundS : s.Sound)
    (coincide : Coincide r.registry s.registry) (same : NameSet.sameAs names others = true) :
    Alike (r.resolve names).1 (s.resolve others).1 :=
  Answers.alike coincide same (Resolver.resolve_spec soundR names).1
    (Resolver.resolve_spec soundS others).1

theorem sameNames_congr {leaves leaves' others others' : List String}
    (left : ∀ leaf, leaf ∈ leaves ↔ leaf ∈ leaves')
    (right : ∀ leaf, leaf ∈ others ↔ leaf ∈ others') :
    sameNames leaves others = sameNames leaves' others' := by
  apply Bool.eq_iff_iff.2
  rw [sameNames_iff, sameNames_iff]
  exact forall_congr' fun leaf => by rw [left leaf, right leaf]

/-- The comparison with registered aggregates comes to the same for registries with the same graph,
if these are compared in the same order. -/
theorem checkEquivalents_agree {r s : Resolver} (soundR : r.Sound) (soundS : s.Sound)
    (coincide : Coincide r.registry s.registry) (name : String)
    (same : NameSet.sameAs names others = true) {leaves leaves' : List String}
    (alike : ∀ leaf, leaf ∈ leaves ↔ leaf ∈ leaves') {existing existing' : List Definition}
    (paired : List.Forall₂ Definition.Alike existing existing') :
    (checkEquivalents r name names leaves existing).1.mapError Breach.account =
      (checkEquivalents s name others leaves' existing').1.mapError Breach.account := by
  induction paired generalizing r s with
  | nil => rfl
  | @cons d e rest rest' pair _ ih =>
    rw [checkEquivalents, checkEquivalents, pair.isAggregate, pair.name,
      NameSet.sameAs_congr same pair.members]
    split
    · exact ih soundR soundS coincide
    · split
      · rfl
      · have answers := resolve_alike soundR soundS coincide pair.members
        obtain ⟨-, keptR, soundR'⟩ := Resolver.resolve_spec soundR d.members
        obtain ⟨-, keptS, soundS'⟩ := Resolver.resolve_spec soundS e.members
        generalize r.resolve d.members = first at *
        generalize s.resolve e.members = second at *
        obtain ⟨resultR, laterR⟩ := first
        obtain ⟨resultS, laterS⟩ := second
        simp only at answers keptR keptS soundR' soundS' ⊢
        cases resultR with
        | error breach =>
          cases resultS with
          | error other => exact congrArg Except.error answers
          | ok found => exact answers.elim
        | ok found =>
          cases resultS with
          | error other => exact answers.elim
          | ok found' =>
            simp only
            rw [sameNames_congr alike answers]
            split
            · rfl
            · exact ih soundR' soundS' (by rwa [keptR, keptS])

end Aggregation

end PrivilegeStore
