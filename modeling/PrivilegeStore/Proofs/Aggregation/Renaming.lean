import PrivilegeStore.Proofs.Aggregation.Demands
import PrivilegeStore.Proofs.Definition.Renaming

/-!
# The graph under new names

A renaming is one to one, so what is asked of names in the graph of a registry can be asked of the
new names in the renamed graph: a property of names is carried to the new names, and quantifiers
over the names that have it are carried along. Members, reach, leaves and owners are carried, and
from these the condition under which a definition is acceptable is put together.
-/
namespace PrivilegeStore

open Aggregation

namespace Renaming

/-- A property is carried to the new names of the names that have it. -/
structure Carries (ρ : Renaming) (old new : String → Prop) : Prop where
  covered : ∀ n, old n → ρ.covers n
  holds_iff : ∀ name, new name ↔ ∃ n, old n ∧ name = ρ n

namespace Carries

variable {ρ : Renaming} {old new old' new' rest rest' : String → Prop} {n : String}

theorem new_iff (carries : ρ.Carries old new) (hn : ρ.covers n) : new (ρ n) ↔ old n := by
  rw [carries.holds_iff]
  constructor
  · rintro ⟨m, holds, same⟩
    rwa [ρ.injective n m hn (carries.covered m holds) same]
  · exact fun holds => ⟨n, holds, rfl⟩

theorem exists_iff (carries : ρ.Carries old new)
    (same : ∀ n, ρ.covers n → (rest' (ρ n) ↔ rest n)) :
    (∃ name, new name ∧ rest' name) ↔ ∃ n, old n ∧ rest n := by
  constructor
  · rintro ⟨name, there, more⟩
    obtain ⟨n, holds, rfl⟩ := (carries.holds_iff name).1 there
    exact ⟨n, holds, (same n (carries.covered n holds)).1 more⟩
  · rintro ⟨n, holds, more⟩
    have hn := carries.covered n holds
    exact ⟨ρ n, (carries.new_iff hn).2 holds, (same n hn).2 more⟩

theorem forall_iff (carries : ρ.Carries old new)
    (same : ∀ n, ρ.covers n → (rest' (ρ n) ↔ rest n)) :
    (∀ name, new name → rest' name) ↔ ∀ n, old n → rest n := by
  constructor
  · intro all n holds
    have hn := carries.covered n holds
    exact (same n hn).1 (all (ρ n) ((carries.new_iff hn).2 holds))
  · intro all name there
    obtain ⟨n, holds, rfl⟩ := (carries.holds_iff name).1 there
    exact (same n (carries.covered n holds)).2 (all n holds)

/-- The same new names have two properties exactly if the same names had them. -/
theorem same_iff (carries : ρ.Carries old new) (carries' : ρ.Carries old' new') :
    (∀ name, new name ↔ new' name) ↔ ∀ n, old n ↔ old' n := by
  have parts {p q : String → Prop} : (∀ n, p n ↔ q n) ↔ (∀ n, p n → q n) ∧ ∀ n, q n → p n := by
    simp only [iff_iff_implies_and_implies, forall_and]
  rw [parts, parts, carries.forall_iff fun _ hn => carries'.new_iff hn,
    carries'.forall_iff fun _ hn => carries.new_iff hn]

theorem mem {names : List String} (covered : ∀ n ∈ names, ρ.covers n) :
    ρ.Carries (· ∈ names) (· ∈ names.map ρ) where
  covered := covered
  holds_iff name := by simp only [List.mem_map, eq_comm]

end Carries

/-- Bits are the union of the owners' bits under the new names as they were under the old ones. -/
theorem isUnion_iff {ρ : Renaming} {v w : View} {names : List String} {bits : Bits}
    (owners : ∀ bits, ρ.Carries (fun n => v.Owns n bits) fun name => w.Owns name bits)
    (covered : ∀ n ∈ names, ρ.covers n) : IsUnion w (names.map ρ) bits ↔ IsUnion v names bits := by
  refine forall_congr' fun position => iff_congr Iff.rfl ?_
  refine (Carries.mem covered).exists_iff fun m hm => exists_congr fun stored => ?_
  exact and_congr_left fun _ => (owners stored).new_iff hm

/-- A definition under its new name, with the new names of its members. -/
def definition (ρ : Renaming) (d : Definition) : Definition :=
  ⟨ρ d.name, d.members.map ρ.scalar, d.isAbstract⟩

/-- A registry holds the definitions of another one under their new names. -/
structure Registries (ρ : Renaming) (left right : Registry) : Prop where
  covered : ∀ n d, left.find? (.text n) = some d → ρ.covers n ∧ d.Covered ρ
  found : ∀ n, ρ.covers n → right.find? (.text (ρ n)) = (left.find? (.text n)).map ρ.definition
  back : ∀ name d, right.find? (.text name) = some d → ∃ n, ρ.covers n ∧ name = ρ n

namespace Registries

variable {ρ : Renaming} {left right : Registry} (renamed : ρ.Registries left right)
  {name n m : String} {names others : List String} {target : Scalar}

include renamed

theorem registered : ρ.Carries (fun n => left.Registered (.text n))
    fun name => right.Registered (.text name) where
  covered n known := by
    obtain ⟨d, found⟩ := Option.isSome_iff_exists.1 known
    exact (renamed.covered n d found).1
  holds_iff name := by
    constructor
    · intro known
      obtain ⟨d, found⟩ := Option.isSome_iff_exists.1 known
      obtain ⟨n, hn, rfl⟩ := renamed.back name d found
      rw [Registry.Registered, renamed.found n hn, Option.isSome_map] at known
      exact ⟨n, known, rfl⟩
    · rintro ⟨n, known, rfl⟩
      obtain ⟨d, found⟩ := Option.isSome_iff_exists.1 known
      rw [Registry.Registered, renamed.found n (renamed.covered n d found).1, Option.isSome_map]
      exact known

theorem membersOf_new (hn : ρ.covers n) :
    right.membersOf (.text (ρ n)) = (left.membersOf (.text n)).map ρ.scalar := by
  rw [Registry.membersOf, Registry.membersOf, renamed.found n hn]
  cases left.find? (.text n) <;> rfl

/-- Members are covered texts. -/
theorem texts_of_membersOf (n : String) : ∃ names : List String,
    left.membersOf (.text n) = names.map Scalar.text ∧ ∀ m ∈ names, ρ.covers m := by
  cases found : left.find? (.text n) with
  | none => exact ⟨[], by simp [Registry.membersOf, found], by simp⟩
  | some d =>
    rw [Registry.membersOf_of_find? found]
    exact (renamed.covered n d found).2.texts

/-- What is reached from a covered name is a covered text, and its new name is reached from the
new name. -/
theorem reaches_covered (hn : ρ.covers n)
    (reached : Reaches left.membersOf (.text n) target) : ∃ m, ρ.covers m ∧ target = .text m ∧
      Reaches right.membersOf (.text (ρ n)) (.text (ρ m)) := by
  induction reached with
  | here same => exact ⟨n, hn, Scalar.same_text.1 (Scalar.same_symm same), .refl _⟩
  | member _ declared ih =>
    obtain ⟨middle, hm, rfl, before⟩ := ih
    obtain ⟨names, members, covered⟩ := renamed.texts_of_membersOf middle
    rw [members, NameSet.contains_map_text] at declared
    obtain ⟨m, member, rfl⟩ := declared
    refine ⟨m, covered m member, rfl, .member before ?_⟩
    rw [renamed.membersOf_new hm, members, map_text, NameSet.contains_map_text]
    exact ⟨ρ m, List.mem_map_of_mem member, rfl⟩

/-- Nothing else is reached from a new name. -/
theorem reaches_new (hn : ρ.covers n)
    (reached : Reaches right.membersOf (.text (ρ n)) target) : ∃ m, ρ.covers m ∧
      target = .text (ρ m) ∧ Reaches left.membersOf (.text n) (.text m) := by
  induction reached with
  | here same => exact ⟨n, hn, Scalar.same_text.1 (Scalar.same_symm same), .refl _⟩
  | member _ declared ih =>
    obtain ⟨middle, hm, rfl, before⟩ := ih
    obtain ⟨names, members, covered⟩ := renamed.texts_of_membersOf middle
    rw [renamed.membersOf_new hm, members, map_text, NameSet.contains_map_text] at declared
    obtain ⟨_, there, rfl⟩ := declared
    obtain ⟨m, member, rfl⟩ := List.mem_map.1 there
    refine ⟨m, covered m member, rfl, .member before ?_⟩
    rw [members, NameSet.contains_map_text]
    exact ⟨m, member, rfl⟩

theorem reaches (hn : ρ.covers n) :
    ρ.Carries (fun m => Reaches left.membersOf (.text n) (.text m))
      fun name => Reaches right.membersOf (.text (ρ n)) (.text name) where
  covered m reached := by
    obtain ⟨_, hm, same, -⟩ := renamed.reaches_covered hn reached
    cases same
    exact hm
  holds_iff name := by
    constructor
    · intro reached
      obtain ⟨m, -, same, before⟩ := renamed.reaches_new hn reached
      cases same
      exact ⟨m, before, rfl⟩
    · rintro ⟨m, reached, rfl⟩
      obtain ⟨_, -, same, after⟩ := renamed.reaches_covered hn reached
      cases same
      exact after

theorem resolvable_iff (hn : ρ.covers n) :
    Resolvable right (.text (ρ n)) ↔ Resolvable left (.text n) := by
  have texts : Resolvable left (.text n) ↔
      ∀ m, Reaches left.membersOf (.text n) (.text m) → left.Registered (.text m) := by
    refine ⟨fun all m => all (.text m), fun all target reached => ?_⟩
    obtain ⟨m, -, rfl, -⟩ := renamed.reaches_covered hn reached
    exact all m reached
  have texts' : Resolvable right (.text (ρ n)) ↔ ∀ name,
      Reaches right.membersOf (.text (ρ n)) (.text name) → right.Registered (.text name) := by
    refine ⟨fun all m => all (.text m), fun all target reached => ?_⟩
    obtain ⟨m, -, rfl, -⟩ := renamed.reaches_new hn reached
    exact all (ρ m) reached
  rw [texts, texts']
  exact (renamed.reaches hn).forall_iff fun _ hm => renamed.registered.new_iff hm

theorem atomic_iff (hn : ρ.covers n) : right.Atomic (.text (ρ n)) ↔ left.Atomic (.text n) := by
  rw [Registry.Atomic, Registry.Atomic, renamed.found n hn]
  cases left.find? (.text n) with
  | none => simp
  | some d => simp [Definition.isAggregate, definition]

/-- The leaves of names are carried to the leaves of their new names. -/
theorem leaves (covered : ∀ n ∈ names, ρ.covers n) :
    ρ.Carries (fun leaf => ∃ a ∈ names.map Scalar.text, LeafOf left a leaf)
      fun leaf => ∃ a ∈ (names.map ρ).map Scalar.text, LeafOf right a leaf where
  covered leaf := by
    rintro ⟨_, there, reached, -⟩
    obtain ⟨n, member, rfl⟩ := List.mem_map.1 there
    exact (renamed.reaches (covered n member)).covered leaf reached
  holds_iff leaf := by
    rw [List.map_map]
    constructor
    · rintro ⟨_, there, reached, atomic⟩
      obtain ⟨n, member, rfl⟩ := List.mem_map.1 there
      have hn := covered n member
      obtain ⟨m, before, rfl⟩ := ((renamed.reaches hn).holds_iff leaf).1 reached
      have hm := (renamed.reaches hn).covered m before
      exact ⟨m, ⟨_, List.mem_map_of_mem member, before, (renamed.atomic_iff hm).1 atomic⟩, rfl⟩
    · rintro ⟨m, ⟨_, there, before, atomic⟩, rfl⟩
      obtain ⟨n, member, rfl⟩ := List.mem_map.1 there
      have hn := covered n member
      have hm := (renamed.reaches hn).covered m before
      exact ⟨_, List.mem_map_of_mem member, ((renamed.reaches hn).new_iff hm).2 before,
        (renamed.atomic_iff hm).2 atomic⟩

theorem sameLeaves_iff (covered : ∀ n ∈ names, ρ.covers n) (covered' : ∀ n ∈ others, ρ.covers n) :
    SameLeaves right ((names.map ρ).map .text) ((others.map ρ).map .text) ↔
      SameLeaves left (names.map .text) (others.map .text) :=
  (renamed.leaves covered).same_iff (renamed.leaves covered')

/-- Whether names have members does not change. -/
theorem aggregates : ρ.Carries (fun n => left.membersOf (.text n) ≠ [])
    fun name => right.membersOf (.text name) ≠ [] where
  covered n aggregate := by
    obtain ⟨m, member⟩ := List.exists_mem_of_ne_nil _ aggregate
    exact renamed.registered.covered n (registered_of_mem member)
  holds_iff name := by
    constructor
    · intro aggregate
      obtain ⟨m, member⟩ := List.exists_mem_of_ne_nil _ aggregate
      obtain ⟨n, known, rfl⟩ := (renamed.registered.holds_iff name).1 (registered_of_mem member)
      rw [renamed.membersOf_new (renamed.registered.covered n known)] at aggregate
      exact ⟨n, fun none => aggregate (by rw [none, List.map_nil]), rfl⟩
    · rintro ⟨n, aggregate, rfl⟩ none
      obtain ⟨m, member⟩ := List.exists_mem_of_ne_nil _ aggregate
      have hn := renamed.registered.covered n (registered_of_mem member)
      rw [renamed.membersOf_new hn, List.map_eq_nil_iff] at none
      exact aggregate none

/-- Whether names are the members of a name does not change. -/
theorem sameMembers_iff (covered : ∀ n ∈ names, ρ.covers n) (hn : ρ.covers n) :
    (∀ a, a ∈ (names.map ρ).map Scalar.text ↔ a ∈ right.membersOf (.text (ρ n))) ↔
      ∀ a, a ∈ names.map Scalar.text ↔ a ∈ left.membersOf (.text n) := by
  obtain ⟨others, members, covered'⟩ := renamed.texts_of_membersOf n
  have texts (xs ys : List String) : (∀ a, a ∈ xs.map Scalar.text ↔ a ∈ ys.map Scalar.text) ↔
      ∀ m, m ∈ xs ↔ m ∈ ys := by
    refine ⟨fun same m => by simpa using same (.text m), fun same a => ?_⟩
    simp only [List.mem_map, same]
  rw [renamed.membersOf_new hn, members, map_text, texts, texts]
  exact (Carries.mem covered).same_iff (Carries.mem covered')

section Store

variable {v w : View} {counter bits : Bits}
  (owners : ∀ bits, ρ.Carries (fun n => v.Owns n bits) fun name => w.Owns name bits)

include owners

theorem aggregateRules_iff (hn : ρ.covers name) (covered : ∀ n ∈ names, ρ.covers n) :
    AggregateRules w right (ρ name) (names.map ρ) bits ↔ AggregateRules v left name names bits := by
  have members := Carries.mem covered
  have registered : (∀ m ∈ names.map ρ, right.Registered (.text m)) ↔
      ∀ m ∈ names, left.Registered (.text m) :=
    members.forall_iff fun _ => renamed.registered.new_iff
  have apart : (∀ m ∈ names.map ρ, ¬ Reaches right.membersOf (.text m) (.text (ρ name))) ↔
      ∀ m ∈ names, ¬ Reaches left.membersOf (.text m) (.text name) :=
    members.forall_iff fun _ hm => not_congr ((renamed.reaches hm).new_iff hn)
  have resolvable : (∀ m ∈ names.map ρ, Resolvable right (.text m)) ↔
      ∀ m ∈ names, Resolvable left (.text m) :=
    members.forall_iff fun _ => renamed.resolvable_iff
  have union : IsUnion w (names.map ρ) bits ↔ IsUnion v names bits := isUnion_iff owners covered
  have rivals : (∀ other, right.membersOf (.text other) ≠ [] → Resolvable right (.text other) ∧
        (¬ ∀ a, a ∈ (names.map ρ).map Scalar.text ↔ a ∈ right.membersOf (.text other)) ∧
        ¬ SameLeaves right ((names.map ρ).map .text) [.text other]) ↔
      ∀ other, left.membersOf (.text other) ≠ [] → Resolvable left (.text other) ∧
        (¬ ∀ a, a ∈ names.map Scalar.text ↔ a ∈ left.membersOf (.text other)) ∧
        ¬ SameLeaves left (names.map .text) [.text other] := by
    refine renamed.aggregates.forall_iff fun other ho => ?_
    have leaves : SameLeaves right ((names.map ρ).map .text) (([other].map ρ).map .text) ↔
        SameLeaves left (names.map .text) ([other].map .text) :=
      renamed.sameLeaves_iff covered (by simpa using ho)
    exact and_congr (renamed.resolvable_iff ho)
      (and_congr (not_congr (renamed.sameMembers_iff covered ho)) (not_congr leaves))
  constructor
  · intro rules
    exact ⟨by simpa using rules.enough, registered.1 rules.registered,
      ⟨fun own => rules.foreign.1 ((members.new_iff hn).2 own), apart.1 rules.foreign.2⟩,
      resolvable.1 rules.resolvable, union.1 rules.union, rivals.1 rules.rivals⟩
  · intro rules
    exact ⟨by simpa using rules.enough, registered.2 rules.registered,
      ⟨fun own => rules.foreign.1 ((members.new_iff hn).1 own), apart.2 rules.foreign.2⟩,
      resolvable.2 rules.resolvable, union.2 rules.union, rivals.2 rules.rivals⟩

theorem acceptable_iff (hn : ρ.covers name) (covered : ∀ n ∈ names, ρ.covers n) :
    Acceptable w right (ρ name) (names.map ρ) counter bits ↔
      Acceptable v left name names counter bits := by
  have owned : (∃ owner, w.Owns owner bits) ↔ ∃ owner, v.Owns owner bits := by
    have carried : (∃ name, w.Owns name bits ∧ True) ↔ ∃ n, v.Owns n bits ∧ True :=
      (owners bits).exists_iff fun _ _ => Iff.rfl
    simpa only [and_true] using carried
  rw [Acceptable, Acceptable, List.map_eq_nil_iff, owned,
    renamed.aggregateRules_iff owners hn covered]

end Store

end Registries

end Renaming

end PrivilegeStore
