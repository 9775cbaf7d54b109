import PrivilegeStore.Proofs.Aggregation.Eligibility
import PrivilegeStore.Proofs.Aggregation.Opening

/-!
# The demands on a definition, in their order

The rules on a new definition are written down as a list of demands about the graph, the bits and
the counter, without a walk and without anything kept. An admission refuses a definition for the
first demand that is broken and accepts it if there is none (`judge_follows`), whatever it has
judged before. The demands are tried one by one in the code, so the proof goes along the list:
`Ruling.Follows.next` passes a demand that is kept, and `Ruling.Follows.append` a part of the list.
-/
namespace PrivilegeStore

namespace Aggregation

/-- A condition under which a definition is refused, and the rule that is reported. -/
structure Demand where
  rule : Rule
  broken : Prop

/-- `found` is the rule of the first demand that is broken; there is none if all are kept. -/
inductive FirstBroken : List Demand → Option Rule → Prop
  | done : FirstBroken [] none
  | here {demand : Demand} {rest : List Demand} (broken : demand.broken) :
      FirstBroken (demand :: rest) (some demand.rule)
  | later {demand : Demand} {rest : List Demand} {found : Option Rule} (kept : ¬ demand.broken)
      (first : FirstBroken rest found) : FirstBroken (demand :: rest) found

namespace FirstBroken

variable {demands first rest : List Demand} {found other : Option Rule}

theorem unique (h : FirstBroken demands found) (h' : FirstBroken demands other) :
    found = other := by
  induction h with
  | done => cases h'; rfl
  | here broken =>
    cases h' with
    | here => rfl
    | later kept => exact absurd broken kept
  | later kept _ ih =>
    cases h' with
    | here broken => exact absurd broken kept
    | later _ first => exact ih first

theorem none_iff : FirstBroken demands none ↔ ∀ demand ∈ demands, ¬ demand.broken := by
  induction demands with
  | nil => simp [FirstBroken.done]
  | cons demand rest ih =>
    rw [List.forall_mem_cons, ← ih]
    constructor
    · rintro (_ | _ | ⟨kept, first⟩)
      exact ⟨kept, first⟩
    · rintro ⟨kept, first⟩
      exact .later kept first

/-- A list whose first part is kept breaks what its other part breaks. -/
theorem append (kept : FirstBroken first none) (h : FirstBroken rest found) :
    FirstBroken (first ++ rest) found := by
  induction first with
  | nil => exact h
  | cons demand first ih =>
    cases kept with
    | later kept all => exact .later kept (ih all)

theorem append_left {rule : Rule} (h : FirstBroken first (some rule)) :
    FirstBroken (first ++ rest) (some rule) := by
  induction first with
  | nil => cases h
  | cons demand first ih =>
    cases h with
    | here broken => exact .here broken
    | later kept all => exact .later kept (ih all)

end FirstBroken

end Aggregation

namespace Ruling

open Aggregation (Demand FirstBroken)

/-- A ruling refuses for the first demand that is broken, and accepts if all are kept. -/
def Follows (r : Ruling) (demands : List Demand) : Prop :=
  match r.outcome with
  | .ok () => FirstBroken demands none
  | .error (.breach breach) => FirstBroken demands (some breach.rule)
  | .error (.fault _) => False

namespace Follows

variable {r : Ruling} {demand : Demand} {demands first rest : List Demand}

theorem next (kept : ¬ demand.broken) (h : r.Follows rest) : r.Follows (demand :: rest) := by
  unfold Follows at *
  split at h
  · exact .later kept h
  · exact .later kept h
  · exact h

theorem append (kept : FirstBroken first none) (h : r.Follows rest) :
    r.Follows (first ++ rest) := by
  unfold Follows at *
  split at h
  · exact kept.append h
  · exact kept.append h
  · exact h

theorem accepted_iff (h : r.Follows demands) :
    r.outcome = .ok () ↔ FirstBroken demands none := by
  unfold Follows at h
  split at h
  next accepted => simp [accepted, h]
  next breach refused =>
    rw [refused]
    simp only [reduceCtorEq, false_iff]
    exact fun kept => absurd (kept.unique h) (by simp)
  next => exact h.elim

theorem refused_iff (h : r.Follows demands) {rule : Rule} :
    (∃ breach, r.outcome = .error (.breach breach) ∧ breach.rule = rule) ↔
      FirstBroken demands (some rule) := by
  unfold Follows at h
  split at h
  next accepted =>
    rw [accepted]
    simp only [reduceCtorEq, false_and, exists_false, false_iff]
    exact fun broken => absurd (h.unique broken) (by simp)
  next breach refused =>
    rw [refused]
    constructor
    · rintro ⟨b, same, rfl⟩
      cases same
      exact h
    · intro first
      exact ⟨breach, rfl, Option.some.inj (h.unique first)⟩
  next => exact h.elim

theorem no_fault (h : r.Follows demands) (fault : Fault) : r.outcome ≠ .error (.fault fault) := by
  intro failed
  rw [Follows, failed] at h
  exact h

end Follows

end Ruling

namespace Aggregation

section Rules

variable (store : View) (registry : Registry) (name : String) (names : List String)

/-- Bits that are the union of the stored bits of names. -/
def IsUnion (bits : Bits) : Prop :=
  ∀ position, bits.value.testBit position = true ↔ ∃ m ∈ names, ∃ stored,
    store.Owns m stored ∧ stored.value.testBit position = true

variable {store} in
/-- A table without a fault gives the union of the stored bits. -/
theorem isUnion_unionOf (clean : store.bitsTable.fault = none) :
    IsUnion store names (BitsTable.unionOf store.bitsTable.entries (names.map .text)) := by
  intro position
  simp only [BitsTable.testBit_unionOf, List.mem_map, exists_exists_and_eq_and, BitsTable.find?,
    View.find?_bitsTable clean, View.Owns]

/-- The registered aggregates in the order of their names. -/
def aggregateNames : List String :=
  (sortNames (registry.map Prod.fst)).filter fun other =>
    !(registry.membersOf (.text other)).isEmpty

/-- A member must not lead back to the name, and must be registered. -/
def memberDemands (m : String) : List Demand :=
  [⟨.circularAggregation, Reaches registry.membersOf (.text m) (.text name)⟩,
    ⟨.unregisteredAggregate, ¬ registry.Registered (.text m)⟩]

/-- A registered aggregate must not declare the same members, must decompose into atomic names, and
into others. -/
def rivalDemands (other : String) : List Demand :=
  [⟨.duplicateAggregation,
      ∀ a, a ∈ names.map Scalar.text ↔ a ∈ registry.membersOf (.text other)⟩,
    ⟨.unknownDeclaredAggregate, ¬ Resolvable registry (.text other)⟩,
    ⟨.duplicateAggregation, SameLeaves registry (names.map .text) [.text other]⟩]

def atomicDemands (counter bits : Bits) : List Demand :=
  [⟨.bitsInUse, ∃ owner, store.Owns owner bits⟩, ⟨.nextBitsNotUpdated, counter ≠ bits.next⟩]

/-- The demands on an aggregate with members enough. -/
def aggregateDemands (bits : Bits) : List Demand :=
  (sortNames names).flatMap (memberDemands registry name) ++
    (⟨.unknownDeclaredAggregate, ∃ m ∈ names, ¬ Resolvable registry (.text m)⟩ ::
      ⟨.invalidAggregateBits, ¬ IsUnion store names bits⟩ ::
      (aggregateNames registry).flatMap (rivalDemands registry names))

/-- All demands on a definition, in the order in which they are made. -/
def demands (counter bits : Bits) : List Demand :=
  ⟨.bitsMissing, bits.isEmpty = true⟩ ::
    if names = [] then atomicDemands store counter bits
    else ⟨.singularAggregation, names.length = 1⟩ :: aggregateDemands store registry name names bits

end Rules

/-- What the rules ask of a definition in all, in one condition. -/
structure AggregateRules (store : View) (registry : Registry) (name : String) (names : List String)
    (bits : Bits) : Prop where
  enough : 2 ≤ names.length
  registered : ∀ m ∈ names, registry.Registered (.text m)
  foreign : name ∉ names ∧ ∀ m ∈ names, ¬ Reaches registry.membersOf (.text m) (.text name)
  resolvable : ∀ m ∈ names, ∀ target, Reaches registry.membersOf (.text m) target →
    registry.Registered target
  union : IsUnion store names bits
  rivals : ∀ other, registry.membersOf (.text other) ≠ [] →
    Resolvable registry (.text other) ∧
      (¬ ∀ a, a ∈ names.map Scalar.text ↔ a ∈ registry.membersOf (.text other)) ∧
      ¬ SameLeaves registry (names.map .text) [.text other]

/-- A definition carries bits, and is atomic with bits of its own and the counter above them or an
aggregate by the rules. -/
def Acceptable (store : View) (registry : Registry) (name : String) (names : List String)
    (counter bits : Bits) : Prop :=
  bits.isEmpty = false ∧
    ((names = [] ∧ (¬ ∃ owner, store.Owns owner bits) ∧ counter = bits.next) ∨
      AggregateRules store registry name names bits)

variable {store : View} {registry : Registry} {name : String} {names : List String}
  {counter bits : Bits}

theorem mem_aggregateNames {other : String} :
    other ∈ aggregateNames registry ↔ registry.membersOf (.text other) ≠ [] := by
  rw [aggregateNames, List.mem_filter, mem_sortNames, Bool.not_eq_true', List.isEmpty_eq_false_iff]
  refine and_iff_right_of_imp fun aggregate => ?_
  obtain ⟨m, member⟩ := List.exists_mem_of_ne_nil _ aggregate
  obtain ⟨d, found⟩ := Option.isSome_iff_exists.1 (registered_of_mem member)
  exact List.mem_map_of_mem (f := Prod.fst) (Entries.mem_of_find? found)

/-- The demands on an aggregate are kept exactly if it is one by the rules. -/
theorem aggregateDemands_kept_iff (enough : 2 ≤ names.length) :
    (∀ demand ∈ aggregateDemands store registry name names bits, ¬ demand.broken) ↔
      AggregateRules store registry name names bits := by
  simp only [aggregateDemands, List.forall_mem_append, List.forall_mem_flatMap,
    List.forall_mem_cons, memberDemands, rivalDemands, mem_sortNames, mem_aggregateNames,
    List.not_mem_nil, false_implies, implies_true, and_true, not_not, not_exists, not_and]
  constructor
  · rintro ⟨members, resolvable, union, rivals⟩
    have apart := fun m member => (members m member).1
    refine ⟨enough, fun m member => (members m member).2, ⟨fun own => ?_, apart⟩, resolvable, union,
      fun other aggregate => ?_⟩
    · exact apart name own (.refl _)
    · obtain ⟨declared, resolved, leaves⟩ := rivals other aggregate
      exact ⟨resolved, declared, leaves⟩
  · intro rules
    refine ⟨fun m member => ⟨rules.foreign.2 m member, rules.registered m member⟩,
      rules.resolvable, rules.union, fun other aggregate => ?_⟩
    obtain ⟨resolved, declared, leaves⟩ := rules.rivals other aggregate
    exact ⟨declared, resolved, leaves⟩

/-- All demands are kept exactly if the condition holds. -/
theorem firstBroken_none_iff : FirstBroken (demands store registry name names counter bits) none ↔
    Acceptable store registry name names counter bits := by
  rw [FirstBroken.none_iff, demands, List.forall_mem_cons, Acceptable, Bool.not_eq_true]
  refine and_congr_right fun _ => ?_
  match names with
  | [] =>
    have few : ¬ AggregateRules store registry name [] bits := fun rules =>
      absurd rules.enough (by simp)
    simp [few, atomicDemands]
  | [m] =>
    have few : ¬ AggregateRules store registry name [m] bits := fun rules =>
      absurd rules.enough (by simp)
    simp [few]
  | m :: n :: rest =>
    rw [if_neg (List.cons_ne_nil m _), List.forall_mem_cons,
      aggregateDemands_kept_iff (by simp)]
    simp

end Aggregation

end PrivilegeStore
