import PrivilegeStore.Proofs.Aggregation.Agreement
import PrivilegeStore.Proofs.Definition.Access
import PrivilegeStore.Proofs.Definition.Relisting

/-!
# Stores that read alike

Two stores may keep their children in different order, and their definitions may list their members
in different order. If under every name they read alike, their registries have the same graph and
their bits tables hold the same under each name. Registered definitions are compared by increasing
name; for these to be paired up, each must bear the name of its own child.
-/
namespace PrivilegeStore

/-- Lists with equal images are related item by item if items with equal images are. -/
theorem forall₂_of_map_eq {α β γ : Type} {f : α → γ} {g : β → γ} {related : α → β → Prop}
    {xs : List α} {ys : List β} (equal : xs.map f = ys.map g)
    (pairs : ∀ x ∈ xs, ∀ y ∈ ys, f x = g y → related x y) : List.Forall₂ related xs ys := by
  induction xs generalizing ys with
  | nil =>
    cases ys with
    | nil => exact .nil
    | cons => cases equal
  | cons x xs ih =>
    cases ys with
    | nil => cases equal
    | cons y ys =>
      simp only [List.map_cons, List.cons.injEq] at equal
      refine .cons (pairs x List.mem_cons_self y List.mem_cons_self equal.1) (ih equal.2 ?_)
      exact fun a first b second =>
        pairs a (List.mem_cons_of_mem _ first) b (List.mem_cons_of_mem _ second)

namespace View

open Aggregation (Coincide Admission Retains)

/-- Definitions are stored under names that are single elements of a path. -/
def PlainlyNamed (store : View) : Prop :=
  ∀ name, (store.child name).isDefinition = true → name ≠ "" ∧ '/' ∉ name.toList

variable {v w store laterV laterW : View} {registry left right : Registry} {name : String}
  {d : Definition}

/-- A definition bears the name that it is stored under. -/
theorem PlainlyNamed.name_eq (plain : store.PlainlyNamed)
    (isDef : (store.child name).isDefinition = true)
    (read : (store.child name).definition = .ok d) : d.name = name := by
  obtain ⟨some, single⟩ := plain name isDef
  rw [name_of_definition read, name_child some single]

/-- Registered definitions are compared by increasing name. -/
theorem PlainlyNamed.map_name_existing (plain : store.PlainlyNamed)
    (read : store.registry = .ok registry) :
    (Admission.start registry v w).existing.map Definition.name =
      sortNames (registry.map Prod.fst) := by
  have own : (registry.map Prod.snd).map Definition.name = registry.map Prod.fst := by
    rw [List.map_map]
    refine List.map_congr_left fun entry member => ?_
    obtain ⟨isDef, found⟩ := mem_definitionsAmong read member
    exact plain.name_eq isDef found
  rw [← own]
  exact (sortBy_map (fun _ _ => rfl) _).symm

theorem mem_existing (read : store.registry = .ok registry)
    (member : d ∈ (Admission.start registry v w).existing) :
    ∃ name, (store.child name).isDefinition = true ∧ (store.child name).definition = .ok d := by
  rw [Admission.existing, mem_sortBy, List.mem_map] at member
  obtain ⟨entry, member, rfl⟩ := member
  exact ⟨entry.1, mem_definitionsAmong read member⟩

section Alike

variable (alike : ∀ name, (v.child name).ReadsAlike (w.child name))

include alike

theorem registry_ok_of_alike : ∃ registry, v.registry = .ok registry := by
  refine definitionsAmong_ok fun name _ isDef => ?_
  obtain ⟨d, -, read, -⟩ := (alike name).definition isDef
  exact ⟨d, read⟩

theorem fault_bitsTable_of_alike : v.bitsTable.fault = none := by
  refine fault_bitsAmong fun name _ isDef => ?_
  obtain ⟨bits, read, -⟩ := (alike name).bits isDef
  exact ⟨bits, read⟩

theorem retains_of_alike (readLeft : v.registry = .ok left) (readRight : w.registry = .ok right) :
    Retains left right := by
  refine .of_alike fun name d found => ?_
  obtain ⟨isDef, read⟩ := (find?_registry readLeft).1 found
  obtain ⟨d', e, read', there, same, -⟩ := (alike name).definition isDef
  cases read.symm.trans read'
  exact ⟨e, (find?_registry readRight).2 ⟨(alike name).isDefinition.symm.trans isDef, there⟩, same⟩

theorem owns_iff_of_alike {bits : Bits} : v.Owns name bits ↔ w.Owns name bits := by
  rw [Owns, Owns, ← (alike name).isDefinition]
  refine and_congr_right fun isDef => ?_
  obtain ⟨bits', left, right⟩ := (alike name).bits isDef
  rw [left, right]

/-- The same definitions are compared, in the same order. -/
theorem existing_alike (plain : v.PlainlyNamed) (readLeft : v.registry = .ok left)
    (readRight : w.registry = .ok right) :
    List.Forall₂ Definition.Alike (Admission.start left v laterV).existing
      (Admission.start right w laterW).existing := by
  have plain' : w.PlainlyNamed :=
    fun name isDef => plain name ((alike name).isDefinition.trans isDef)
  have names : sortNames (left.map Prod.fst) = sortNames (right.map Prod.fst) := by
    refine sortNames_ext (nodup_names_registry readLeft) (nodup_names_registry readRight)
      fun name => ?_
    rw [names_definitionsAmong readLeft, names_definitionsAmong readRight, List.mem_filter,
      List.mem_filter, (alike name).isDefinition]
    refine and_congr_left fun isDef => ?_
    exact iff_of_true (mem_childNames_of_isDefinition ((alike name).isDefinition.trans isDef))
      (mem_childNames_of_isDefinition isDef)
  have compared : (Admission.start left v laterV).existing.map Definition.name =
      (Admission.start right w laterW).existing.map Definition.name := by
    rw [plain.map_name_existing readLeft, plain'.map_name_existing readRight, names]
  refine forall₂_of_map_eq compared fun d member e member' same => ?_
  obtain ⟨name, isDef, read⟩ := mem_existing readLeft member
  obtain ⟨name', isDef', read'⟩ := mem_existing readRight member'
  rw [plain.name_eq isDef read, plain'.name_eq isDef' read'] at same
  cases same
  obtain ⟨d', e', left, right, pair, -⟩ := (alike name).definition isDef
  cases read.symm.trans left
  cases read'.symm.trans right
  exact pair

/-- Admissions are opened alike on stores that read alike. -/
theorem openedAlike (plain : v.PlainlyNamed) (readLeft : v.registry = .ok left)
    (readRight : w.registry = .ok right) (counter : laterV.nextBits = laterW.nextBits) :
    (Admission.start left v laterV).OpenedAlike (Admission.start right w laterW) := by
  have back (name : String) : (w.child name).ReadsAlike (v.child name) := (alike name).symm
  have clean : v.bitsTable.fault = none := fault_bitsTable_of_alike alike
  have clean' : w.bitsTable.fault = none := fault_bitsTable_of_alike back
  refine ⟨⟨retains_of_alike alike readLeft readRight, retains_of_alike back readRight readLeft⟩,
    existing_alike alike plain readLeft readRight, clean.trans clean'.symm, fun a => ?_,
    fun bits => ?_, counter⟩
  · cases a with
    | text name =>
      refine Option.ext fun bits => ?_
      exact (find?_bitsTable clean).trans ((owns_iff_of_alike alike).trans
        (find?_bitsTable clean').symm)
    | _ => rfl
  · constructor <;> intro unowned <;> refine ownersOf_bitsTable fun name stored owned => ?_
    · have there : v.Owns name stored := (owns_iff_of_alike alike).2 owned
      exact BitsTable.ownersOf_eq_nil unowned ((find?_bitsTable clean).2 there)
    · have there : w.Owns name stored := (owns_iff_of_alike alike).1 owned
      exact BitsTable.ownersOf_eq_nil unowned ((find?_bitsTable clean').2 there)

end Alike

end View

end PrivilegeStore
