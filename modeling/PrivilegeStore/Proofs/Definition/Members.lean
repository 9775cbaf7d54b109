import PrivilegeStore.Proofs.Aggregation.Acceptance
import PrivilegeStore.Proofs.Sorting.Uniqueness

/-!
# Members given as texts

A set of texts holds the texts that it was made of, and they have an order. So a definition written
for some texts is read back with these texts as its members, whatever order they were given in and
however often. It has two members as soon as two of the texts differ.
-/
namespace PrivilegeStore

namespace NameSet

variable {names : List String}

theorem mem_ofList_texts {a : Scalar} :
    a ∈ ofList (names.map Scalar.text) ↔ ∃ m ∈ names, a = .text m := by
  induction names with
  | nil => simp [ofList]
  | cons n rest ih =>
    rw [List.map_cons, ofList, List.mem_cons, List.mem_filter, ih]
    constructor
    · rintro (rfl | ⟨⟨m, member, rfl⟩, -⟩)
      · exact ⟨n, List.mem_cons_self, rfl⟩
      · exact ⟨m, List.mem_cons_of_mem _ member, rfl⟩
    · rintro ⟨m, member, rfl⟩
      by_cases equal : m = n
      · exact .inl (by rw [equal])
      · refine .inr ⟨⟨m, (List.mem_cons.1 member).resolve_left equal, rfl⟩, ?_⟩
        rw [Bool.not_eq_true', ← Bool.not_eq_true, Scalar.same_text, Scalar.text.injEq]
        exact Ne.symm equal

theorem mem_ofList_map {a : Scalar} :
    a ∈ ofList (names.map Scalar.text) ↔ a ∈ names.map Scalar.text := by
  rw [mem_ofList_texts, List.mem_map]
  simp only [eq_comm]

theorem contains_map_text {a : Scalar} :
    contains (names.map Scalar.text) a = true ↔ ∃ m ∈ names, a = .text m := by
  rw [contains_iff]
  constructor
  · rintro ⟨n, there, same⟩
    obtain ⟨m, member, rfl⟩ := List.mem_map.1 there
    exact ⟨m, member, Scalar.same_text.1 (Scalar.same_symm same)⟩
  · rintro ⟨m, member, rfl⟩
    exact ⟨_, List.mem_map_of_mem member, Scalar.same_refl _⟩

theorem ofList_eq_nil {scalars : List Scalar} : ofList scalars = [] ↔ scalars = [] := by
  cases scalars <;> simp [ofList]

/-- A set of texts has two members exactly if two of the texts differ. -/
theorem two_le_ofList_texts :
    2 ≤ (ofList (names.map Scalar.text)).length ↔ ∃ m ∈ names, ∃ n ∈ names, m ≠ n := by
  constructor
  · intro enough
    obtain ⟨a, ha, b, hb, different⟩ := two_of_ofList enough
    obtain ⟨m, first, rfl⟩ := mem_ofList_texts.1 ha
    obtain ⟨n, second, rfl⟩ := mem_ofList_texts.1 hb
    refine ⟨m, first, n, second, fun equal => ?_⟩
    rw [equal, Scalar.same_refl] at different
    contradiction
  · rintro ⟨m, first, n, second, different⟩
    have one : Scalar.text m ∈ ofList (names.map Scalar.text) := mem_ofList_texts.2 ⟨m, first, rfl⟩
    have two : Scalar.text n ∈ ofList (names.map Scalar.text) := mem_ofList_texts.2 ⟨n, second, rfl⟩
    generalize ofList (names.map Scalar.text) = set at one two
    match set with
    | [] => exact absurd one List.not_mem_nil
    | [a] =>
      rw [List.mem_singleton] at one two
      exact absurd (Scalar.text.inj (one.trans two.symm)) different
    | _ :: _ :: _ => simp

/-- A list of scalars that are texts is written for texts. -/
theorem texts_of_forall {scalars : List Scalar} (all : ∀ a ∈ scalars, ∃ m, a = .text m) :
    ∃ texts : List String, scalars = texts.map Scalar.text := by
  induction scalars with
  | nil => exact ⟨[], rfl⟩
  | cons a rest ih =>
    obtain ⟨m, rfl⟩ := all a List.mem_cons_self
    obtain ⟨texts, rfl⟩ := ih fun b member => all b (List.mem_cons_of_mem _ member)
    exact ⟨m :: texts, rfl⟩

/-- Every name is once in a set. -/
theorem nodup_ofList (scalars : List Scalar) : (ofList scalars).Nodup := by
  induction scalars with
  | nil => exact .nil
  | cons a rest ih =>
    refine List.nodup_cons.2 ⟨?_, ih.filter _⟩
    simp [Scalar.same_refl]

/-- A set of texts lists each of them once. -/
theorem ofList_texts (names : List String) : ∃ texts : List String,
    ofList (names.map Scalar.text) = texts.map Scalar.text ∧ texts.Nodup ∧
      ∀ m, m ∈ texts ↔ m ∈ names := by
  have all : ∀ a ∈ ofList (names.map Scalar.text), ∃ m, a = .text m := by
    intro a member
    obtain ⟨m, -, equal⟩ := mem_ofList_texts.1 member
    exact ⟨m, equal⟩
  obtain ⟨texts, held⟩ := texts_of_forall all
  have once : (texts.map Scalar.text).Nodup := held ▸ nodup_ofList _
  have apart : texts.Nodup :=
    List.Pairwise.of_map _ (fun a b other equal => other (congrArg _ equal)) once
  refine ⟨texts, held, apart, fun m => ?_⟩
  have member : Scalar.text m ∈ texts.map Scalar.text ↔ ∃ n ∈ names, Scalar.text m = .text n := by
    rw [← held, mem_ofList_texts]
  simpa using member

/-- Texts are sorted as names. -/
theorem sorted_map_text (texts : List String) :
    sorted (texts.map Scalar.text) = .ok ((sortNames texts).map Scalar.text) := by
  match texts with
  | [] => rfl
  | [_] => rfl
  | m :: n :: rest =>
    have all : ((m :: n :: rest).map Scalar.text).all (·.text?.isSome) = true := by
      simp [Scalar.text?]
    have order : sortBy (fun a b => a.key.le b.key) ((m :: n :: rest).map Scalar.text) =
        (sortNames (m :: n :: rest)).map Scalar.text := sortBy_map (fun _ _ => rfl) _
    rw [← order]
    simp only [List.map_cons] at all ⊢
    rw [sorted.eq_def]
    simp only [all, Bool.true_or, ↓reduceIte]

/-- The texts of a set in their order. -/
theorem sorted_texts (names : List String) : ∃ texts : List String,
    sorted (ofList (names.map Scalar.text)) = .ok (texts.map Scalar.text) ∧
      ∀ m, m ∈ texts ↔ m ∈ names := by
  obtain ⟨texts, held, -, kept⟩ := ofList_texts names
  exact ⟨sortNames texts, by rw [held, sorted_map_text], fun m => by rw [mem_sortNames, kept]⟩

/-- Sets of the same texts are sorted to the same list. -/
theorem sorted_ofList_ext {others : List String} (same : ∀ m, m ∈ names ↔ m ∈ others) :
    sorted (ofList (names.map Scalar.text)) = sorted (ofList (others.map Scalar.text)) := by
  obtain ⟨texts, held, once, kept⟩ := ofList_texts names
  obtain ⟨texts', held', once', kept'⟩ := ofList_texts others
  rw [held, held', sorted_map_text, sorted_map_text]
  rw [sortNames_ext once once' fun m => by rw [kept, kept', same]]

end NameSet

/-- A definition that declares texts is an aggregate if there are any. -/
theorem Definition.isAggregate_iff {d : Definition} {names : List String}
    (members : d.members = NameSet.ofList (names.map Scalar.text)) :
    d.isAggregate = true ↔ names ≠ [] := by
  rw [isAggregate, members, Bool.not_eq_true', List.isEmpty_eq_false_iff, Ne,
    NameSet.ofList_eq_nil, List.map_eq_nil_iff]

namespace Registration

/-- A definition is written as abstract, if it is. -/
theorem isAbstract_definitionNode {bits : Bits} (names : List String) {isAbstract : Bool} :
    (definitionNode bits (names.map Scalar.text) isAbstract).property? Schema.isAbstract =
      if isAbstract then some (.bool true) else none := by
  have first : Schema.primaryType ≠ Schema.isAbstract := by decide
  have second : Schema.bits ≠ Schema.isAbstract := by decide
  have third : Schema.aggregates ≠ Schema.isAbstract := by decide
  cases names <;> cases isAbstract <;>
    simp [Node.property?, definitionNode, Entries.find?, first, second, third]

/-- A definition is read back as it was written: with the members it was made for and abstract or
not, under the name of where it is. -/
theorem definition_of_definitionNode {v : View} {bits : Bits} {texts : List String}
    {isAbstract : Bool}
    (h : v.state = some (definitionNode bits (texts.map Scalar.text) isAbstract)) :
    v.definition = .ok ⟨v.name, NameSet.ofList (texts.map Scalar.text), isAbstract⟩ := by
  have declared : Definition.declared? (v.property? Schema.aggregates) =
      .ok (NameSet.ofList (texts.map Scalar.text)) := by
    rw [View.property?_of_state h, aggregates_definitionNode]
    split
    next none =>
      rw [none]
      rfl
    next => exact Definition.declared_texts texts
  rw [View.definition, declared, View.property?_of_state h, isAbstract_definitionNode]
  cases isAbstract <;> rfl

end Registration

end PrivilegeStore
