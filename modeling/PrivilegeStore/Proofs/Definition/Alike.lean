import PrivilegeStore.Proofs.Definition.Readings

/-!
# Same nodes are read as alike definitions

Sameness forgets how a number is written and in which order an object lists its entries, while the
members that a node declares are read item by item and entry by entry. Still two same nodes declare
the same set of members, however they store it, or neither can be read. That members stand in a list
of texts is not supposed.
-/
namespace PrivilegeStore

namespace NameSet

variable {names others : List Scalar}

theorem contains_iff_key {a : Scalar} : contains names a = true ↔ a.key ∈ names.map Scalar.key := by
  rw [contains_iff, List.mem_map]
  exact exists_congr fun n => and_congr_right fun _ => Scalar.same_iff

/-- Sets are the same if they hold the same names. -/
theorem sameAs_iff :
    sameAs names others = true ↔ ∀ a, contains names a = true ↔ contains others a = true := by
  simp only [sameAs, Bool.and_eq_true, List.all_eq_true]
  constructor
  · rintro ⟨left, right⟩ a
    constructor <;> intro held
    · obtain ⟨n, member, same⟩ := contains_iff.1 held
      exact contains_congr same (left n member)
    · obtain ⟨n, member, same⟩ := contains_iff.1 held
      exact contains_congr same (right n member)
  · intro equal
    exact ⟨fun n member => (equal n).1 (contains_of_mem member),
      fun n member => (equal n).2 (contains_of_mem member)⟩

theorem sameAs_self : sameAs names names = true := sameAs_iff.2 fun _ => Iff.rfl

theorem sameAs_symm (same : sameAs names others = true) : sameAs others names = true :=
  sameAs_iff.2 fun a => (sameAs_iff.1 same a).symm

theorem contains_ofList {a : Scalar} :
    contains (ofList names) a = true ↔ contains names a = true := by
  simp only [contains_iff]
  induction names with
  | nil => simp [ofList]
  | cons n rest ih =>
    simp only [ofList, List.mem_cons, List.mem_filter, or_and_right, exists_or, exists_eq_left,
      ← ih, Bool.not_eq_true']
    by_cases first : n.same a = true
    · simp [first]
    · -- a name that is dropped is the same as the first one, so it is not the one looked for
      have kept {other : Scalar} (same : other.same a = true) : n.same other = false := by
        rw [← Bool.not_eq_true]
        exact fun equal => first (Scalar.same_trans equal same)
      constructor
      · rintro (here | ⟨other, ⟨member, -⟩, same⟩)
        · exact .inl here
        · exact .inr ⟨other, member, same⟩
      · rintro (here | ⟨other, member, same⟩)
        · exact .inl here
        · exact .inr ⟨other, ⟨member, kept same⟩, same⟩

theorem sameAs_ofList (keys : ∀ key, key ∈ names.map Scalar.key ↔ key ∈ others.map Scalar.key) :
    sameAs (ofList names) (ofList others) = true := by
  refine sameAs_iff.2 fun a => ?_
  rw [contains_ofList, contains_ofList, contains_iff_key, contains_iff_key, keys]

theorem sameAs_texts {xs ys : List String} (same : ∀ name, name ∈ xs ↔ name ∈ ys) :
    sameAs (ofList (xs.map Scalar.text)) (ofList (ys.map Scalar.text)) = true := by
  refine sameAs_ofList fun key => ?_
  simp only [List.map_map, List.mem_map, same]

/-- Items that are the same one by one are admitted as the same members. -/
theorem scalars_alike {items others : List Value}
    (same : Value.formItems items = Value.formItems others) (read : scalars items = .ok names) :
    ∃ alike, scalars others = .ok alike ∧ alike.map Scalar.key = names.map Scalar.key := by
  induction items generalizing others names with
  | nil =>
    cases others with
    | nil =>
      cases read
      exact ⟨[], rfl, rfl⟩
    | cons => simp [Value.formItems] at same
  | cons item rest ih =>
    cases others with
    | nil => simp [Value.formItems] at same
    | cons other others =>
      simp only [Value.formItems, List.cons.injEq] at same
      obtain ⟨first, later⟩ := same
      cases item with
      | scalar s =>
        rw [scalars] at read
        split at read
        · contradiction
        next found there =>
          cases read
          obtain ⟨alike, admitted, keys⟩ := ih later there
          cases other with
          | scalar t =>
            have key : s.key = t.key := by simpa [Value.form] using first
            exact ⟨t :: alike, by simp [scalars, admitted], by simp [key, keys]⟩
          | list => simp [Value.form] at first
          | object => simp [Value.form] at first
      | list => simp [scalars] at read
      | object => simp [scalars] at read

end NameSet

namespace Definition

/-- Definitions of one name and kind whose members are the same set. -/
structure Alike (d e : Definition) : Prop where
  name : d.name = e.name
  members : NameSet.sameAs d.members e.members = true
  isAbstract : d.isAbstract = e.isAbstract

theorem Alike.refl (d : Definition) : d.Alike d := ⟨rfl, NameSet.sameAs_self, rfl⟩

theorem Alike.symm {d e : Definition} (alike : d.Alike e) : e.Alike d :=
  ⟨alike.name.symm, NameSet.sameAs_symm alike.members, alike.isAbstract.symm⟩

theorem declared_list (items : List Value) : declared (.list items) = NameSet.ofValues items := by
  cases items <;> rfl

theorem declared_object (entries : Entries Value) :
    declared (.object entries) =
      .ok (NameSet.ofList ((entries.map Prod.fst).map Scalar.text)) := by
  have elements : (Value.object entries).elements =
      .ok ((entries.map Prod.fst).map Value.text) := by
    rw [Value.elements, List.map_map]
    rfl
  have read : NameSet.ofValue (.object entries) =
      .ok (NameSet.ofList ((entries.map Prod.fst).map Scalar.text)) := by
    simp only [NameSet.ofValue, elements, NameSet.ofValues, scalars_texts]
    rfl
  cases entries with
  | nil => rfl
  | cons entry rest => exact read

/-- Same values declare the same members. -/
theorem declared_alike {v w : Value} (same : v.form = w.form) {names : NameSet}
    (read : declared v = .ok names) :
    ∃ others, declared w = .ok others ∧ NameSet.sameAs names others = true := by
  cases v with
  | scalar s =>
    cases w with
    | scalar t =>
      have void := Value.isVoid_congr same
      have text := Value.text?_congr same
      refine ⟨names, ?_, NameSet.sameAs_self⟩
      -- a scalar that is neither void nor a text enumerates nothing
      cases s <;> cases t <;>
        simp_all [declared, Value.text?, Scalar.text?, NameSet.ofValue, Value.elements]
    | list => simp [Value.form] at same
    | object => simp [Value.form] at same
  | list items =>
    cases w with
    | list others =>
      simp only [Value.form, Form.list.injEq] at same
      rw [declared_list, NameSet.ofValues] at read
      cases admitted : NameSet.scalars items with
      | error fault => simp [admitted, Except.map] at read
      | ok scalars =>
        rw [admitted] at read
        cases read
        obtain ⟨alike, there, keys⟩ := NameSet.scalars_alike same admitted
        rw [declared_list, NameSet.ofValues, there]
        exact ⟨_, rfl, NameSet.sameAs_ofList fun key => by rw [keys]⟩
    | scalar => simp [Value.form] at same
    | object => simp [Value.form] at same
  | object entries =>
    cases w with
    | object others =>
      simp only [Value.form, Form.object.injEq] at same
      rw [declared_object] at read ⊢
      cases read
      exact ⟨_, rfl, NameSet.sameAs_texts fun name => Value.mem_fst_congr same⟩
    | scalar => simp [Value.form] at same
    | list => simp [Value.form] at same

end Definition

namespace View

/-- Two same nodes at one path are read as alike definitions. -/
theorem definition_alike {v w : View} {a b : Node} (path : v.path = w.path)
    (ha : v.state = some a) (hb : w.state = some b) (same : a.same b = true) {d : Definition}
    (read : v.definition = .ok d) : ∃ e, w.definition = .ok e ∧ d.Alike e := by
  have names : v.name = w.name := by rw [name, name, path]
  have kind := isAbstract_of_same ha hb same Schema.isAbstract
  rw [definition] at read ⊢
  rcases property?_cases ha hb same Schema.aggregates with
    ⟨left, right⟩ | ⟨x, y, left, right, equal⟩
  · rw [left] at read
    cases read
    rw [right]
    exact ⟨_, rfl, names, NameSet.sameAs_self, kind⟩
  · rw [left] at read
    split at read
    · contradiction
    next members declared =>
      cases read
      obtain ⟨others, found, alike⟩ := Definition.declared_alike equal declared
      rw [right, Definition.declared?, found]
      exact ⟨_, rfl, names, alike, kind⟩

end View

end PrivilegeStore
