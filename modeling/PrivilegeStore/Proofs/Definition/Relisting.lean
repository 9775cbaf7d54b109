import PrivilegeStore.Proofs.Bits.Sameness
import PrivilegeStore.Proofs.Definition.Alike
import PrivilegeStore.Proofs.Definition.Members
import PrivilegeStore.Proofs.Node.Extensionality

/-!
# Definitions that list their members in other order

A node may be written with its properties and children in other order, and with the members that it
declares in other order. Where members are texts and bits are lists of words, it is read as a
definition with the same set of members and with the same bits.
-/
namespace PrivilegeStore

namespace Value

theorem eq_map_text_of_formItems {names : List String} {items : List Value}
    (same : formItems (names.map text) = formItems items) : items = names.map text := by
  induction names generalizing items with
  | nil =>
    cases items with
    | nil => rfl
    | cons => simp [formItems] at same
  | cons name rest ih =>
    cases items with
    | nil => simp [formItems] at same
    | cons item items =>
      simp only [List.map_cons, formItems, List.cons.injEq] at same
      obtain ⟨first, later⟩ := same
      rw [List.map_cons, ih later]
      cases item with
      | scalar a =>
        have key : a.key = .text name := (Form.scalar.inj first).symm
        rw [Scalar.key_eq_text.1 key, text]
      | list => simp [text, form] at first
      | object => simp [text, form] at first

/-- A list of texts is written in one way only. -/
theorem eq_texts_of_form {names : List String} {w : Value} (same : (texts names).form = w.form) :
    w = texts names := by
  cases w with
  | list items => rw [eq_map_text_of_formItems (Form.list.inj same), texts]
  | scalar => simp [texts, form] at same
  | object => simp [texts, form] at same

end Value

/-- What is the same as a list of words is read as the same bits. -/
theorem Bits.ofValue_of_isWordList {v w : Value} (words : v.IsWordList) (same : v.form = w.form) :
    ofValue w = ofValue v := by
  obtain ⟨numbers, -, rfl⟩ := words
  cases w with
  | list items => rw [ofValue_list, ofValue_list, words_congr (Form.list.inj same)]
  | scalar => simp [Value.form] at same
  | object => simp [Value.form] at same

/-- Optional values that are the same are read as the same bits if they are lists of words. -/
theorem Bits.ofValue?_of_isWordList {x y : Option Value} (words : ∀ v, x = some v → v.IsWordList)
    (same : x.map Value.form = y.map Value.form) :
    ∃ bits, ofValue? x = .ok bits ∧ ofValue? y = .ok bits := by
  rcases cases_of_map_eq same with ⟨rfl, rfl⟩ | ⟨v, w, rfl, rfl, equal⟩
  · exact ⟨empty, rfl, rfl⟩
  · obtain ⟨bits, read⟩ := ofValue_isWordList (words v rfl)
    exact ⟨bits, read, (ofValue_of_isWordList (words v rfl) equal).trans read⟩

namespace Node

/-- Two nodes have the same properties and children, except that the members that they declare may
be listed in different order. -/
structure Relists (a b : Node) : Prop where
  properties : ∀ name, name ≠ Schema.aggregates →
    (a.property? name).map Value.form = (b.property? name).map Value.form
  members : (a.property? Schema.aggregates).map Value.form =
      (b.property? Schema.aggregates).map Value.form ∨
    ∃ names others : List String, names.Perm others ∧
      a.property? Schema.aggregates = some (.texts names) ∧
      b.property? Schema.aggregates = some (.texts others)
  children : ∀ name, (a.child? name).map form = (b.child? name).map form

theorem Relists.of_form {a b : Node} (same : a.form = b.form) : a.Relists b where
  properties name _ := property?_form_congr same name
  members := .inl (property?_form_congr same Schema.aggregates)
  children := child?_form_congr same

namespace Relists

variable {a b a' b' : Node} (relists : a.Relists b)

include relists

theorem isDefinition : a.isDefinition = b.isDefinition :=
  isDefinition_congr (relists.properties Schema.primaryType (by decide))

/-- The same texts are declared. -/
theorem declared (texts : a.StoresTexts) : ∃ names others : List String,
    (∀ m, m ∈ names ↔ m ∈ others) ∧
    Definition.declared? (a.property? Schema.aggregates) =
      .ok (NameSet.ofList (names.map Scalar.text)) ∧
    Definition.declared? (b.property? Schema.aggregates) =
      .ok (NameSet.ofList (others.map Scalar.text)) := by
  rcases relists.members with same | ⟨names, others, perm, left, right⟩
  · rcases cases_of_map_eq same with ⟨left, right⟩ | ⟨v, w, left, right, equal⟩
    · rw [left, right]
      exact ⟨[], [], fun _ => Iff.rfl, rfl, rfl⟩
    · obtain ⟨names, rfl⟩ := texts v left
      cases Value.eq_texts_of_form equal
      rw [left, right]
      exact ⟨names, names, fun _ => Iff.rfl, Definition.declared_texts names,
        Definition.declared_texts names⟩
  · rw [left, right]
    exact ⟨names, others, fun _ => perm.mem_iff, Definition.declared_texts names,
      Definition.declared_texts others⟩

/-- Nodes that are the same are still the same if their members are listed anew, alike in both. -/
theorem same_of_same (relists' : a'.Relists b') (before : a.same a' = true)
    (alike : (b.property? Schema.aggregates).map Value.form =
      (b'.property? Schema.aggregates).map Value.form) : b.same b' = true := by
  rw [same_iff] at before ⊢
  refine form_ext (fun name => ?_) fun name => ?_
  · by_cases members : name = Schema.aggregates
    · rw [members, alike]
    · calc (b.property? name).map Value.form = (a.property? name).map Value.form :=
            (relists.properties name members).symm
        _ = (a'.property? name).map Value.form := property?_form_congr before name
        _ = (b'.property? name).map Value.form := relists'.properties name members
  · calc (b.child? name).map form = (a.child? name).map form := (relists.children name).symm
      _ = (a'.child? name).map form := child?_form_congr before name
      _ = (b'.child? name).map form := relists'.children name

end Relists

variable {x y : Option Node}

theorem rel_relists_of_form (same : x.map form = y.map form) : Option.Rel Relists x y := by
  rcases cases_of_map_eq same with ⟨rfl, rfl⟩ | ⟨a, b, rfl, rfl, equal⟩
  · exact .none
  · exact .some (.of_form equal)

theorem map_isDefinition_of_rel (relists : Option.Rel Relists x y) :
    x.map isDefinition = y.map isDefinition := by
  cases relists with
  | none => rfl
  | some relists => rw [Option.map_some, Option.map_some, relists.isDefinition]

end Node

namespace View

/-- Two views are definitions alike, with the same set of members and the same bits. -/
structure ReadsAlike (v w : View) : Prop where
  isDefinition : v.isDefinition = w.isDefinition
  definition : v.isDefinition = true → ∃ d e, v.definition = .ok d ∧ w.definition = .ok e ∧
    d.Alike e ∧ NameSet.sorted d.members = NameSet.sorted e.members
  bits : v.isDefinition = true → ∃ bits, v.bits = .ok bits ∧ w.bits = .ok bits

variable {v w : View} {a b : Node}

theorem ReadsAlike.of_not_isDefinition (left : v.isDefinition = false)
    (right : w.isDefinition = false) : v.ReadsAlike w := by
  refine ⟨left.trans right.symm, ?_, ?_⟩ <;> simp [left]

theorem ReadsAlike.symm (alike : v.ReadsAlike w) : w.ReadsAlike v where
  isDefinition := alike.isDefinition.symm
  definition isDef := by
    obtain ⟨d, e, left, right, same, order⟩ :=
      alike.definition (alike.isDefinition.trans isDef)
    exact ⟨e, d, right, left, same.symm, order.symm⟩
  bits isDef := by
    obtain ⟨bits, left, right⟩ := alike.bits (alike.isDefinition.trans isDef)
    exact ⟨bits, right, left⟩

/-- A definition that lists its members in other order is read alike. -/
theorem ReadsAlike.of_relists (relists : a.Relists b) (path : v.path = w.path)
    (ha : v.state = some a) (hb : w.state = some b)
    (words : a.isDefinition = true → a.StoresWords)
    (texts : a.isDefinition = true → a.StoresTexts) : v.ReadsAlike w := by
  have kind : ((v.property? Schema.isAbstract).any fun stored => !stored.isVoid) =
      (w.property? Schema.isAbstract).any fun stored => !stored.isVoid := by
    rw [property?_of_state ha, property?_of_state hb]
    exact Value.any_not_isVoid_congr (relists.properties Schema.isAbstract (by decide))
  refine ⟨?_, fun isDef => ?_, fun isDef => ?_⟩
  · rw [isDefinition_of_state ha, isDefinition_of_state hb, relists.isDefinition]
  · rw [isDefinition_of_state ha] at isDef
    obtain ⟨names, others, same, left, right⟩ := relists.declared (texts isDef)
    rw [View.definition, View.definition, property?_of_state ha, property?_of_state hb, left,
      right]
    refine ⟨_, _, rfl, rfl, ⟨?_, NameSet.sameAs_texts same, kind⟩,
      NameSet.sorted_ofList_ext same⟩
    rw [name, name, path]
  · rw [isDefinition_of_state ha] at isDef
    rw [View.bits, View.bits, property?_of_state ha, property?_of_state hb]
    exact Bits.ofValue?_of_isWordList (words isDef) (relists.properties Schema.bits (by decide))

/-- What stands at a path is read alike if it is missing in both or listed in other order. -/
theorem ReadsAlike.of_rel (relists : Option.Rel Node.Relists v.state w.state)
    (path : v.path = w.path)
    (words : ∀ n, v.state = some n → n.isDefinition = true → n.StoresWords)
    (texts : ∀ n, v.state = some n → n.isDefinition = true → n.StoresTexts) : v.ReadsAlike w := by
  obtain ⟨left, state⟩ := v
  obtain ⟨right, state'⟩ := w
  cases relists with
  | none => exact .of_not_isDefinition rfl rfl
  | some relists => exact .of_relists relists path rfl rfl (words _ rfl) (texts _ rfl)

end View

namespace Registration

/-- A definition may be written for the same texts in other order. -/
theorem relists_definitionNode {names others : List String} (perm : names.Perm others) (bits : Bits)
    (isAbstract : Bool) :
    (definitionNode bits (names.map Scalar.text) isAbstract).Relists
      (definitionNode bits (others.map Scalar.text) isAbstract) := by
  cases names with
  | nil =>
    cases perm.nil_eq
    exact .of_form rfl
  | cons m rest =>
    cases others with
    | nil => cases perm.eq_nil
    | cons n later =>
      refine ⟨fun name other => ?_, .inr ⟨_, _, perm, ?_, ?_⟩, fun _ => rfl⟩
      · simp [Node.property?, definitionNode, Entries.find?, Ne.symm other]
      · rw [aggregates_definitionNode, if_neg (List.cons_ne_nil m rest)]
      · rw [aggregates_definitionNode, if_neg (List.cons_ne_nil n later)]

end Registration

end PrivilegeStore
