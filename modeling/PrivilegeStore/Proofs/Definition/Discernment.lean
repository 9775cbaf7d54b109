import PrivilegeStore.Proofs.Bits.Sameness
import PrivilegeStore.Proofs.Bits.Words
import PrivilegeStore.Proofs.Definition.Alike
import PrivilegeStore.Proofs.Node.Extensionality

/-!
# What readers tell apart in same nodes

Two same nodes are read as alike definitions. As bits, and as a counter, they are read alike except
in two cases: a word that stands alone can be read, while a truth value or a float of its size
cannot; and of an object the names are read as words in the order in which they are stored, which
sameness forgets. So only in these cases can a change that is not noticed be seen by a reader.
-/
namespace PrivilegeStore

namespace Value

/-- A number that fits into a word, stored as an integer. -/
def IsWord (v : Value) : Prop := ∃ n : Nat, n < wordBound ∧ v = .int n

/-- Same values that do not stand for the same bits. -/
inductive ReadApart : Value → Value → Prop
  /-- A word and the same number of another type. -/
  | word {v w : Value} (word : v.IsWord) (other : ¬ w.IsWord) : ReadApart v w
  | retyped {v w : Value} (other : ¬ v.IsWord) (word : w.IsWord) : ReadApart v w
  /-- Names that are words, listed in such orders that they weigh differently. -/
  | relisted {entries others : Entries Value} {ws us : List Nat}
      (listed : Bits.words ((entries.map Prod.fst).map text) = .ok ws)
      (relisted : Bits.words ((others.map Prod.fst).map text) = .ok us)
      (differ : Bits.weigh ws ≠ Bits.weigh us) : ReadApart (.object entries) (.object others)

theorem not_isWord_list {items : List Value} : ¬ (Value.list items).IsWord := by
  rintro ⟨n, -, equal⟩
  cases equal

theorem not_isWord_object {entries : Entries Value} : ¬ (Value.object entries).IsWord := by
  rintro ⟨n, -, equal⟩
  cases equal

theorem IsWord.eq_of_same {v w : Value} (left : v.IsWord) (right : w.IsWord)
    (same : v.form = w.form) : v = w := by
  obtain ⟨m, -, rfl⟩ := left
  obtain ⟨n, -, rfl⟩ := right
  simp only [int, form, Scalar.key, Form.scalar.injEq, Key.number.injEq, and_true] at same
  rw [same]

end Value

namespace Bits

open Value (ReadApart)

/-- Two readings agree if both fail or both succeed with the same bits. -/
abbrev Agree (x y : Except Fault Bits) : Prop := x.toOption = y.toOption

theorem agree_of_eq {x y : Except Fault Bits} (equal : x = y) : Agree x y := congrArg _ equal

theorem not_agree_of_fault {bits : Bits} {x : Except Fault Bits} {fault : Fault}
    (fails : x = .error fault) : ¬ Agree (.ok bits) x := by
  rw [fails]
  exact Option.some_ne_none bits

theorem ofValue_of_isWord {v : Value} (word : v.IsWord) : ∃ bits, ofValue v = .ok bits := by
  obtain ⟨n, fits, rfl⟩ := word
  refine ⟨ofWords [n], ?_⟩
  rw [Value.int, ofValue, word_natCast fits]
  rfl

/-- What can be read of a scalar that is no word is nothing or its characters. -/
theorem ofValue_of_not_isWord {a : Scalar} (other : ¬ (Value.scalar a).IsWord) :
    a = .null ∨ (∃ s, a = .text s) ∨ ∃ fault, ofValue (.scalar a) = .error fault := by
  cases a with
  | null => exact .inl rfl
  | text s => exact .inr (.inl ⟨s, rfl⟩)
  | bool b => exact .inr (.inr ⟨_, rfl⟩)
  | float x => exact .inr (.inr ⟨_, rfl⟩)
  | int n =>
    refine .inr (.inr ⟨.wordOutOfRange (.int n), ?_⟩)
    have overflows : ¬ (0 ≤ n ∧ n < wordBound) := by
      rintro ⟨nonneg, fits⟩
      refine other ⟨n.toNat, by omega, ?_⟩
      rw [Value.int, Int.toNat_of_nonneg nonneg]
    rw [ofValue, word, if_neg overflows]
    rfl

/-- A word cannot be read any more once it is written in another type. -/
theorem fault_of_retyped {a b : Scalar} (keys : a.key = b.key) (word : (Value.scalar a).IsWord)
    (other : ¬ (Value.scalar b).IsWord) : ∃ fault, ofValue (.scalar b) = .error fault := by
  obtain ⟨n, -, equal⟩ := word
  cases equal
  rcases ofValue_of_not_isWord other with rfl | ⟨s, rfl⟩ | fails
  · cases keys
  · cases keys
  · exact fails

theorem agree_scalars {a b : Scalar} (keys : a.key = b.key) :
    Agree (ofValue (.scalar a)) (ofValue (.scalar b)) ↔
      ¬ ReadApart (.scalar a) (.scalar b) := by
  by_cases left : (Value.scalar a).IsWord <;> by_cases right : (Value.scalar b).IsWord
  · have equal := left.eq_of_same right (by rw [Value.form, Value.form, keys])
    refine iff_of_true (agree_of_eq (congrArg ofValue equal)) ?_
    rintro (⟨-, other⟩ | ⟨other, -⟩)
    · exact other right
    · exact other left
  · refine iff_of_false ?_ (not_not_intro (.word left right))
    obtain ⟨bits, read⟩ := ofValue_of_isWord left
    obtain ⟨fault, fails⟩ := fault_of_retyped keys left right
    rw [read]
    exact not_agree_of_fault fails
  · refine iff_of_false ?_ (not_not_intro (.retyped left right))
    obtain ⟨bits, read⟩ := ofValue_of_isWord right
    obtain ⟨fault, fails⟩ := fault_of_retyped keys.symm right left
    rw [read]
    exact fun agree => not_agree_of_fault fails agree.symm
  · refine iff_of_true ?_ ?_
    · rcases ofValue_of_not_isWord left with rfl | ⟨s, rfl⟩ | ⟨fault, fails⟩
      · rw [Scalar.key_eq_null.1 keys.symm]
      · rw [Scalar.key_eq_text.1 keys.symm]
      · rcases ofValue_of_not_isWord right with rfl | ⟨s, rfl⟩ | ⟨fault', fails'⟩
        · rw [Scalar.key_eq_null.1 keys]
        · rw [Scalar.key_eq_text.1 keys]
        · rw [fails, fails']
          rfl
    · rintro (⟨word, -⟩ | ⟨-, word⟩)
      · exact left word
      · exact right word

theorem agree_lists {items others : List Value}
    (same : Value.formItems items = Value.formItems others) :
    Agree (ofValue (.list items)) (ofValue (.list others)) ↔
      ¬ ReadApart (.list items) (.list others) := by
  refine iff_of_true ?_ ?_
  · rw [ofValue_list, ofValue_list, words_congr same]
  · rintro (⟨word, -⟩ | ⟨-, word⟩) <;> exact Value.not_isWord_list word

/-- Of two same objects the names are words, each of them, or of neither. -/
theorem words_ok_of_same {entries others : Entries Value}
    (same : Value.formEntries entries = Value.formEntries others) {ws : List Nat}
    (read : words ((entries.map Prod.fst).map Value.text) = .ok ws) :
    ∃ us, words ((others.map Prod.fst).map Value.text) = .ok us := by
  refine words_ok_iff.2 fun item member => ?_
  obtain ⟨name, there, rfl⟩ := List.mem_map.1 member
  exact words_ok_iff.1 ⟨ws, read⟩ _ (List.mem_map_of_mem ((Value.mem_fst_congr same).2 there))

theorem agree_objects {entries others : Entries Value}
    (same : Value.formEntries entries = Value.formEntries others) :
    Agree (ofValue (.object entries)) (ofValue (.object others)) ↔
      ¬ ReadApart (.object entries) (.object others) := by
  rw [ofValue_object, ofValue_object]
  cases left : words ((entries.map Prod.fst).map Value.text) with
  | error fault =>
    cases right : words ((others.map Prod.fst).map Value.text) with
    | error fault' =>
      refine iff_of_true rfl ?_
      rintro (⟨word, -⟩ | ⟨-, word⟩ | ⟨listed, -, -⟩)
      · exact Value.not_isWord_object word
      · exact Value.not_isWord_object word
      · rw [left] at listed
        cases listed
    | ok us =>
      obtain ⟨ws, read⟩ := words_ok_of_same same.symm right
      rw [left] at read
      cases read
  | ok ws =>
    obtain ⟨us, right⟩ := words_ok_of_same same left
    have weights : Agree (.ok (ofWords ws)) (.ok (ofWords us)) ↔ weigh ws = weigh us := by
      rw [← value_ofWords (words_bounded left), ← value_ofWords (words_bounded right), Agree,
        Except.toOption, Except.toOption, Option.some.injEq, Bits.mk.injEq]
    rw [right]
    refine weights.trans ⟨?_, fun alike => ?_⟩
    · rintro equal (⟨word, -⟩ | ⟨-, word⟩ | ⟨listed, relisted, differ⟩)
      · exact Value.not_isWord_object word
      · exact Value.not_isWord_object word
      · rw [left] at listed
        rw [right] at relisted
        cases listed
        cases relisted
        exact differ equal
    · exact Decidable.byContradiction fun differ => alike (.relisted left right differ)

/-- Same values are read as the same bits, or neither can be read, unless they are read apart. -/
theorem ofValue_agree_iff {v w : Value} (same : v.form = w.form) :
    Agree (ofValue v) (ofValue w) ↔ ¬ v.ReadApart w := by
  cases v with
  | scalar a =>
    cases w with
    | scalar b => exact agree_scalars (Form.scalar.inj same)
    | list => simp [Value.form] at same
    | object => simp [Value.form] at same
  | list items =>
    cases w with
    | scalar => simp [Value.form] at same
    | list others => exact agree_lists (Form.list.inj same)
    | object => simp [Value.form] at same
  | object entries =>
    cases w with
    | scalar => simp [Value.form] at same
    | list => simp [Value.form] at same
    | object others => exact agree_objects (Form.object.inj same)

end Bits

namespace View

/-- A property of two views is not read as the same bits. -/
def ReadApart (v w : View) (name : String) : Prop :=
  ∃ x y, v.property? name = some x ∧ w.property? name = some y ∧ x.ReadApart y

variable {v w : View}

theorem agree_property (same : v.state.map Node.form = w.state.map Node.form) (name : String) :
    Bits.Agree (Bits.ofValue? (v.property? name)) (Bits.ofValue? (w.property? name)) ↔
      ¬ v.ReadApart w name := by
  rcases cases_of_map_eq (property?_form_congr same name) with
    ⟨left, right⟩ | ⟨x, y, left, right, equal⟩
  · simp [ReadApart, left, right]
  · rw [left, right, Bits.ofValue?, Bits.ofValue?, Bits.ofValue_agree_iff equal]
    simp [ReadApart, left, right]

/-- Two views of one path whose nodes are the same, or both absent, have alike definitions, or
neither can be read. -/
theorem rel_definition (path : v.path = w.path)
    (same : v.state.map Node.form = w.state.map Node.form) :
    Option.Rel Definition.Alike v.definition.toOption w.definition.toOption := by
  rcases cases_of_map_eq same with ⟨left, right⟩ | ⟨a, b, ha, hb, equal⟩
  · obtain ⟨_, _⟩ := v
    obtain ⟨_, _⟩ := w
    cases path
    cases left
    cases right
    exact .some (Definition.Alike.refl _)
  · have alike := Node.same_iff.2 equal
    cases left : v.definition with
    | ok d =>
      obtain ⟨e, right, like⟩ := definition_alike path ha hb alike left
      rw [right]
      exact .some like
    | error fault =>
      cases right : w.definition with
      | error fault' => exact .none
      | ok e =>
        obtain ⟨d, read, -⟩ := definition_alike path.symm hb ha (Node.same_symm alike) right
        rw [left] at read
        cases read

/-- What readers make of two same nodes, or of what the same names lead to below them, as views of
one path: definitions are alike or cannot be read, and so are bits and counters exactly if they are
not read apart. -/
theorem readings_of_same {a b : Node} (same : a.same b = true) (path : String)
    (names : List String) :
    let v : View := ⟨path, a.descend names⟩
    let w : View := ⟨path, b.descend names⟩
    Option.Rel Definition.Alike v.definition.toOption w.definition.toOption ∧
      (v.bits.toOption = w.bits.toOption ↔ ¬ v.ReadApart w Schema.bits) ∧
      (v.nextBits.toOption = w.nextBits.toOption ↔ ¬ v.ReadApart w Schema.next) := by
  intro v w
  have forms : v.state.map Node.form = w.state.map Node.form :=
    Node.descend_form_congr (Node.same_iff.1 same) names
  exact ⟨rel_definition rfl forms, agree_property forms Schema.bits,
    agree_property forms Schema.next⟩

/-- Words in a list and a member are written in three types, and read alike. -/
theorem readings_of_retyped_list :
    let node (bits members : List Value) : Node :=
      ⟨[(Schema.primaryType, .text Schema.privilegeType), (Schema.bits, .list bits),
        (Schema.aggregates, .list members)], []⟩
    let a := node [.int 1, .int 0, .int 1] [.int 1, .text "read"]
    let b := node [.scalar (.float (.finite false (2 ^ 52) 1022)), .bool false, .bool true]
      [.bool true, .text "read"]
    a.same b = true ∧ (View.mk "/x" (some a)).bits = .ok ⟨2 ^ 128 + 1⟩ ∧
      (View.mk "/x" (some b)).bits = .ok ⟨2 ^ 128 + 1⟩ := by
  intro node a b
  have same : a.same b = true := by decide +kernel
  have read : (View.mk "/x" (some a)).bits = .ok ⟨2 ^ 128 + 1⟩ := by decide +kernel
  have lists : ¬ (View.mk "/x" (some a)).ReadApart (View.mk "/x" (some b)) Schema.bits := by
    rintro ⟨x, y, left, right, apart⟩
    cases left
    cases right
    rcases apart with ⟨word, -⟩ | ⟨-, word⟩ <;> exact Value.not_isWord_list word
  have agree : (View.mk "/x" (some a)).bits.toOption = (View.mk "/x" (some b)).bits.toOption :=
    (readings_of_same same "/x" []).2.1.2 lists
  rw [read] at agree
  refine ⟨same, read, ?_⟩
  cases other : (View.mk "/x" (some b)).bits with
  | error fault =>
    rw [other] at agree
    cases agree
  | ok bits =>
    rw [other] at agree
    cases agree
    rfl

/-- A word and the truth value of its size are the same, but only the word can be read. -/
theorem retyped_word_not_read :
    ¬ ∀ (a b : Node) (path : String), a.same b = true →
      let v : View := ⟨path, some a⟩
      let w : View := ⟨path, some b⟩
      Option.Rel Definition.Alike v.definition.toOption w.definition.toOption ∧
        v.bits.toOption = w.bits.toOption ∧ v.nextBits.toOption = w.nextBits.toOption := by
  intro claim
  let node (bits : Value) : Node :=
    ⟨[(Schema.primaryType, .text Schema.privilegeType), (Schema.bits, bits)], []⟩
  have same : (node (.int 1)).same (node (.bool true)) = true := by decide +kernel
  obtain ⟨-, bits, -⟩ := claim _ _ "/jcr:system/rep:privileges/read" same
  revert bits
  decide +kernel

end View

end PrivilegeStore
