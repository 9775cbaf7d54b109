import PrivilegeStore.Proofs.Definition.Discernment

/-!
# What is read as bits besides what is written

Bits are stored as nothing, as a word, or as a list of words. All of these are read, and so are some
values that store no bits: elements are turned into integers one by one, so that truth values,
floats and numerals pass for words in a list, and texts of digits and objects with numerals for
names pass for lists. Every other value is refused.
-/
namespace PrivilegeStore

namespace Value

/-- Nothing, an integer that fits into a word, or a list of such integers. -/
def IsEncoding (v : Value) : Prop := v = .null ∨ v.IsWord ∨ v.IsWordList

/-- An element that is turned into a word: an integer or a numeral that fits, a truth value, or a
float that is less than a word's bound and more than `-1`. -/
inductive StandsForWord : Value → Prop
  | int {n : Nat} (fits : n < wordBound) : StandsForWord (.int n)
  | bool (b : Bool) : StandsForWord (.bool b)
  | float {negative : Bool} {mantissa exponent : Nat}
      (above : -(Binary64.unitsPerOne : Int) < Binary64.signed negative (mantissa <<< exponent))
      (below : Binary64.signed negative (mantissa <<< exponent) <
        wordBound * Binary64.unitsPerOne) :
      StandsForWord (.scalar (.float (.finite negative mantissa exponent)))
  | numeral {s : String} {n : Nat} (writes : Text.integer? s = some (n : Int))
      (fits : n < wordBound) : StandsForWord (.text s)

/-- Values that store no bits and are read as bits all the same. -/
inductive ReadLeniently : Value → Prop
  | text {s : String} (digits : ∀ c ∈ s.toList, (Text.digit? c).isSome = true) :
      ReadLeniently (.text s)
  | object {entries : Entries Value}
      (numerals : ∀ name ∈ entries.map Prod.fst, (Value.text name).StandsForWord) :
      ReadLeniently (.object entries)
  | list {items : List Value} (words : ∀ item ∈ items, item.StandsForWord)
      (other : ∃ item ∈ items, ∀ n, item ≠ .int n) : ReadLeniently (.list items)

/-- A list of words is a list whose items are words. -/
theorem isWordList_iff {items : List Value} :
    (Value.list items).IsWordList ↔ ∀ item ∈ items, item.IsWord := by
  constructor
  · rintro ⟨ws, bounded, equal⟩ item member
    cases equal
    obtain ⟨w, there, rfl⟩ := List.mem_map.1 member
    exact ⟨w, bounded w there, rfl⟩
  · intro each
    induction items with
    | nil => exact ⟨[], by simp, rfl⟩
    | cons item rest ih =>
      obtain ⟨⟨w, fits, rfl⟩, later⟩ := List.forall_mem_cons.1 each
      obtain ⟨ws, bounded, equal⟩ := ih later
      cases equal
      exact ⟨w :: ws, List.forall_mem_cons.2 ⟨fits, bounded⟩, rfl⟩

/-- Of the elements that stand for words, the integers are words. -/
theorem isWord_iff {v : Value} : v.IsWord ↔ v.StandsForWord ∧ ∃ n, v = .int n := by
  constructor
  · rintro ⟨n, fits, rfl⟩
    exact ⟨.int fits, n, rfl⟩
  · rintro ⟨stands, n, rfl⟩
    cases stands with
    | int fits => exact ⟨_, fits, rfl⟩

/-- What stores bits is not read leniently. -/
theorem IsEncoding.not_readLeniently {v : Value} (encoding : v.IsEncoding) :
    ¬ v.ReadLeniently := by
  rintro (_ | _ | ⟨-, item, member, other⟩)
  · rcases encoding with equal | ⟨n, -, equal⟩ | ⟨ws, -, equal⟩ <;> cases equal
  · rcases encoding with equal | ⟨n, -, equal⟩ | ⟨ws, -, equal⟩ <;> cases equal
  · rcases encoding with equal | word | list
    · cases equal
    · exact not_isWord_list word
    · obtain ⟨n, -, equal⟩ := isWordList_iff.1 list item member
      exact other n equal

end Value

namespace Bits

open Value (StandsForWord ReadLeniently)

/-- Cut towards zero, a quotient is neither negative nor reaches a bound exactly if it was more than
`-1` and below the bound. -/
theorem truncate_fits {negative : Bool} {units one bound : Nat} (positive : 0 < one)
    (some : 0 < bound) :
    (0 ≤ Binary64.signed negative (units / one) ∧
        Binary64.signed negative (units / one) < bound) ↔
      -(one : Int) < Binary64.signed negative units ∧
        Binary64.signed negative units < (bound * one : Nat) := by
  have room : 0 < bound * one := Nat.mul_pos some positive
  cases negative with
  | false =>
    have below : units / one < bound ↔ units < bound * one := Nat.div_lt_iff_lt_mul positive
    simp only [Binary64.signed, Bool.false_eq_true, if_false]
    generalize units / one = quotient at *
    generalize bound * one = limit at *
    omega
  | true =>
    have none : units / one = 0 ↔ units < one := Nat.div_eq_zero_iff_lt positive
    simp only [Binary64.signed, if_true]
    generalize units / one = quotient at *
    generalize bound * one = limit at *
    omega

theorem word_of_integer {v : Value} {n : Int} (number : integer v = .ok n) :
    (∃ m w, integer v = .ok m ∧ word m = .ok w) ↔ 0 ≤ n ∧ n < wordBound := by
  rw [← word_ok_iff, number]
  constructor
  · rintro ⟨m, w, equal, fits⟩
    cases equal
    exact ⟨w, fits⟩
  · rintro ⟨w, fits⟩
    exact ⟨n, w, rfl, fits⟩

/-- Which elements are turned into words. -/
theorem element_ok_iff {v : Value} :
    (∃ n w, integer v = .ok n ∧ word n = .ok w) ↔ v.StandsForWord := by
  constructor
  · rintro ⟨n, w, number, read⟩
    obtain ⟨fits, rfl⟩ := word_eq_ok_iff.1 read
    match v with
    | .scalar (.int m) =>
      cases number
      exact .int fits
    | .scalar (.bool b) => exact .bool b
    | .scalar (.float (.finite negative mantissa exponent)) =>
      have between := (word_of_integer rfl).1 ⟨w, w, number, read⟩
      rw [truncate_fits Binary64.unitsPerOne_pos wordBound_pos] at between
      exact .float between.1 between.2
    | .scalar (.text s) =>
      rw [integer] at number
      split at number
      next writes =>
        cases number
        exact .numeral writes fits
      next => cases number
  · intro stands
    cases stands with
    | int fits => exact ⟨_, _, rfl, word_natCast fits⟩
    | bool b =>
      refine (word_of_integer rfl).2 ?_
      cases b <;> decide
    | float above below =>
      exact (word_of_integer rfl).2
        ((truncate_fits Binary64.unitsPerOne_pos wordBound_pos).2 ⟨above, below⟩)
    | numeral writes fits =>
      refine ⟨_, _, ?_, word_natCast fits⟩
      rw [Value.text, integer, writes]

theorem words_ok_iff_standsForWord {items : List Value} :
    (∃ ws, words items = .ok ws) ↔ ∀ item ∈ items, item.StandsForWord := by
  simp only [words_ok_iff, element_ok_iff]

/-- A character on its own is a numeral exactly if it is a digit. -/
theorem standsForWord_toString {c : Char} :
    (Value.text c.toString).StandsForWord ↔ (Text.digit? c).isSome = true := by
  constructor
  · rintro (_ | _ | _ | ⟨writes, -⟩)
    rw [Text.integer?_toString, Option.map_eq_some_iff] at writes
    obtain ⟨d, digit, -⟩ := writes
    rw [digit]
    rfl
  · intro digit
    obtain ⟨d, digit⟩ := Option.isSome_iff_exists.1 digit
    have fits : d < wordBound :=
      Nat.lt_of_lt_of_le (Text.digit?_eq_some digit).1 (by decide : 10 ≤ wordBound)
    refine .numeral ?_ fits
    rw [Text.integer?_toString, digit]
    rfl

theorem ofValue_text_ok {s : String} :
    (∃ bits, ofValue (.text s) = .ok bits) ↔ ∀ c ∈ s.toList, (Text.digit? c).isSome = true := by
  have characters : ofValue (.text s) =
      (words (s.toList.map fun c => .text c.toString)).map ofWords := rfl
  rw [characters, map_ofWords_ok, words_ok_iff_standsForWord, List.forall_mem_map]
  exact forall_congr' fun c => imp_congr_right fun _ => standsForWord_toString

theorem ofValue_object_ok {entries : Entries Value} :
    (∃ bits, ofValue (.object entries) = .ok bits) ↔
      ∀ name ∈ entries.map Prod.fst, (Value.text name).StandsForWord := by
  rw [ofValue_object, map_ofWords_ok, words_ok_iff_standsForWord, List.forall_mem_map]

theorem ofValue_list_ok {items : List Value} :
    (∃ bits, ofValue (.list items) = .ok bits) ↔ ∀ item ∈ items, item.StandsForWord := by
  rw [ofValue_list, map_ofWords_ok, words_ok_iff_standsForWord]

theorem ofValue_of_isEncoding {v : Value} (encoding : v.IsEncoding) :
    ∃ bits, ofValue v = .ok bits := by
  rcases encoding with rfl | word | list
  · exact ⟨empty, rfl⟩
  · exact ofValue_of_isWord word
  · exact ofValue_isWordList list

theorem ofValue_of_readLeniently {v : Value} (lenient : v.ReadLeniently) :
    ∃ bits, ofValue v = .ok bits := by
  cases lenient with
  | text digits => exact ofValue_text_ok.2 digits
  | object numerals => exact ofValue_object_ok.2 numerals
  | list words other => exact ofValue_list_ok.2 words

/-- What is read as bits is what is written, or is read leniently. -/
theorem ofValue_ok_iff {v : Value} :
    (∃ bits, ofValue v = .ok bits) ↔ v.IsEncoding ∨ v.ReadLeniently := by
  refine ⟨fun read => ?_, fun either => either.elim ofValue_of_isEncoding ofValue_of_readLeniently⟩
  match v with
  | .object entries => exact .inr (.object (ofValue_object_ok.1 read))
  | .list items =>
    have stand := ofValue_list_ok.1 read
    by_cases other : ∃ item ∈ items, ∀ n, item ≠ .int n
    · exact .inr (.list stand other)
    · refine .inl (.inr (.inr (Value.isWordList_iff.2 fun item member => ?_)))
      refine Value.isWord_iff.2 ⟨stand item member, ?_⟩
      exact Classical.byContradiction fun none =>
        other ⟨item, member, fun n equal => none ⟨n, equal⟩⟩
  | .scalar a =>
    by_cases isWord : (Value.scalar a).IsWord
    · exact .inl (.inr (.inl isWord))
    · rcases ofValue_of_not_isWord isWord with rfl | ⟨s, rfl⟩ | ⟨fault, fails⟩
      · exact .inl (.inl rfl)
      · exact .inr (.text (ofValue_text_ok.1 read))
      · obtain ⟨bits, read⟩ := read
        rw [fails] at read
        cases read

/-- A value is read as bits exactly if it stores bits, unless it is one of those that are read
leniently; each of these is read and stores none. -/
theorem reads_encoding_iff (v : Value) :
    ((∃ bits, ofValue v = .ok bits) ↔ v.IsEncoding) ↔ ¬ v.ReadLeniently := by
  rw [ofValue_ok_iff]
  constructor
  · intro exact lenient
    exact (exact.1 (.inr lenient)).not_readLeniently lenient
  · intro strict
    exact or_iff_left strict

/-- A truth value on its own is refused, but in a list it is read as a word. -/
theorem truth_value_read_in_list :
    ¬ ∀ v : Value, (∃ bits, ofValue v = .ok bits) ↔ v.IsEncoding := by
  intro claim
  have encoding := (claim (.list [.bool true])).1 ⟨⟨1⟩, rfl⟩
  refine encoding.not_readLeniently (.list ?_ ?_)
  · simpa using Value.StandsForWord.bool true
  · exact ⟨.bool true, List.mem_singleton_self _, fun n equal => by cases equal⟩

end Bits

end PrivilegeStore
