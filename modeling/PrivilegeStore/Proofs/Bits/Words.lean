import Mathlib.Algebra.Group.Nat.Defs
import PrivilegeStore.Bits.Stored
import PrivilegeStore.Entries

/-!
# Words and the number they stand for

Words do not reach into one another's places, so putting them side by side comes to adding them up
by their positional weights. Cutting a number into words and putting them side by side again gives
the number back, so stored bits are read as they were written.
-/
namespace PrivilegeStore.Bits

theorem wordBound_pos : 0 < wordBound := by
  rw [wordBound, Nat.one_shiftLeft]
  exact Nat.two_pow_pos wordSize

theorem word_eq_ok_iff {n : Int} {w : Nat} : word n = .ok w ↔ w < wordBound ∧ n = w := by
  rw [word]
  split
  next fits =>
    simp only [Except.ok.injEq]
    omega
  next overflows =>
    simp only [reduceCtorEq, false_iff]
    omega

/-- Words are the integers below the bound. -/
theorem word_ok_iff {n : Int} : (∃ w, word n = .ok w) ↔ 0 ≤ n ∧ n < wordBound := by
  simp only [word_eq_ok_iff]
  constructor
  · rintro ⟨w, fits, rfl⟩
    omega
  · rintro ⟨nonneg, fits⟩
    exact ⟨n.toNat, by omega, by omega⟩

theorem word_natCast {w : Nat} (fits : w < wordBound) : word (w : Int) = .ok w :=
  word_eq_ok_iff.2 ⟨fits, rfl⟩

theorem words_bounded {items : List Value} {ws : List Nat} (read : words items = .ok ws) :
    ∀ w ∈ ws, w < wordBound := by
  induction items generalizing ws with
  | nil =>
    cases read
    simp
  | cons item rest ih =>
    rw [words] at read
    split at read
    · cases read
    next n number =>
      split at read
      · cases read
      next w fits =>
        split at read
        · cases read
        next others later =>
          cases read
          exact List.forall_mem_cons.2 ⟨(word_eq_ok_iff.1 fits).1, ih later⟩

/-- Elements can be turned into words exactly if each of them can. -/
theorem words_ok_iff {items : List Value} :
    (∃ ws, words items = .ok ws) ↔
      ∀ item ∈ items, ∃ n w, integer item = .ok n ∧ word n = .ok w := by
  induction items with
  | nil => simp [words]
  | cons item rest ih =>
    rw [List.forall_mem_cons, ← ih, words]
    cases integer item with
    | error fault => simp
    | ok n =>
      cases fits : word n with
      | error fault => simp [fits]
      | ok w => cases words rest <;> simp [fits]

theorem ofValue_list (items : List Value) : ofValue (.list items) = (words items).map ofWords := rfl

theorem ofValue_object (entries : Entries Value) :
    ofValue (.object entries) = (words ((entries.map Prod.fst).map Value.text)).map ofWords := by
  rw [List.map_map]
  rfl

theorem map_ofWords_ok {ws : Except Fault (List Nat)} :
    (∃ bits, ws.map ofWords = .ok bits) ↔ ∃ words, ws = .ok words := by
  cases ws <;> simp [Except.map]

theorem words_cons {element : Value} {rest : List Value} {n : Int} {w : Nat} {ws : List Nat}
    (read : integer element = .ok n) (fits : word n = .ok w) (later : words rest = .ok ws) :
    words (element :: rest) = .ok (w :: ws) := by
  rw [words, read]
  simp only [fits, later]

theorem words_ints {ws : List Nat} (bounded : ∀ w ∈ ws, w < wordBound) :
    words (ws.map fun (w : Nat) => .int w) = .ok ws := by
  induction ws with
  | nil => rfl
  | cons w rest ih =>
    have first := word_natCast (bounded w List.mem_cons_self)
    have later := ih fun x member => bounded x (List.mem_cons_of_mem _ member)
    exact words_cons rfl first later

theorem value_ofWords {ws : List Nat} (bounded : ∀ w ∈ ws, w < wordBound) :
    (ofWords ws).value = weigh ws := by
  induction ws with
  | nil => rfl
  | cons w rest ih =>
    obtain ⟨low, later⟩ := List.forall_mem_cons.1 bounded
    rw [wordBound, Nat.one_shiftLeft] at low
    calc (ofWords (w :: rest)).value = w ||| (ofWords rest).value <<< wordSize := rfl
      _ = w ||| weigh rest <<< wordSize := by rw [ih later]
      _ = weigh rest <<< wordSize + w := by
        rw [Nat.or_comm, Nat.shiftLeft_add_eq_or_of_lt low]
      _ = w + wordBound * weigh rest := by
        rw [Nat.shiftLeft_eq, wordBound, Nat.one_shiftLeft, Nat.mul_comm, Nat.add_comm]

theorem cut_bounded {fuel n w : Nat} (member : w ∈ cut fuel n) : w < wordBound := by
  induction fuel generalizing n with
  | zero => exact absurd member List.not_mem_nil
  | succ fuel ih =>
    rw [cut] at member
    split at member
    · exact absurd member List.not_mem_nil
    · rcases List.mem_cons.1 member with rfl | later
      · have positive := wordBound_pos
        have masked : n &&& (wordBound - 1) ≤ wordBound - 1 := Nat.and_le_right
        omega
      · exact ih later

theorem toWords_bounded {b : Bits} {w : Nat} (member : w ∈ b.toWords) : w < wordBound := by
  rw [toWords] at member
  split at member
  · rw [List.mem_singleton.1 member]
    exact wordBound_pos
  · exact cut_bounded member

/-- A number is its lowest word and what is left of it above. -/
theorem join_lowest_word (n : Nat) : n &&& (wordBound - 1) ||| n >>> wordSize <<< wordSize = n := by
  have low : n % 2 ^ wordSize < 2 ^ wordSize := Nat.mod_lt _ (Nat.two_pow_pos _)
  rw [wordBound, Nat.one_shiftLeft, Nat.and_two_pow_sub_one_eq_mod, Nat.shiftRight_eq_div_pow,
    Nat.shiftLeft_eq, Nat.or_comm, Nat.mul_comm, ← Nat.two_pow_add_eq_or_of_lt low]
  exact Nat.div_add_mod n _

/-- What is left above the lowest word has fewer binary digits. -/
theorem shiftRight_lt {fuel n : Nat} (enough : n < 2 ^ (fuel + 1)) : n >>> wordSize < 2 ^ fuel := by
  have two : 2 ≤ 2 ^ wordSize := by decide
  rw [Nat.shiftRight_eq_div_pow]
  apply Nat.div_lt_of_lt_mul
  calc n < 2 * 2 ^ fuel := by rwa [← Nat.pow_succ']
    _ ≤ 2 ^ wordSize * 2 ^ fuel := Nat.mul_le_mul_right _ two

theorem ofWords_cut {fuel n : Nat} (enough : n < 2 ^ fuel) : ofWords (cut fuel n) = ⟨n⟩ := by
  induction fuel generalizing n with
  | zero =>
    have zero : n = 0 := by simpa using enough
    rw [zero]
    rfl
  | succ fuel ih =>
    rw [cut]
    split
    next zero =>
      rw [zero]
      rfl
    next => rw [ofWords, ih (shiftRight_lt enough), join_lowest_word]

theorem bitLength_le_iff {n k : Nat} : bitLength n ≤ k ↔ n < 2 ^ k := by
  rw [bitLength]
  split
  next zero =>
    have positive := Nat.two_pow_pos k
    omega
  next some => exact Nat.log2_lt some

theorem lt_two_pow_bitLength (n : Nat) : n < 2 ^ bitLength n :=
  bitLength_le_iff.1 (Nat.le_refl _)

theorem next_eq (b : Bits) : b.next = ⟨2 ^ bitLength b.value⟩ := by rw [next, Nat.one_shiftLeft]

/-- The bit above some bits is larger than all of them together. -/
theorem value_lt_next (b : Bits) : b.value < b.next.value := by
  rw [next_eq]
  exact lt_two_pow_bitLength b.value

theorem ofWords_toWords (b : Bits) : ofWords b.toWords = b := by
  rw [toWords]
  split
  next zero =>
    obtain ⟨n⟩ := b
    subst zero
    rfl
  next => exact ofWords_cut (lt_two_pow_bitLength b.value)

/-- Stored bits are read back. -/
theorem ofValue_stored (b : Bits) : ofValue b.stored = .ok b := by
  have read : words (b.toWords.map fun (w : Nat) => .int w) = .ok b.toWords :=
    words_ints fun _ => toWords_bounded
  simp only [stored, ofValue, Value.elements, read, Except.map, ofWords_toWords]

end PrivilegeStore.Bits
