import Mathlib.Data.List.DropRight
import Mathlib.Data.Nat.Digits.Lemmas
import PrivilegeStore.Proofs.Bits.Words

/-!
# Bits and lists of words

Cutting bits into words is writing their number with digits below `2 ^ 64`. So every list of words
is read as the sum of its words by their places, and of the lists that are read as the same bits
exactly one is written: the one without zero words at its end. A single zero word stands for empty
bits, which have no digits.
-/
namespace PrivilegeStore.Bits

/-- Integers less the zeros at their end; a single zero if nothing is left. -/
def canonical (ws : List Int) : List Int :=
  if ws.rdropWhile (· == 0) = [] then [0] else ws.rdropWhile (· == 0)

theorem one_lt_wordBound : 1 < wordBound := by decide

section Digits

variable {us : List Nat}

theorem weigh_eq_ofDigits (us : List Nat) : weigh us = Nat.ofDigits wordBound us := by
  induction us with
  | nil => rfl
  | cons u rest ih => rw [weigh, Nat.ofDigits_cons, ih]

theorem cut_eq_digits {fuel n : Nat} (enough : n < 2 ^ fuel) :
    cut fuel n = Nat.digits wordBound n := by
  induction fuel generalizing n with
  | zero =>
    have zero : n = 0 := by simpa using enough
    rw [zero, Nat.digits_zero, cut]
  | succ fuel ih =>
    rw [cut]
    split
    next zero => rw [zero, Nat.digits_zero]
    next some =>
      have lowest : n &&& (wordBound - 1) = n % wordBound := by
        rw [wordBound, Nat.one_shiftLeft, Nat.and_two_pow_sub_one_eq_mod]
      have above : n >>> wordSize = n / wordBound := by
        rw [wordBound, Nat.one_shiftLeft, Nat.shiftRight_eq_div_pow]
      rw [ih (shiftRight_lt enough), lowest, above,
        Nat.digits_eq_cons_digits_div one_lt_wordBound some]

/-- Bits are written by the digits of their number, or by a zero if it has none. -/
theorem toWords_eq (b : Bits) :
    b.toWords = if Nat.digits wordBound b.value = [] then [0] else Nat.digits wordBound b.value := by
  simp only [toWords, cut_eq_digits (lt_two_pow_bitLength b.value), Nat.digits_eq_nil_iff_eq_zero]

/-- The digits of the number that words stand for are these words, less the zeros at their end. -/
theorem digits_weigh (bounded : ∀ u ∈ us, u < wordBound) :
    Nat.digits wordBound (weigh us) = us.rdropWhile (· == 0) := by
  rw [weigh_eq_ofDigits]
  induction us using List.reverseRecOn with
  | nil => simp
  | append_singleton rest u ih =>
    rw [List.rdropWhile_concat]
    split
    next zero =>
      rw [beq_iff_eq.1 zero, Nat.ofDigits_append_zero]
      exact ih fun x member => bounded x (List.mem_append_left _ member)
    next nonzero =>
      apply Nat.digits_ofDigits _ one_lt_wordBound _ bounded
      intro _
      simpa using nonzero

/-- The last word is zero only where it is the only one. -/
theorem getLast?_toWords (b : Bits) :
    ∃ last, b.toWords.getLast? = some last ∧ (last = 0 → b.toWords = [0]) := by
  rw [toWords_eq]
  split
  next => exact ⟨0, rfl, fun _ => rfl⟩
  next some =>
    refine ⟨_, List.getLast?_eq_getLast_of_ne_nil some, fun zero => ?_⟩
    exact absurd zero (Nat.getLast_digit_ne_zero wordBound (Nat.digits_ne_nil_iff_ne_zero.1 some))

/-- The zeros at the end of numbers are the same when they are taken as integers. -/
theorem rdropWhile_ints (us : List Nat) :
    (us.map fun (u : Nat) => (u : Int)).rdropWhile (· == 0) =
      (us.rdropWhile (· == 0)).map fun (u : Nat) => (u : Int) := by
  have zero : ((· == 0) : Int → Bool) ∘ (fun (u : Nat) => (u : Int)) = (· == 0) := by
    funext u
    rw [Function.comp_apply, Bool.eq_iff_iff, beq_iff_eq, beq_iff_eq, Int.natCast_eq_zero]
  rw [List.rdropWhile, List.rdropWhile, ← List.map_reverse, List.dropWhile_map, zero,
    List.map_reverse]

/-- What is read from words is written as these words, less the zeros at their end. -/
theorem toWords_ofWords (bounded : ∀ u ∈ us, u < wordBound) :
    (ofWords us).toWords.map (fun (u : Nat) => (u : Int)) =
      canonical (us.map fun (u : Nat) => (u : Int)) := by
  rw [toWords_eq, value_ofWords bounded, digits_weigh bounded, canonical, rdropWhile_ints]
  simp only [List.map_eq_nil_iff]
  split <;> rfl

end Digits

/-- The number that words stand for is the sum of the words by their places, counted from `k`. -/
theorem weigh_eq_sum (us : List Nat) (k : Nat) :
    (weigh us * 2 ^ (64 * k) : Int) =
      (((us.map fun (u : Nat) => (u : Int)).zipIdx k).map fun (w, i) => w * 2 ^ (64 * i)).sum := by
  induction us generalizing k with
  | nil => simp [weigh]
  | cons u rest ih =>
    have place : (2 : Int) ^ (64 * (k + 1)) = wordBound * 2 ^ (64 * k) := by
      rw [Nat.mul_add, Nat.mul_one, pow_add, mul_comm]
      rfl
    rw [List.map_cons, List.zipIdx_cons, List.map_cons, List.sum_cons, ← ih, place, weigh]
    push_cast
    ring

section Reading

variable {ws : List Int}

/-- Integers are taken as words as they are, be it that elements are turned into integers or not. -/
theorem plainWords_ints (ws : List Int) : plainWords (ws.map .int) = words (ws.map .int) := by
  induction ws with
  | nil => rfl
  | cons w rest ih =>
    rw [List.map_cons, plainWords, words, ih]
    rfl

theorem ofElements_ints (ws : List Int) :
    ofElements (.list (ws.map .int)) = (words (ws.map .int)).map ofWords := by
  rw [← plainWords_ints]
  rfl

/-- A list of integers can be read exactly if each of them fits into a word. -/
theorem ofElements_ints_ok :
    (∃ bits, ofElements (.list (ws.map .int)) = .ok bits) ↔ ∀ w ∈ ws, 0 ≤ w ∧ w < wordBound := by
  rw [ofElements_ints, map_ofWords_ok, words_ok_iff, List.forall_mem_map]
  refine forall_congr' fun w => imp_congr_right fun _ => ?_
  rw [← word_ok_iff]
  constructor
  · rintro ⟨n, u, number, fits⟩
    cases number
    exact ⟨u, fits⟩
  · rintro ⟨u, fits⟩
    exact ⟨w, u, rfl, fits⟩

/-- Integers that fit into words are natural numbers. -/
theorem exists_words (fits : ∀ w ∈ ws, 0 ≤ w ∧ w < wordBound) :
    ∃ us : List Nat, (∀ u ∈ us, u < wordBound) ∧ ws = us.map fun (u : Nat) => (u : Int) := by
  refine ⟨ws.map Int.toNat, ?_, ?_⟩
  · rw [List.forall_mem_map]
    intro w member
    have := fits w member
    omega
  · rw [List.map_map]
    calc ws = ws.map id := (List.map_id ws).symm
      _ = ws.map ((fun (u : Nat) => (u : Int)) ∘ Int.toNat) :=
        List.map_congr_left fun w member => (Int.toNat_of_nonneg (fits w member).1).symm

/-- A list of integers that can be read is a list of words, and the bits are theirs. -/
theorem words_of_ofElements {bits : Bits} (read : ofElements (.list (ws.map .int)) = .ok bits) :
    ∃ us : List Nat, (∀ u ∈ us, u < wordBound) ∧ ws = us.map (fun (u : Nat) => (u : Int)) ∧
      bits = ofWords us := by
  obtain ⟨us, bounded, rfl⟩ := exists_words (ofElements_ints_ok.1 ⟨bits, read⟩)
  have listed : words ((us.map fun (u : Nat) => (u : Int)).map .int) = .ok us := by
    rw [List.map_map]
    exact words_ints bounded
  rw [ofElements_ints, listed] at read
  exact ⟨us, bounded, rfl, (Except.ok.inj read).symm⟩

end Reading

theorem ofElements_stored (b : Bits) : ofElements b.stored = .ok b := by
  have asInts : b.stored = .list ((b.toWords.map fun (u : Nat) => (u : Int)).map .int) := by
    rw [List.map_map]
    rfl
  rw [asInts, ofElements_ints, ← ofValue_list, ← asInts, ofValue_stored]

/-- What is written is read back, in words of 64 bits without a zero at the end. A list of integers
is read exactly if each of them fits into a word, as their sum by places, and what is read is
written as the list less the zeros at its end. -/
theorem words_lawful (b : Bits) (ws : List Int) :
    (ofElements b.stored = .ok b ∧ ofValue b.stored = .ok b ∧ (∀ u ∈ b.toWords, u < 2 ^ 64) ∧
        ∃ last, b.toWords.getLast? = some last ∧ (last = 0 → b.toWords = [0])) ∧
      ((∃ bits, ofElements (.list (ws.map .int)) = .ok bits) ↔ ∀ w ∈ ws, 0 ≤ w ∧ w < 2 ^ 64) ∧
      ∀ bits, ofElements (.list (ws.map .int)) = .ok bits →
        (bits.value : Int) = (ws.zipIdx.map fun (w, i) => w * 2 ^ (64 * i)).sum ∧
          bits.toWords.map (fun (u : Nat) => (u : Int)) = canonical ws := by
  refine ⟨⟨ofElements_stored b, ofValue_stored b, fun _ => toWords_bounded, getLast?_toWords b⟩,
    ofElements_ints_ok, fun bits read => ?_⟩
  obtain ⟨us, bounded, rfl, rfl⟩ := words_of_ofElements read
  refine ⟨?_, toWords_ofWords bounded⟩
  rw [value_ofWords bounded, ← weigh_eq_sum us 0, Nat.mul_zero, pow_zero, mul_one]

/-- Zero words are read and not written. -/
example : (ofElements (.list [.int 5, .int 1, .int 0, .int 0])).map toWords = .ok [5, 1] := by
  decide

end PrivilegeStore.Bits
