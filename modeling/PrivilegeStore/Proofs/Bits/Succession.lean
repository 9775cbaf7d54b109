import Mathlib.Order.MinMax
import PrivilegeStore.Proofs.Bits.Positions

/-!
# The bit above

A number has at most `k` binary digits exactly if it lies below `2 ^ k`. So the bit above some bits
is the least single bit that is larger than they are, it is reached by nothing that lies below it,
and it shows which bit of theirs is the highest, but nothing else of them. The bits of a union lie
below `2 ^ k` exactly if those of each part do, which makes the bit above the union the largest of
the bits above the parts.
-/
namespace PrivilegeStore.Bits

/-- A position is held and no position above it is. -/
def IsHighest (b : Bits) (k : Nat) : Prop :=
  b.value.testBit k = true ∧ ∀ i, b.value.testBit i = true → i ≤ k

theorem or_lt_two_pow_iff {m n k : Nat} : m ||| n < 2 ^ k ↔ m < 2 ^ k ∧ n < 2 ^ k := by
  constructor
  · intro both
    exact ⟨Nat.lt_of_le_of_lt Nat.left_le_or both, Nat.lt_of_le_of_lt Nat.right_le_or both⟩
  · rintro ⟨left, right⟩
    exact Nat.or_lt_two_pow left right

theorem bitLength_or (m n : Nat) : bitLength (m ||| n) = max (bitLength m) (bitLength n) := by
  apply eq_of_forall_ge_iff
  intro k
  rw [Nat.max_le, bitLength_le_iff, bitLength_le_iff, bitLength_le_iff, or_lt_two_pow_iff]

variable {a b c : Bits} {k : Nat}

theorem value_next (b : Bits) : b.next.value = 2 ^ bitLength b.value := by rw [next_eq]

/-- Among single bits, those that reach the bit above some bits are the larger ones. -/
theorem value_next_le_iff (single : c.IsSingle) : b.next.value ≤ c.value ↔ b.value < c.value := by
  obtain ⟨k, rfl⟩ := single
  rw [value_next, Nat.pow_le_pow_iff_right (by decide), bitLength_le_iff]

/-- The bit above some bits shares nothing with what lies below it. -/
theorem next_disjoint (below : c.value < b.next.value) : b.next.Disjoint c := by
  obtain ⟨k, position⟩ := b.isSingle_next
  rw [position] at below ⊢
  exact disjoint_of_lt below

theorem value_next_union (a b : Bits) :
    (a.union b).next.value = max a.next.value b.next.value := by
  have mono : Monotone fun k => 2 ^ k := fun _ _ => Nat.pow_le_pow_right (by decide)
  rw [value_next, value_next, value_next, union, bitLength_or]
  exact mono.map_max

theorem value_next_foldl_union (start : Bits) (family : List Bits) :
    (family.foldl union start).next.value =
      (family.map fun b => b.next.value).foldl max start.next.value := by
  induction family generalizing start with
  | nil => rfl
  | cons b rest ih => rw [List.foldl_cons, ih, value_next_union, List.map_cons, List.foldl_cons]

theorem empty_union (b : Bits) : empty.union b = b := by rw [union, empty, Nat.zero_or]

/-- The bit above a union is the largest of the bits above its parts, and `1` if there are none. -/
theorem value_next_unionAll (family : List Bits) :
    (unionAll family).next.value = (family.map fun b => b.next.value).max?.getD 1 := by
  cases family with
  | nil => rfl
  | cons b rest =>
    rw [unionAll, List.foldl_cons, empty_union, value_next_foldl_union, List.map_cons,
      List.max?_cons', Option.getD_some]

/-- The highest position is the one below the bit above. -/
theorem isHighest_iff : b.IsHighest k ↔ b.next = ⟨2 ^ (k + 1)⟩ := by
  have digits : b.next = ⟨2 ^ (k + 1)⟩ ↔ bitLength b.value = k + 1 := by
    rw [next_eq, Bits.mk.injEq, Nat.pow_right_inj (by decide)]
  rw [digits]
  constructor
  -- that the position is held bounds the digits from below, that no higher one is from above
  · rintro ⟨held, highest⟩
    have reached : ¬ bitLength b.value ≤ k := by
      rw [bitLength_le_iff, Nat.not_lt]
      exact Nat.ge_two_pow_of_testBit held
    have bounded : bitLength b.value ≤ k + 1 := by
      refine bitLength_le_iff.2 (Nat.lt_pow_two_of_testBit _ fun i above => ?_)
      exact Bool.eq_false_iff.2 fun other => absurd (highest i other) (by omega)
    omega
  · intro length
    have bounded : b.value < 2 ^ (k + 1) := bitLength_le_iff.1 (by omega)
    have reached : 2 ^ k ≤ b.value := Nat.not_lt.1 fun small => by
      have shorter := bitLength_le_iff.2 small
      omega
    refine ⟨Nat.testBit_of_two_pow_le_and_two_pow_add_one_gt reached bounded, fun i held => ?_⟩
    have within := Nat.lt_of_le_of_lt (Nat.ge_two_pow_of_testBit held) bounded
    exact Nat.lt_succ_iff.1 ((Nat.pow_lt_pow_iff_right (by decide)).1 within)

theorem exists_isHighest (some : b.isEmpty = false) : ∃ k, b.IsHighest k := by
  rw [Bits.isEmpty, beq_eq_false_iff_ne] at some
  refine ⟨b.value.log2, isHighest_iff.2 ?_⟩
  rw [next_eq, bitLength, if_neg some]

/-- Bits have the same bit above exactly if they have the same highest position. -/
theorem next_eq_iff (some : a.isEmpty = false) :
    a.next = b.next ↔ ∃ k, a.IsHighest k ∧ b.IsHighest k := by
  constructor
  · intro same
    obtain ⟨k, highest⟩ := exists_isHighest some
    exact ⟨k, highest, isHighest_iff.2 (same ▸ isHighest_iff.1 highest)⟩
  · rintro ⟨k, left, right⟩
    rw [isHighest_iff.1 left, isHighest_iff.1 right]

/-- The bit above some bits is the least single bit that is larger, and shares no position with what
lies below it. A union has the largest of the bits above its parts. Bits that are not empty have the
same bit above exactly if they have the same highest position. -/
theorem next_lawful (a b : Bits) (family : List Bits) :
    (b.next.IsSingle ∧ b.value < b.next.value ∧
        ∀ c : Bits, c.IsSingle → b.value < c.value → b.next.value ≤ c.value) ∧
      ((∀ c : Bits, c.value < b.next.value → b.next.Disjoint c) ∧ b.next.Disjoint b) ∧
      ((a.union b).next.value = max a.next.value b.next.value ∧
        (unionAll family).next.value = (family.map fun c => c.next.value).max?.getD 1) ∧
      (a.isEmpty = false → b.isEmpty = false →
        (a.next = b.next ↔ ∃ k, a.IsHighest k ∧ b.IsHighest k)) := by
  exact ⟨⟨b.isSingle_next, b.value_lt_next, fun c single => (value_next_le_iff single).2⟩,
    ⟨fun c => next_disjoint, next_disjoint b.value_lt_next⟩,
    ⟨value_next_union a b, value_next_unionAll family⟩, fun some _ => next_eq_iff some⟩

/-- Bits in two words, and what lies below the bit above them. -/
theorem next_lawful_across_words :
    let a : Bits := ⟨2 ^ 64 + 2 ^ 63⟩
    let b : Bits := ⟨2 ^ 64 + 1⟩
    (a.isEmpty = false ∧ b.isEmpty = false ∧
        (a.next = b.next ↔ ∃ k, a.IsHighest k ∧ b.IsHighest k)) ∧
      (b.value < (⟨2 ^ 70⟩ : Bits).value ∧ b.next.value ≤ (⟨2 ^ 70⟩ : Bits).value) ∧
      (a.value < b.next.value ∧ b.next.Disjoint a) ∧
      (unionAll [⟨3⟩, a, b]).next.value = 2 ^ 65 := by
  intro a b
  obtain ⟨⟨-, -, least⟩, ⟨apart, -⟩, ⟨-, union⟩, highest⟩ := next_lawful a b [⟨3⟩, a, b]
  have someA : a.isEmpty = false := by decide
  have someB : b.isEmpty = false := by decide
  have larger : b.value < (⟨2 ^ 70⟩ : Bits).value := by decide
  have below : a.value < b.next.value := by decide
  exact ⟨⟨someA, someB, highest someA someB⟩, ⟨larger, least _ ⟨70, rfl⟩ larger⟩,
    ⟨below, apart a below⟩, union.trans (by decide)⟩

/-- Behind the last place of a word stands the first one of the next word. -/
example : (next ⟨2 ^ 63⟩).toWords = [0, 1] := by decide

end PrivilegeStore.Bits
