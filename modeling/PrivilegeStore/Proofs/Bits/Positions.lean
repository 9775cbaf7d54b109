import PrivilegeStore.Definition.BitsTable
import PrivilegeStore.Proofs.Bits.Words

/-!
# Positions of bits

A union holds the positions that one of its parts holds. The bits above some bits depend on the
highest position only, so among single bits they tell which bit they are above.
-/
namespace PrivilegeStore.Bits

/-- Bits at one position and no other. -/
def IsSingle (b : Bits) : Prop := ∃ k, b = ⟨2 ^ k⟩

/-- No position is held by both. -/
def Disjoint (a b : Bits) : Prop := a.value &&& b.value = 0

theorem bitLength_two_pow (k : Nat) : bitLength (2 ^ k) = k + 1 := by
  have positive := Nat.two_pow_pos k
  rw [bitLength, if_neg (by omega), Nat.log2_two_pow]

theorem next_two_pow (k : Nat) : next ⟨2 ^ k⟩ = ⟨2 ^ (k + 1)⟩ := by
  rw [next_eq, bitLength_two_pow]

theorem isSingle_next (b : Bits) : b.next.IsSingle := ⟨bitLength b.value, b.next_eq⟩

theorem IsSingle.eq_of_next {a b : Bits} (ha : a.IsSingle) (hb : b.IsSingle) (h : a.next = b.next) :
    a = b := by
  obtain ⟨j, rfl⟩ := ha
  obtain ⟨k, rfl⟩ := hb
  rw [next_two_pow, next_two_pow, Bits.mk.injEq] at h
  have equal : j + 1 = k + 1 := (Nat.pow_right_inj (by decide)).1 h
  rw [Nat.succ.inj equal]

theorem Disjoint.symm {a b : Bits} (apart : a.Disjoint b) : b.Disjoint a := by
  rw [Disjoint, Nat.and_comm]
  exact apart

/-- Bits that share no position with others hold none of theirs. -/
theorem Disjoint.not_both {a b : Bits} (apart : a.Disjoint b) {i : Nat}
    (left : a.value.testBit i = true) (right : b.value.testBit i = true) : False := by
  have both : (a.value &&& b.value).testBit i = true := by rw [Nat.testBit_and, left, right]; rfl
  rw [show a.value &&& b.value = 0 from apart, Nat.zero_testBit] at both
  cases both

/-- A single bit shares nothing with bits that lie below it. -/
theorem disjoint_of_lt {k : Nat} {b : Bits} (below : b.value < 2 ^ k) : Disjoint ⟨2 ^ k⟩ b := by
  apply Nat.eq_of_testBit_eq
  intro i
  rw [Nat.testBit_and, Nat.testBit_two_pow, Nat.zero_testBit]
  by_cases here : k = i
  · subst here
    rw [Nat.testBit_lt_two_pow below, Bool.and_false]
  · simp [here]

theorem exists_testBit {b : Bits} (some : b.isEmpty = false) : ∃ i, b.value.testBit i = true := by
  rw [Bits.isEmpty, beq_eq_false_iff_ne] at some
  exact Nat.exists_testBit_of_ne_zero some

theorem testBit_foldl_union (start : Bits) (family : List Bits) (i : Nat) :
    (family.foldl union start).value.testBit i = true ↔
      start.value.testBit i = true ∨ ∃ b ∈ family, b.value.testBit i = true := by
  induction family generalizing start with
  | nil => simp
  | cons b rest ih =>
    rw [List.foldl_cons, ih, union, Nat.testBit_or, Bool.or_eq_true]
    simp [or_assoc]

theorem testBit_unionAll {family : List Bits} {i : Nat} :
    (unionAll family).value.testBit i = true ↔ ∃ b ∈ family, b.value.testBit i = true := by
  rw [unionAll, testBit_foldl_union]
  simp [empty]

theorem ext_testBit {a b : Bits}
    (h : ∀ i, a.value.testBit i = true ↔ b.value.testBit i = true) : a = b := by
  obtain ⟨m⟩ := a
  obtain ⟨n⟩ := b
  have equal : m = n := Nat.eq_of_testBit_eq fun i => Bool.eq_iff_iff.2 (h i)
  rw [equal]

end PrivilegeStore.Bits

namespace PrivilegeStore.BitsTable

variable {entries : Entries Bits} {names : NameSet} {i : Nat}

/-- The union of names holds the positions of the bits listed for one of them. -/
theorem testBit_unionOf : (unionOf entries names).value.testBit i = true ↔
    ∃ name ∈ names, ∃ bits, find? entries name = some bits ∧ bits.value.testBit i = true := by
  rw [unionOf, Bits.testBit_unionAll]
  constructor
  · rintro ⟨bits, member, held⟩
    obtain ⟨name, here, found⟩ := List.mem_filterMap.1 member
    exact ⟨name, here, bits, found, held⟩
  · rintro ⟨name, here, bits, found, held⟩
    exact ⟨bits, List.mem_filterMap.2 ⟨name, here, found⟩, held⟩

theorem unionOf_congr {others : NameSet} (same : ∀ name, name ∈ names ↔ name ∈ others) :
    unionOf entries names = unionOf entries others := by
  apply Bits.ext_testBit
  intro i
  rw [testBit_unionOf, testBit_unionOf]
  exact exists_congr fun name => and_congr_left' (same name)

/-- A union with bits that are not empty is not empty. -/
theorem isEmpty_unionOf {name : Scalar} {bits : Bits} (member : name ∈ names)
    (found : find? entries name = some bits) (some : bits.isEmpty = false) :
    (unionOf entries names).isEmpty = false := by
  obtain ⟨i, held⟩ := Bits.exists_testBit some
  have within := testBit_unionOf.2 ⟨name, member, bits, found, held⟩
  rw [Bits.isEmpty, beq_eq_false_iff_ne]
  intro none
  rw [none, Nat.zero_testBit] at within
  cases within

/-- A union of bits that lie below a position lies below it. -/
theorem unionOf_lt {k : Nat}
    (below : ∀ name bits, Entries.find? name entries = some bits → bits.value < 2 ^ k) :
    (unionOf entries names).value < 2 ^ k := by
  apply Nat.lt_pow_two_of_testBit
  intro i high
  apply Bool.eq_false_iff.2
  intro held
  obtain ⟨name, -, bits, found, own⟩ := testBit_unionOf.1 held
  cases name with
  | text s =>
    have small : bits.value < 2 ^ i :=
      Nat.lt_of_lt_of_le (below s bits found) (Nat.pow_le_pow_right (by decide) high)
    rw [Nat.testBit_lt_two_pow small] at own
    cases own
  | _ => cases found

end PrivilegeStore.BitsTable
