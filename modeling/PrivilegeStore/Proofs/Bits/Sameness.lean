import PrivilegeStore.Proofs.Bits.Words
import PrivilegeStore.Proofs.Value.Sameness

/-!
# Same values as stored bits

The elements of a list stand for the same words however the numbers among them are written, and of
an object only the names count. So where a value can be read as bits, a same value can be as well,
with one exception: an integer that stands alone is a single word, while the truth value and the
float that are the same number are refused.
-/
namespace PrivilegeStore

/-- Two values are the same number, written as an integer in the first place only. -/
structure Value.Retyped (v w : Value) : Prop where
  same : v.same w = true
  integer : ∃ n, v = .int n
  other : ∀ n, w ≠ .int n

namespace Binary64

/-- The exact value of a finite number, from its form. -/
theorem units_of_key {s : Bool} {m e fraction : Nat} {whole : Int}
    (key : key (.finite s m e) = .number whole fraction) :
    signed s (m <<< e) = unitsPerOne * whole + fraction := by
  simp only [Binary64.key, Key.number.injEq] at key
  obtain ⟨quotient, rest⟩ := key
  have positive := unitsPerOne_pos
  have nonneg := Int.emod_nonneg (signed s (m <<< e)) (b := unitsPerOne) (by omega)
  have split := Int.mul_ediv_add_emod (signed s (m <<< e)) unitsPerOne
  rw [quotient] at split
  omega

theorem signed_div (s : Bool) (n d : Nat) : signed s (n / d) = (signed s n).tdiv d := by
  cases s <;> simp [signed]

end Binary64

namespace Scalar

variable {a : Scalar}

theorem key_eq_null : a.key = .null ↔ a = .null := by
  cases a with
  | float x => cases x <;> simp [key, Binary64.key]
  | _ => simp [key]

theorem key_eq_nan : a.key = .nan ↔ a = .float .nan := by
  cases a with
  | float x => cases x <;> simp [key, Binary64.key]
  | _ => simp [key]

theorem key_eq_infinity {negative : Bool} :
    a.key = .infinity negative ↔ a = .float (.infinity negative) := by
  cases a with
  | float x => cases x <;> simp [key, Binary64.key]
  | _ => simp [key]

end Scalar

namespace Bits

theorem integer_float (s : Bool) (m e : Nat) :
    integer (.scalar (.float (.finite s m e))) =
      .ok ((Binary64.signed s (m <<< e)).tdiv Binary64.unitsPerOne) := by
  rw [integer, Binary64.signed_div]

/-- The integer that a number stands for, from its form. -/
theorem integer_of_key {a : Scalar} {whole : Int} {fraction : Nat}
    (key : a.key = .number whole fraction) :
    integer (.scalar a) =
      .ok ((Binary64.unitsPerOne * whole + fraction : Int).tdiv Binary64.unitsPerOne) := by
  have positive : (Binary64.unitsPerOne : Int) ≠ 0 := by
    have := Binary64.unitsPerOne_pos
    omega
  have exact (n : Int) :
      (Binary64.unitsPerOne * n + (0 : Nat) : Int).tdiv Binary64.unitsPerOne = n := by
    rw [Int.natCast_zero, Int.add_zero, Int.mul_tdiv_cancel_left n positive]
  cases a with
  | null => cases key
  | text s => cases key
  | bool b =>
    cases key
    rw [exact]
    rfl
  | int n =>
    cases key
    rw [exact]
    rfl
  | float x =>
    cases x with
    | nan => cases key
    | infinity s => cases key
    | finite s m e => rw [integer_float, Binary64.units_of_key key]

/-- Same values stand for the same integer, or for none for the same reason. -/
theorem integer_congr {v w : Value} (same : v.form = w.form) : integer v = integer w := by
  cases v with
  | scalar a =>
    cases w with
    | scalar b =>
      have keys : a.key = b.key := by simpa [Value.form] using same
      cases key : b.key with
      | number whole fraction => rw [integer_of_key (keys.trans key), integer_of_key key]
      -- all else is written in one way only
      | null => rw [Scalar.key_eq_null.1 (keys.trans key), Scalar.key_eq_null.1 key]
      | nan => rw [Scalar.key_eq_nan.1 (keys.trans key), Scalar.key_eq_nan.1 key]
      | infinity s => rw [Scalar.key_eq_infinity.1 (keys.trans key), Scalar.key_eq_infinity.1 key]
      | text s => rw [Scalar.key_eq_text.1 (keys.trans key), Scalar.key_eq_text.1 key]
    | list => simp [Value.form] at same
    | object => simp [Value.form] at same
  | list =>
    cases w with
    | scalar => simp [Value.form] at same
    | list => rfl
    | object => rfl
  | object =>
    cases w with
    | scalar => simp [Value.form] at same
    | list => rfl
    | object => rfl

/-- Elements that are the same one by one stand for the same words. -/
theorem words_congr {items others : List Value}
    (same : Value.formItems items = Value.formItems others) : words items = words others := by
  induction items generalizing others with
  | nil =>
    cases others with
    | nil => rfl
    | cons => simp [Value.formItems] at same
  | cons item rest ih =>
    cases others with
    | nil => simp [Value.formItems] at same
    | cons other others =>
      simp only [Value.formItems, List.cons.injEq] at same
      rw [words, words, integer_congr same.1, ih same.2]

/-- What is the same as bits that can be read can be read, unless it is an integer that has been
retyped. -/
theorem ofValue_of_same {v w : Value} {bits : Bits} (same : v.form = w.form)
    (read : ofValue v = .ok bits) (typed : ¬ v.Retyped w) : ∃ others, ofValue w = .ok others := by
  cases v with
  | scalar a =>
    cases w with
    | scalar b =>
      cases a with
      | int n =>
        by_cases stays : ∃ m, Value.scalar b = .int m
        · obtain ⟨m, here⟩ := stays
          rw [here] at same ⊢
          have equal : n = m := by simpa [Value.form, Value.int, Scalar.key] using same
          exact ⟨bits, by rw [Value.int, ← equal, read]⟩
        · exact absurd ⟨Value.same_iff.2 same, ⟨n, rfl⟩, fun m here => stays ⟨m, here⟩⟩ typed
      | null =>
        have null := Scalar.key_eq_null.1 (Form.scalar.inj same).symm
        exact ⟨bits, by rw [null, read]⟩
      | text s =>
        have text := Scalar.key_eq_text.1 (Form.scalar.inj same).symm
        exact ⟨bits, by rw [text, read]⟩
      | bool t => cases read
      | float x => cases read
    | list => simp [Value.form] at same
    | object => simp [Value.form] at same
  | list items =>
    cases w with
    | list others =>
      rw [ofValue_list] at read ⊢
      rw [← words_congr (Form.list.inj same), read]
      exact ⟨bits, rfl⟩
    | scalar => simp [Value.form] at same
    | object => simp [Value.form] at same
  | object entries =>
    cases w with
    | object others =>
      have names (name : String) : name ∈ entries.map Prod.fst ↔ name ∈ others.map Prod.fst :=
        Value.mem_fst_congr (Form.object.inj same)
      rw [ofValue_object] at read ⊢
      have readable := words_ok_iff.1 (map_ofWords_ok.1 ⟨bits, read⟩)
      refine map_ofWords_ok.2 (words_ok_iff.2 fun item member => ?_)
      obtain ⟨name, there, rfl⟩ := List.mem_map.1 member
      exact readable _ (List.mem_map_of_mem ((names name).2 there))
    | scalar => simp [Value.form] at same
    | list => simp [Value.form] at same

end Bits

end PrivilegeStore
