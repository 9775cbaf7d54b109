import PrivilegeStore.Text.Blank

/-!
# Integers written in a text

A numeral is an optional sign and decimal digits of any script of Unicode 14, with single low lines
allowed between digits and with blanks around it. Leading zeros are allowed, and there are at most
`maxDigits` digits, zeros included. Reading answers nothing for every other text.
-/
namespace PrivilegeStore.Text

/-- The digits zero of the scripts; each is followed by the other nine in order. -/
def digitZeros : List Nat :=
  [0x30, 0x660, 0x6F0, 0x7C0, 0x966, 0x9E6, 0xA66, 0xAE6, 0xB66, 0xBE6, 0xC66, 0xCE6, 0xD66, 0xDE6,
    0xE50, 0xED0, 0xF20, 0x1040, 0x1090, 0x17E0, 0x1810, 0x1946, 0x19D0, 0x1A80, 0x1A90, 0x1B50,
    0x1BB0, 0x1C40, 0x1C50, 0xA620, 0xA8D0, 0xA900, 0xA9D0, 0xA9F0, 0xAA50, 0xABF0, 0xFF10, 0x104A0,
    0x10D30, 0x11066, 0x110F0, 0x11136, 0x111D0, 0x112F0, 0x11450, 0x114D0, 0x11650, 0x116C0,
    0x11730, 0x118E0, 0x11950, 0x11C50, 0x11D50, 0x11DA0, 0x16A60, 0x16AC0, 0x16B50, 0x1D7CE,
    0x1D7D8, 0x1D7E2, 0x1D7EC, 0x1D7F6, 0x1E140, 0x1E2F0, 0x1E950, 0x1FBF0]

/-- The value of a decimal digit of any script. -/
def digit? (c : Char) : Option Nat :=
  (digitZeros.find? fun base => base ≤ c.toNat && c.toNat < base + 10).map (c.toNat - ·)

/-- Continues a numeral whose last character was a digit. -/
def digitsAfter (value : Nat) : List Char → Option Nat
  | [] => some value
  | '_' :: c :: rest =>
    match digit? c with
    | some d => digitsAfter (10 * value + d) rest
    | none => none
  | c :: rest =>
    match digit? c with
    | some d => digitsAfter (10 * value + d) rest
    | none => none

def natural? : List Char → Option Nat
  | [] => none
  | c :: rest =>
    match digit? c with
    | some d => digitsAfter d rest
    | none => none

def signed? : List Char → Option Int
  | '-' :: rest => (natural? rest).map fun n => -(n : Int)
  | '+' :: rest => (natural? rest).map Int.ofNat
  | rest => (natural? rest).map Int.ofNat

/-- The most digits of a decimal numeral. -/
def maxDigits : Nat := 4300

def dropBlanks (cs : List Char) : List Char := cs.dropWhile isBlank

/-- The integer that a text writes, if it is a numeral. -/
def integer? (text : String) : Option Int :=
  let digits := text.toList.filter fun c => (digit? c).isSome
  if maxDigits < digits.length then none
  else signed? (dropBlanks (dropBlanks text.toList).reverse).reverse

/-! A character on its own. -/

theorem digit?_eq_some {c : Char} {d : Nat} (digit : digit? c = some d) :
    d < 10 ∧ ∃ base ∈ digitZeros, c.toNat = base + d := by
  rw [digit?, Option.map_eq_some_iff] at digit
  obtain ⟨base, found, rfl⟩ := digit
  have within := List.find?_some found
  rw [Bool.and_eq_true, decide_eq_true_eq, decide_eq_true_eq] at within
  exact ⟨by omega, base, List.mem_of_find?_eq_some found, by omega⟩

/-- No blank is a digit. -/
theorem digit?_of_isBlank {c : Char} (blank : isBlank c = true) : digit? c = none := by
  have apart : ∀ base ∈ digitZeros, ∀ d < 10, isBlank (Char.ofNat (base + d)) = false := by decide
  cases digit : digit? c with
  | none => rfl
  | some d =>
    obtain ⟨small, base, member, place⟩ := digit?_eq_some digit
    have other := apart base member d small
    rw [← place, Char.ofNat_toNat, blank] at other
    cases other

theorem dropBlanks_singleton (c : Char) : dropBlanks [c] = if isBlank c then [] else [c] := by
  rw [dropBlanks, List.dropWhile]
  split <;> simp [*]

theorem signed?_singleton (c : Char) : signed? [c] = (digit? c).map Int.ofNat := by
  rw [signed?.eq_def]
  split
  next rest sign =>
    cases sign
    rfl
  next rest sign =>
    cases sign
    rfl
  next =>
    rw [natural?]
    cases digit? c <;> rfl

/-- A character on its own writes an integer exactly if it is a digit. -/
theorem integer?_toString (c : Char) : integer? c.toString = (digit? c).map Int.ofNat := by
  have alone : c.toString.toList = [c] := String.toList_singleton c
  have one : [c].length ≤ maxDigits := Nat.succ_le_of_lt (by decide : 0 < maxDigits)
  have short : ¬ maxDigits < ([c].filter fun c => (digit? c).isSome).length :=
    Nat.not_lt.2 (Nat.le_trans (List.length_filter_le _ _) one)
  simp only [integer?, alone, if_neg short, dropBlanks_singleton]
  by_cases blank : isBlank c = true
  · simp only [if_pos blank]
    rw [digit?_of_isBlank blank]
    rfl
  · simp only [if_neg blank, List.reverse_singleton, dropBlanks_singleton]
    exact signed?_singleton c
end PrivilegeStore.Text
