import PrivilegeStore.Bits
import PrivilegeStore.Fault
import PrivilegeStore.Text.Integer

/-!
# Bits stored in a property

Nothing and null are empty bits, and an integer is a single word. The elements of a list, the
characters of a text and the names of an object are words, each turned into an integer first: floats
are cut towards zero, texts are read as numerals. A truth value or a float of its own is
refused. Words are turned and checked one by one, so the first fault counts.
-/
namespace PrivilegeStore

/-- What enumerating a value yields: elements, characters, or names. -/
def Value.elements : Value → Except Fault (List Value)
  | .list items => .ok items
  | .object entries => .ok (entries.map fun (name, _) => .text name)
  | .scalar (.text s) => .ok (s.toList.map fun c => .text c.toString)
  | .scalar _ => .error .notEnumerable

namespace Bits

/-- Admits an integer as a word. -/
def word (n : Int) : Except Fault Nat :=
  if 0 ≤ n ∧ n < wordBound then .ok n.toNat else .error (.wordOutOfRange (.int n))

/-- The integer that an element stands for. -/
def integer : Value → Except Fault Int
  | .scalar (.int n) => .ok n
  | .scalar (.bool b) => .ok (if b then 1 else 0)
  | .scalar (.float .nan) => .error .notANumeral
  | .scalar (.float (.infinity _)) => .error .infiniteWord
  | .scalar (.float (.finite negative mantissa exponent)) =>
    .ok (Binary64.signed negative (mantissa <<< exponent / Binary64.unitsPerOne))
  | .scalar (.text s) =>
    match Text.integer? s with
    | some n => .ok n
    | none => .error .notANumeral
  | _ => .error .notAWord

/-- Turns elements into words, in order, up to the first fault. -/
def words : List Value → Except Fault (List Nat)
  | [] => .ok []
  | element :: rest =>
    match integer element with
    | .error fault => .error fault
    | .ok n =>
      match word n with
      | .error fault => .error fault
      | .ok w =>
        match words rest with
        | .error fault => .error fault
        | .ok ws => .ok (w :: ws)

/-- Bits as they are stored. -/
def ofValue : Value → Except Fault Bits
  | .scalar .null => .ok empty
  | .scalar (.bool b) => .error (.truthValueAsBits b)
  | .scalar (.int n) => (word n).map fun w => ofWords [w]
  | value =>
    match value.elements with
    | .error fault => .error fault
    | .ok elements => (words elements).map ofWords

/-- Bits of a property that may be missing. -/
def ofValue? : Option Value → Except Fault Bits
  | none => .ok empty
  | some value => ofValue value

/-- Bits as a list of words. -/
def stored (b : Bits) : Value := .list (b.toWords.map fun (w : Nat) => .int w)

/-- Admits an element as a word without turning it into an integer. A float is measured against the
bounds before it is found to be no integer. -/
def plainWord : Value → Except Fault Nat
  | .scalar (.int n) => word n
  | .scalar (.bool b) => .ok (if b then 1 else 0)
  | .scalar (.float x) =>
    match x with
    | .nan => .error .notAWord
    | .infinity _ => .error (.wordOutOfRange (.float x))
    | .finite negative mantissa exponent =>
      let units := Binary64.signed negative (mantissa <<< exponent)
      if 0 ≤ units ∧ units ≤ (wordBound - 1) * Binary64.unitsPerOne then .error .notAWord
      else .error (.wordOutOfRange (.float x))
  | _ => .error .notAWord

def plainWords : List Value → Except Fault (List Nat)
  | [] => .ok []
  | element :: rest =>
    match plainWord element with
    | .error fault => .error fault
    | .ok w =>
      match plainWords rest with
      | .error fault => .error fault
      | .ok ws => .ok (w :: ws)

/-- Bits of the elements of a value, taken as words as they are. -/
def ofElements (value : Value) : Except Fault Bits :=
  match value.elements with
  | .error fault => .error fault
  | .ok elements => (plainWords elements).map ofWords

/-- Bits of a number. -/
def ofInt (n : Int) : Except Fault Bits :=
  if 0 ≤ n then .ok ⟨n.toNat⟩ else .error (.negativeBits n)

/-- How many different bits a list holds. -/
def distinct (family : List Bits) : Nat := family.eraseDups.length

end Bits

end PrivilegeStore
