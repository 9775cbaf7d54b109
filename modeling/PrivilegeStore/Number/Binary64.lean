/-!
# Binary64 numbers

Every finite number of the format is a whole multiple of its smallest positive number, `2 ^ -1074`.
A finite number is kept as a sign, a mantissa and a power of two in that unit, so
that comparison, truncation and rounding are exact integer arithmetic. A number made by
`Binary64.ofDecimal` is in lowest form: below `2 ^ 53` units its exponent is zero, and above
that its mantissa has 53 bits.
-/
namespace PrivilegeStore

inductive Binary64 where
  | nan
  | infinity (negative : Bool)
  | finite (negative : Bool) (mantissa exponent : Nat)
deriving DecidableEq, Repr

namespace Binary64

/-- Units in the number one. -/
def unitsPerOne : Nat := 1 <<< 1074

/-- The largest exponent of a finite number, in units. -/
def maxExponent : Nat := 2045

def signed (negative : Bool) (n : Nat) : Int := if negative then -(n : Int) else n

/-- The nearest integer to a quotient; a half goes to the even neighbour. -/
def roundQuotient (numerator denominator : Nat) : Nat :=
  let q := numerator / denominator
  let twice := 2 * (numerator % denominator)
  if twice < denominator then q
  else if denominator < twice then q + 1
  else if q % 2 = 0 then q
  else q + 1

/-- The number nearest to a non-negative quotient, infinite beyond the largest finite one. -/
def ofQuotient (negative : Bool) (numerator denominator : Nat) : Binary64 :=
  let units := numerator * unitsPerOne
  let exponent := (units / denominator).log2 - 52
  let mantissa := roundQuotient units (denominator <<< exponent)
  let (mantissa, exponent) :=
    if mantissa = 1 <<< 53 then (1 <<< 52, exponent + 1) else (mantissa, exponent)
  if maxExponent < exponent then .infinity negative else .finite negative mantissa exponent

/-- How many digits a positive number has; zero has none. -/
def digitCount (n : Nat) : Nat := if n = 0 then 0 else (Nat.toDigits 10 n).length

/-- The number nearest to `digits * 10 ^ exponent`. Numbers at or above `10 ^ 400` are infinite and
those below `10 ^ -400` are zero, so that no larger power is ever formed. -/
def ofDecimal (negative : Bool) (digits : Nat) (exponent : Int) : Binary64 :=
  let magnitude := exponent + digitCount digits
  if digits = 0 then .finite negative 0 0
  else if 400 < magnitude then .infinity negative
  else if magnitude < -400 then .finite negative 0 0
  else if 0 ≤ exponent then ofQuotient negative (digits * Nat.pow 10 exponent.toNat) 1
  else ofQuotient negative digits (Nat.pow 10 (-exponent).toNat)

/-- The exact value of a finite number in units. -/
def units? : Binary64 → Option Int
  | .finite negative mantissa exponent => some (signed negative (mantissa <<< exponent))
  | _ => none

/-- The integer part of a finite number, cut towards zero. -/
def truncate? : Binary64 → Option Int
  | .finite negative mantissa exponent =>
    some (signed negative (mantissa <<< exponent / unitsPerOne))
  | _ => none

def isNan : Binary64 → Bool
  | .nan => true
  | _ => false

def isZero : Binary64 → Bool
  | .finite _ mantissa _ => mantissa == 0
  | _ => false

end Binary64

end PrivilegeStore
