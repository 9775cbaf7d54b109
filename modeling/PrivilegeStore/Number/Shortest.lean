import PrivilegeStore.Number.Binary64

/-!
# Shortest decimals

A finite number is written with the fewest digits that read back as the same number, and among
those with the ones nearest to it, a tie going to the even digit. The reals that read back
as a number reach half-way to its neighbours; the two ends belong to it when its mantissa is even.
-/
namespace PrivilegeStore.Binary64

/-- The reals that read back as a number, in quarters of a unit. -/
structure Interval where
  low : Nat
  high : Nat
  closed : Bool

def interval (mantissa exponent : Nat) : Interval where
  low := (4 * mantissa - if mantissa = 1 <<< 52 ∧ 0 < exponent then 1 else 2) <<< exponent
  high := (4 * mantissa + 2) <<< exponent
  closed := mantissa % 2 == 0

/-- Whether `n / d`, in quarters of a unit, lies in the interval. -/
def Interval.contains (i : Interval) (n d : Nat) : Bool :=
  if i.closed then i.low * d ≤ n && n ≤ i.high * d else i.low * d < n && n < i.high * d

/-- A decimal `digits * 10 ^ exponent`. -/
structure Decimal where
  digits : Nat
  exponent : Int
deriving DecidableEq, Repr

/-- The exponent of the leading digit of a positive number of units. -/
def leadingExponent (units : Nat) : Int :=
  if unitsPerOne ≤ units then digitCount (units / unitsPerOne) - 1
  else -(digitCount ((unitsPerOne + units - 1) / units - 1) : Int)

/-- The point of the grid of step `10 ^ step` that reads back as the number and is nearest to it. -/
def onGrid? (i : Interval) (units : Nat) (step : Int) : Option Decimal :=
  let up := Nat.pow 10 step.toNat
  let down := Nat.pow 10 (-step).toNat
  -- a grid point x is x * up / down; the scale turns it into quarters of a unit
  let scale := 4 * unitsPerOne * up
  let value := 4 * units * down
  let below := value / scale
  let inside x := i.contains (x * scale) down
  match inside below, inside (below + 1) with
  | false, false => none
  | true, false => some ⟨below, step⟩
  | false, true => some ⟨below + 1, step⟩
  | true, true => some ⟨roundQuotient value scale, step⟩

/-- Tries grids of ever more digits. -/
def firstGrid (i : Interval) (units : Nat) (leading : Int) : Nat → Nat → Decimal
  | 0, _ => ⟨units, 0⟩
  | tries + 1, digits =>
    match onGrid? i units (leading - (digits : Int) + 1) with
    | some decimal => decimal
    | none => firstGrid i units leading tries (digits + 1)

/-- The shortest decimal of a positive finite number; seventeen digits always suffice. -/
def shortest (mantissa exponent : Nat) : Decimal :=
  let units := mantissa <<< exponent
  firstGrid (interval mantissa exponent) units (leadingExponent units) 17 1

/-- Significant digits, without zeros at the end. -/
def Decimal.significant (d : Decimal) : List Char :=
  ((Nat.toDigits 10 d.digits).reverse.dropWhile (· == '0')).reverse

/-- The exponent of the leading digit. -/
def Decimal.leading (d : Decimal) : Int := d.exponent + digitCount d.digits - 1

/-- Positional notation, with at least one digit on each side of the point. -/
def positional (digits : List Char) (leading : Int) : List Char :=
  if leading < 0 then
    '0' :: '.' :: List.replicate (-leading - 1).toNat '0' ++ digits
  else
    let whole := leading.toNat + 1
    let front := digits.take whole ++ List.replicate (whole - digits.length) '0'
    let back := digits.drop whole
    front ++ '.' :: (if back.isEmpty then ['0'] else back)

/-- A digit, the others behind a point, and a signed exponent of at least two digits. -/
def scientific (digits : List Char) (leading : Int) : List Char :=
  let power := Nat.toDigits 10 leading.natAbs
  let mantissa := match digits with
    | first :: second :: rest => first :: '.' :: second :: rest
    | short => short
  mantissa ++ 'e' :: (if leading < 0 then '-' else '+') :: List.replicate (2 - power.length) '0' ++
    power

/-- Exponents from -4 to 15 are written positionally. -/
def Decimal.render (d : Decimal) : List Char :=
  if -4 ≤ d.leading ∧ d.leading < 16 then positional d.significant d.leading
  else scientific d.significant d.leading

def render : Binary64 → String
  | .nan => "nan"
  | .infinity negative => if negative then "-inf" else "inf"
  | .finite negative mantissa exponent =>
    let digits := if mantissa = 0 then ['0', '.', '0'] else (shortest mantissa exponent).render
    String.ofList (if negative then '-' :: digits else digits)

end PrivilegeStore.Binary64
