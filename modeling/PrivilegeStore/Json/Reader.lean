import PrivilegeStore.Entries
import PrivilegeStore.Text.Integer
import PrivilegeStore.Value

/-!
# Values read from JSON text

The grammar of JSON with three more literals: `NaN`, `Infinity` and `-Infinity`. A number with a
fraction or an exponent is a float, any other an integer, which has at most a limit of digits. Of
equal names in an object the last value counts, at the place of the first. Raw control characters
in a text are refused, and so are half a surrogate pair and anything but blanks around the value, a
byte order mark included. The first fault met from left to right is reported.
-/
namespace PrivilegeStore.Json

inductive ReadingFault where
  /-- The text breaks the grammar. -/
  | malformed
  /-- An integer has more digits than the limit. -/
  | numeralTooLong
deriving DecidableEq, Repr

/-- What was read, and the rest of the text. -/
abbrev Reading (α : Type) := Except ReadingFault (α × List Char)

def isBlank (c : Char) : Bool := c == ' ' || c == '\t' || c == '\n' || c == '\r'

def skipBlanks (cs : List Char) : List Char := cs.dropWhile isBlank

def decimal? (c : Char) : Option Nat :=
  if '0' ≤ c ∧ c ≤ '9' then some (c.toNat - 48) else none

def isDecimal (c : Char) : Bool := (decimal? c).isSome

/-- The number that decimal digits write. -/
def natural (digits : List Char) : Nat :=
  digits.foldl (fun n c => 10 * n + (c.toNat - 48)) 0

/-- Splits off the digits in front. -/
def digits (cs : List Char) : List Char × List Char := (cs.takeWhile isDecimal, cs.dropWhile isDecimal)

/-- The digits of an integer part: a zero alone, or digits that start with another one. -/
def integerPart : List Char → Option (List Char × List Char)
  | '0' :: rest => some (['0'], rest)
  | cs =>
    match digits cs with
    | ([], _) => none
    | found => some found

/-- The digits behind a point, if the point has any. -/
def fractionPart : List Char → List Char × List Char
  | '.' :: rest =>
    match digits rest with
    | ([], _) => ([], '.' :: rest)
    | found => found
  | cs => ([], cs)

def signedDigits : List Char → Option (Int × List Char)
  | '-' :: cs =>
    match digits cs with
    | ([], _) => none
    | (ds, rest) => some (-(natural ds : Int), rest)
  | '+' :: cs =>
    match digits cs with
    | ([], _) => none
    | (ds, rest) => some (natural ds, rest)
  | cs =>
    match digits cs with
    | ([], _) => none
    | (ds, rest) => some (natural ds, rest)

/-- The exponent behind its mark, if the mark has one. -/
def exponentPart (cs : List Char) : Option Int × List Char :=
  match cs with
  | c :: rest =>
    if c = 'e' ∨ c = 'E' then
      match signedDigits rest with
      | some (exponent, rest) => (some exponent, rest)
      | none => (none, cs)
    else (none, cs)
  | [] => (none, [])

/-- A number without its sign. -/
def number (limit : Nat) (negative : Bool) (cs : List Char) : Reading Value :=
  match integerPart cs with
  | none => .error .malformed
  | some (whole, cs) =>
    let (fraction, cs) := fractionPart cs
    let (exponent, cs) := exponentPart cs
    if fraction.isEmpty && exponent.isNone then
      if limit < whole.length then .error .numeralTooLong
      else .ok (.int (Binary64.signed negative (natural whole)), cs)
    else
      let x := Binary64.ofDecimal negative (natural (whole ++ fraction))
        (exponent.getD 0 - (fraction.length : Int))
      .ok (.scalar (.float x), cs)

def hexDigit? (c : Char) : Option Nat :=
  if '0' ≤ c ∧ c ≤ '9' then some (c.toNat - 48)
  else if 'a' ≤ c ∧ c ≤ 'f' then some (c.toNat - 87)
  else if 'A' ≤ c ∧ c ≤ 'F' then some (c.toNat - 55)
  else none

def hexUnit? (a b c d : Char) : Option Nat :=
  match hexDigit? a, hexDigit? b, hexDigit? c, hexDigit? d with
  | some a, some b, some c, some d => some (((a * 16 + b) * 16 + c) * 16 + d)
  | _, _, _, _ => none

def isHighSurrogate (n : Nat) : Bool := 0xD800 ≤ n && n < 0xDC00

def isLowSurrogate (n : Nat) : Bool := 0xDC00 ≤ n && n < 0xE000

/-- The character of two surrogates. -/
def pairChar (high low : Nat) : Char :=
  Char.ofNat (0x10000 + (high - 0xD800) * 0x400 + (low - 0xDC00))

def escaped? : Char → Option Char
  | '"' => some '"'
  | '\\' => some '\\'
  | '/' => some '/'
  | 'b' => some '\x08'
  | 'f' => some '\x0c'
  | 'n' => some '\n'
  | 'r' => some '\r'
  | 't' => some '\t'
  | _ => none

/-- Joins a unit to a first half that waits for its second, if there is one: either a character or
the new first half. -/
def joinUnit? (waiting : Option Nat) (unit : Nat) : Option (Except Nat Char) :=
  match waiting with
  | some high => if isLowSurrogate unit then some (.ok (pairChar high unit)) else none
  | none =>
    if isHighSurrogate unit then some (.error unit)
    else if isLowSurrogate unit then none
    else some (.ok (Char.ofNat unit))

/-- The rest of a text behind its opening quote. Characters already read stand in reverse, and the
first half of a surrogate pair waits for the second, which must be next. -/
def string (read : List Char) (waiting : Option Nat) : List Char → Reading String
  | [] => .error .malformed
  | '\\' :: 'u' :: a :: b :: c :: d :: rest =>
    match (hexUnit? a b c d).bind (joinUnit? waiting) with
    | some (.ok joined) => string (joined :: read) none rest
    | some (.error high) => string read (some high) rest
    | none => .error .malformed
  | '\\' :: c :: rest =>
    match waiting, escaped? c with
    | none, some e => string (e :: read) none rest
    | _, _ => .error .malformed
  | c :: rest =>
    if waiting.isSome || c.toNat < 0x20 then .error .malformed
    else if c = '"' then .ok (String.ofList read.reverse, rest)
    else string (c :: read) none rest

/-- Literals and numbers. -/
def atom (limit : Nat) : List Char → Reading Value
  | 'n' :: 'u' :: 'l' :: 'l' :: rest => .ok (.null, rest)
  | 't' :: 'r' :: 'u' :: 'e' :: rest => .ok (.bool true, rest)
  | 'f' :: 'a' :: 'l' :: 's' :: 'e' :: rest => .ok (.bool false, rest)
  | 'N' :: 'a' :: 'N' :: rest => .ok (.scalar (.float .nan), rest)
  | 'I' :: 'n' :: 'f' :: 'i' :: 'n' :: 'i' :: 't' :: 'y' :: rest =>
    .ok (.scalar (.float (.infinity false)), rest)
  | '-' :: 'I' :: 'n' :: 'f' :: 'i' :: 'n' :: 'i' :: 't' :: 'y' :: rest =>
    .ok (.scalar (.float (.infinity true)), rest)
  | '-' :: rest => number limit true rest
  | cs => number limit false cs

mutual

def value (limit : Nat) : Nat → List Char → Reading Value
  | 0, _ => .error .malformed
  | fuel + 1, cs =>
    match cs with
    | '"' :: rest => (string [] none rest).map fun (s, rest) => (.text s, rest)
    | '[' :: rest =>
      match skipBlanks rest with
      | ']' :: rest => .ok (.list [], rest)
      | rest => items limit fuel [] rest
    | '{' :: rest =>
      match skipBlanks rest with
      | '}' :: rest => .ok (.object [], rest)
      | rest => entries limit fuel [] rest
    | cs => atom limit cs

/-- The rest of a list from an item on; items already read stand in reverse. -/
def items (limit : Nat) : Nat → List Value → List Char → Reading Value
  | 0, _, _ => .error .malformed
  | fuel + 1, read, cs =>
    match value limit fuel cs with
    | .error fault => .error fault
    | .ok (item, rest) =>
      match skipBlanks rest with
      | ']' :: rest => .ok (.list (item :: read).reverse, rest)
      | ',' :: rest => items limit fuel (item :: read) (skipBlanks rest)
      | _ => .error .malformed

/-- The rest of an object from a name on. -/
def entries (limit : Nat) : Nat → List (String × Value) → List Char → Reading Value
  | 0, _, _ => .error .malformed
  | fuel + 1, read, cs =>
    match cs with
    | '"' :: rest =>
      match string [] none rest with
      | .error fault => .error fault
      | .ok (name, rest) =>
        match skipBlanks rest with
        | ':' :: rest =>
          match value limit fuel (skipBlanks rest) with
          | .error fault => .error fault
          | .ok (v, rest) =>
            let read := Entries.insert name v read
            match skipBlanks rest with
            | '}' :: rest => .ok (.object read, rest)
            | ',' :: rest => entries limit fuel read (skipBlanks rest)
            | _ => .error .malformed
        | _ => .error .malformed
    | _ => .error .malformed

end

/-- The value that a text writes. Two levels are enough for each character. -/
def parse (text : String) (limit : Nat := Text.maxDigits) : Except ReadingFault Value :=
  let cs := text.toList
  match value limit (2 * cs.length + 2) (skipBlanks cs) with
  | .error fault => .error fault
  | .ok (v, rest) => if (skipBlanks rest).isEmpty then .ok v else .error .malformed

end PrivilegeStore.Json
