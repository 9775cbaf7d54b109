import PrivilegeStore.Text.Printable

/-!
# Quoted texts

A text stands between single quotes, or between double quotes when it holds a single quote and no
double one. The quote in use and the backslash are escaped, line feed, return and tab have
their letters, and any other character that is not printable is written in hexadecimal with two,
four or eight digits, whichever is the least that fits.
-/
namespace PrivilegeStore.Text

/-- Lower-case hexadecimal digits, padded with zeros to a width. -/
def paddedHex (width n : Nat) : List Char :=
  let digits := Nat.toDigits 16 n
  List.replicate (width - digits.length) '0' ++ digits

def quotedChar (mark c : Char) : List Char :=
  if c = mark || c = '\\' then ['\\', c]
  else if c = '\n' then ['\\', 'n']
  else if c = '\r' then ['\\', 'r']
  else if c = '\t' then ['\\', 't']
  else if isPrintable c then [c]
  else if c.toNat < 0x100 then '\\' :: 'x' :: paddedHex 2 c.toNat
  else if c.toNat < 0x10000 then '\\' :: 'u' :: paddedHex 4 c.toNat
  else '\\' :: 'U' :: paddedHex 8 c.toNat

def quotationMark (text : String) : Char :=
  if text.toList.contains '\'' && !text.toList.contains '"' then '"' else '\''

def quoted (text : String) : String :=
  let mark := quotationMark text
  String.ofList (mark :: text.toList.flatMap (quotedChar mark) ++ [mark])

/-- A list of texts: each quoted, parted by commas, in brackets. -/
def quotedList (texts : List String) : String :=
  "[" ++ ", ".intercalate (texts.map quoted) ++ "]"

end PrivilegeStore.Text
