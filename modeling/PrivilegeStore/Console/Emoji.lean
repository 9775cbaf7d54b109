import PrivilegeStore.Console.Emoji.Flags
import PrivilegeStore.Console.Emoji.People
import PrivilegeStore.Console.Emoji.Pictures
import PrivilegeStore.Console.Width
import PrivilegeStore.Text.Blank
import PrivilegeStore.Text.Case

/-!
# Emoji codes

A code is the name of an emoji between colons, in any case, as in `:key:`. Behind the name may stand
`-emoji` or `-text`, which asks for the emoji in colour or plain. A code with a name that is not
known stays as it is.
-/
namespace PrivilegeStore.Console.Emoji

/-- A table of names, each with what stands behind its equals sign. -/
def entries (table : String) : List (List Char × List Char) :=
  ((table.toList.splitOnP Text.isBlank).filter fun entry => !entry.isEmpty).map fun entry =>
    (entry.takeWhile (· != '='), (entry.dropWhile (· != '=')).drop 1)

def lookUp (table : List (List Char × List Char)) (name : List Char) : Option (List Char) :=
  (table.find? fun entry => entry.1 == name).map Prod.snd

def hexDigit (c : Char) : Nat := if c ≤ '9' then c.toNat - 48 else c.toNat - 87

/-- The characters of code points in hexadecimal that are parted by dashes. -/
def ofCodePoints (text : List Char) : List Char :=
  (text.splitOn '-').map fun digits =>
    Char.ofNat (digits.foldl (fun n c => 16 * n + hexDigit c) 0)

/-- The symbol of a small letter; the symbols of a region's two letters are its flag. -/
def regionalIndicator (letter : Char) : Char := Char.ofNat (0x1F1E6 + (letter.toNat - 'a'.toNat))

def flagsOfRegions : List (List Char × List Char) := entries regionFlags

def otherRegionFlags : List (List Char × List Char) := entries otherFlags

def peopleByName : List (List Char × List Char) := entries people

def pictures : List (List Char × List Char) := entries earlyPictures ++ entries latePictures

/-- What stands behind an opening, if a text begins with it. -/
def behind? (opening : String) (text : List Char) : Option (List Char) :=
  if opening.toList.isPrefixOf text then some (text.drop opening.length) else none

/-- What stands in front of an ending, if a text ends with it. -/
def before? (ending : String) (text : List Char) : Option (List Char) :=
  if ending.toList.isSuffixOf text then some (text.take (text.length - ending.length)) else none

def flag? (name : List Char) : Option (List Char) :=
  let region := (behind? "flag_for_" name).getD name
  let letters := (lookUp otherRegionFlags name).or (lookUp flagsOfRegions region)
  letters.map fun letters => letters.map regionalIndicator

/-- A letter of a flag, which has two names. -/
def letter? (name : List Char) : Option (List Char) :=
  let letter := (behind? "regional_indicator_symbol_letter_" name).or
    (behind? "regional_indicator_" name)
  match letter with
  | some [c] => if 'a' ≤ c ∧ c ≤ 'z' then some [regionalIndicator c] else none
  | _ => none

/-- The endings of names in a skin tone, and the tones. -/
def tones : List (String × Char) :=
  [("_light_skin_tone", Char.ofNat 0x1F3FB), ("_medium-light_skin_tone", Char.ofNat 0x1F3FC),
    ("_medium_skin_tone", Char.ofNat 0x1F3FD), ("_medium-dark_skin_tone", Char.ofNat 0x1F3FE),
    ("_dark_skin_tone", Char.ofNat 0x1F3FF)]

/-- Puts a tone behind the first character, in place of a selector. -/
def inTone (tone : Char) : List Char → List Char
  | [] => []
  | [c] => [c, tone]
  | c :: d :: rest => if d = colourSelector then c :: tone :: rest else c :: tone :: d :: rest

def person? (name : List Char) : Option (List Char) :=
  let base := (lookUp peopleByName name).map ofCodePoints
  base.or (tones.findSome? fun (ending, tone) =>
    (before? ending name).bind fun base =>
      (lookUp peopleByName base).map fun codes => inTone tone (ofCodePoints codes))

/-- The emoji of a name in small letters. -/
def find? (name : List Char) : Option (List Char) :=
  ((lookUp pictures name).map ofCodePoints).or
    ((person? name).or ((flag? name).or (letter? name)))

/-- The emoji of a code between its colons. -/
def ofCode? (code : List Char) : Option (List Char) :=
  let (name, selector) := match before? "-emoji" code, before? "-text" code with
    | some name, _ => (name, [colourSelector])
    | none, some name => (name, [plainSelector])
    | none, none => (code, [])
  (find? (name.map Text.lowerChar)).map (· ++ selector)

/-- Replaces the codes of a text, which is split at its colons. Between two colons stands a code if
there is no spacing; a colon closes one code at most and opens none then. -/
def replaceBetween : List (List Char) → List Char
  | [] => []
  | [last] => last
  | [piece, last] => piece ++ ':' :: last
  | piece :: code :: rest =>
    if code.any Text.isSpacing then piece ++ ':' :: replaceBetween (code :: rest)
    else
      piece ++ (ofCode? code).getD (':' :: code ++ [':']) ++ replaceBetween rest

def replaceCodes (text : List Char) : List Char := replaceBetween (text.splitOn ':')

end PrivilegeStore.Console.Emoji
