import PrivilegeStore.Console.Emoji
import PrivilegeStore.Console.Width
import PrivilegeStore.Text.Blank
import PrivilegeStore.Text.Lines

/-!
# Lines on a console

A text is printed with its emoji codes replaced, without the control characters that would move the
cursor, and with tabs up to the next multiple of eight cells. Each of its lines is wrapped
between words. A word that fits no line is folded, or, in a table, cut short with dots.
-/
namespace PrivilegeStore.Console

/-- The bell, the backspace and what moves to another line or column, the line feed apart. -/
def movesCursor (c : Char) : Bool := ['\x07', '\x08', '\x0b', '\x0c', '\x0d'].contains c

/-- The characters of a text that are shown. -/
def shown (text : String) : List Char :=
  (Emoji.replaceCodes text.toList).filter fun c => !movesCursor c

def tabWidth : Nat := 8

/-- Joins pieces that are parted by tabs, from a multiple of the tab width on. A tab is at least
one blank. -/
def fillTabs : List (List Char) → List Char
  | [] => []
  | [last] => last
  | piece :: rest =>
    piece ++ List.replicate (tabWidth - cells piece % tabWidth) ' ' ++ fillTabs rest

def expandTabs (line : List Char) : List Char := fillTabs (line.splitOn '\t')

def isInk (c : Char) : Bool := !Text.isSpacing c

/-- What stands behind the first word of a text and the spacing behind it. -/
def behindWord (cs : List Char) : List Char := (cs.dropWhile isInk).dropWhile Text.isSpacing

theorem length_behindWord_lt {c : Char} {cs rest : List Char}
    (found : cs.dropWhile Text.isSpacing = c :: rest) : (behindWord rest).length < cs.length := by
  have whole := (List.dropWhile_suffix (l := cs) Text.isSpacing).length_le
  have behind : (behindWord rest).length ≤ rest.length :=
    ((List.dropWhile_suffix _).trans (List.dropWhile_suffix _)).length_le
  rw [found, List.length_cons] at whole
  omega

/-- A text in words: each has the spacing behind it, the first also the spacing in front. A text of
nothing but spacing has no words. -/
def words (cs : List Char) : List (List Char) :=
  match found : cs.dropWhile Text.isSpacing with
  | [] => []
  | c :: rest =>
    have _shorter := length_behindWord_lt found
    (cs.takeWhile Text.isSpacing ++ c :: rest.takeWhile isInk ++
      (rest.dropWhile isInk).takeWhile Text.isSpacing) :: words (behindWord rest)
termination_by cs.length

/-- Lines that are full, in reverse, and the line that is being filled with the cells it has. -/
structure Wrapping where
  full : List (List Char) := []
  line : List Char := []
  used : Nat := 0

/-- Starts a line with a piece of text. -/
def Wrapping.start (w : Wrapping) (piece : List Char) : Wrapping :=
  ⟨if w.line.isEmpty then w.full else w.line :: w.full, piece, cells piece⟩

/-- Puts a word on the line if it fits without the spacing behind it, else on a new line. A word that
fits no line is cut into pieces if it may be folded. -/
def Wrapping.place (width : Nat) (folds : Bool) (w : Wrapping) (word : List Char) : Wrapping :=
  let length := cells (Text.trimEnd word)
  if w.used + length ≤ width then { w with line := w.line ++ word, used := w.used + cells word }
  else if width < length && folds then (chop width [] 0 (clusters word)).foldl Wrapping.start w
  else w.start word

def Wrapping.lines (w : Wrapping) : List (List Char) := (w.line :: w.full).reverse

def wrap (width : Nat) (folds : Bool) (line : List Char) : List (List Char) :=
  if line.all Text.isSpacing then [line]
  else ((words line).foldl (Wrapping.place width folds) {}).lines

/-- Drops spacing at the end of a line that is longer than a width, at most what is too long. -/
def dropExcess (width : Nat) (line : List Char) : List Char :=
  let spacing := line.length - (Text.trimEnd line).length
  line.take (line.length - min spacing (line.length - width))

/-- Brings a line that is too wide to a width. -/
def fit (width : Nat) (folds : Bool) (line : List Char) : List Char :=
  if cells line ≤ width then line
  else if folds then crop width (clusters line)
  else crop (width - 1) (clusters line) ++ ['…']

/-- The lines of a text at a width. -/
def layOut (width : Nat) (folds : Bool) (text : List Char) : List (List Char) :=
  (text.splitOn '\n').flatMap fun line =>
    (wrap width folds (expandTabs line)).map fun line => fit width folds (dropExcess width line)

/-- The cells of a text's widest line, before anything is wrapped. -/
def widest (text : List Char) : Nat := ((Text.lines text).map cells).foldl max 0

/-- The columns of the console. -/
def columns : Nat := 500

/-- The lines in which a text is printed. -/
def print (text : String) : List String := (layOut columns true (shown text)).map String.ofList

end PrivilegeStore.Console
