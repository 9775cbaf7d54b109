import PrivilegeStore.Console.Layout
import PrivilegeStore.Console.Markup
import PrivilegeStore.Number.Binary64
import PrivilegeStore.Renderer

/-!
# Tables on a console

A table has a heavy head and a line between rows. A cell stands between two blanks. A column has a
fixed width or is as wide as its widest cell; where the console is too narrow the widest of those
columns give way first, and their cells are wrapped.
-/
namespace PrivilegeStore.Console

/-- The width of a column, blanks included, and whether it can give way. -/
structure Extent where
  width : Nat
  flexible : Bool
deriving DecidableEq, Repr

/-- The extent of a column, by its heading and its cells. -/
def extent (limit : Nat) (h : Heading) (cells : List String) : Extent :=
  match h.fixed with
  | some width => ⟨width + 2, false⟩
  | none =>
    let content := ((h.title :: cells).map fun text => widest (shown text)).foldl max 0
    ⟨min (content + 2) limit, true⟩

def total (extents : List Extent) : Nat := (extents.map Extent.width).foldr (· + ·) 0

/-- Takes an excess from the columns of the greatest width, `sharers` of them, in even shares and at
most `most` from each. -/
def share (greatest most : Nat) : Nat → Nat → List Extent → List Extent
  | _, _, [] => []
  | excess, sharers, e :: rest =>
    if e.flexible && e.width == greatest then
      let taken := min most (Binary64.roundQuotient excess sharers)
      { e with width := e.width - taken } :: share greatest most (excess - taken) (sharers - 1) rest
    else e :: share greatest most excess sharers rest

/-- Narrows the widest flexible columns towards the next wide ones. -/
def narrowOnce (excess : Nat) (extents : List Extent) : List Extent :=
  let flexible := (extents.filter Extent.flexible).map Extent.width
  let greatest := flexible.foldl max 0
  let next := (flexible.filter (· != greatest)).foldl max 0
  share greatest (min excess (greatest - next)) excess (flexible.count greatest) extents

/-- Narrows columns to a total. Each step takes at least one cell while a flexible column has one, so
as many steps suffice as there are cells too many. -/
def narrow (limit : Nat) : Nat → List Extent → List Extent
  | 0, extents => extents
  | steps + 1, extents =>
    if total extents ≤ limit then extents
    else narrow limit steps (narrowOnce (total extents - limit) extents)

/-- The widths of the columns, blanks included, in a table of at most a number of cells. -/
def widths (across : Nat) (headings : List Heading) (rows : List (List String)) : List Nat :=
  let limit := across - (headings.length + 1)
  let extents := headings.zipIdx.map fun (heading, i) =>
    extent limit heading (rows.filterMap fun row => row[i]?)
  (narrow limit (total extents - limit) extents).map Extent.width

/-- How a table is ruled: the left end, the line, the crossing and the right end. -/
structure Ruler where
  left : String
  line : Char
  crossing : String
  right : String

def topRuler : Ruler := ⟨"┏", '━', "┳", "┓"⟩
def headRuler : Ruler := ⟨"┡", '━', "╇", "┩"⟩
def rowRuler : Ruler := ⟨"├", '─', "┼", "┤"⟩
def bottomRuler : Ruler := ⟨"└", '─', "┴", "┘"⟩

def repeated (c : Char) (n : Nat) : String := String.ofList (List.replicate n c)

def ruled (ruler : Ruler) (widths : List Nat) : String :=
  ruler.left ++ ruler.crossing.intercalate (widths.map (repeated ruler.line)) ++ ruler.right

/-- The lines of a cell, each as wide as its column. -/
def cellLines (width : Nat) (text : String) : List String :=
  (layOut (width - 2) false (shown text)).map fun line =>
    " " ++ String.ofList (pad (width - 2) line) ++ " "

/-- The lines of a row, which is as high as its highest cell; the others are blank below. -/
def rowLines (bar : String) (widths : List Nat) (texts : List String) : List String :=
  let cells := List.zipWith (fun width text => (width, cellLines width text)) widths texts
  let height := (cells.map fun (_, lines) => lines.length).foldl max 1
  (List.range height).map fun i =>
    bar ++ bar.intercalate (cells.map fun (width, lines) => lines[i]?.getD (repeated ' ' width)) ++
      bar

/-- The lines of a table; a row has a cell for each heading. -/
def tableLines (headings : List Heading) (rows : List (List String)) : List String :=
  let widths := widths columns headings rows
  let body := rows.map (rowLines "│" widths)
  [ruled topRuler widths] ++ rowLines "┃" widths (headings.map Heading.title) ++
    [ruled headRuler widths] ++ (body.intersperse [ruled rowRuler widths]).flatten ++
    [ruled bottomRuler widths]

/-- A console of a fixed width without colours. -/
def renderer : Renderer where
  text := fun text => (plain text).map print
  table := fun headings rows => do
    let headings ← headings.mapM fun h => (plain h.title).map fun title => { h with title }
    let rows ← rows.mapM fun row => row.mapM plain
    return tableLines headings rows

end PrivilegeStore.Console
