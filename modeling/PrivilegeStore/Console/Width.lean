import PrivilegeStore.Console.CellTable

/-!
# Widths of texts

Characters that a terminal shows together form a cluster: a character, the marks that take no cell of
their own, and whatever a joiner ties to it. A text is as wide as its clusters. It is cut between
clusters only, so that no cluster is torn.
-/
namespace PrivilegeStore.Console

def inRanges (ranges : List (Nat × Nat)) (c : Char) : Bool :=
  ranges.any fun (first, last) => first ≤ c.toNat && c.toNat ≤ last

/-- The cells of a character that stands alone. -/
def charCells (c : Char) : Nat :=
  if ' ' ≤ c ∧ c ≤ '~' then 1
  else if inRanges zeroRanges c then 0
  else if inRanges wideRanges c then 2
  else 1

/-- The zero width joiner, which ties the next character to the last one. -/
def joiner : Char := Char.ofNat 0x200D

/-- Asks for a plain emoji. -/
def plainSelector : Char := Char.ofNat 0xFE0E

/-- Asks for an emoji in colour. -/
def colourSelector : Char := Char.ofNat 0xFE0F

structure Cluster where
  chars : List Char
  cells : Nat
deriving DecidableEq, Repr

/-- Adds a character to the last cluster, which may grow wider by it. Clusters stand in reverse. -/
def extend (c : Char) (wider : Nat) : List Cluster → List Cluster
  | [] => [⟨[c], 0⟩]
  | last :: earlier => ⟨last.chars ++ [c], last.cells + wider⟩ :: earlier

/-- The clusters of a text behind those already found, which stand in reverse. `base` is the last
character that took cells of its own and has not been widened. -/
def clustersFrom (found : List Cluster) (base : Option Char) : List Char → List Cluster
  | [] => found.reverse
  | c :: rest =>
    if c = joiner ∧ !found.isEmpty then
      match rest with
      | [] => (extend c 0 found).reverse
      | joined :: rest => clustersFrom (extend joined 0 (extend c 0 found)) base rest
    else if c = colourSelector then
      if base.any (inRanges widenedRanges) then clustersFrom (extend c 1 found) none rest
      else clustersFrom (extend c 0 found) base rest
    else
      match charCells c with
      | 0 => clustersFrom (extend c 0 found) base rest
      | cells => clustersFrom (⟨[c], cells⟩ :: found) (some c) rest

def clusters (cs : List Char) : List Cluster := clustersFrom [] none cs

/-- The cells of a text. -/
def cells (cs : List Char) : Nat := ((clusters cs).map Cluster.cells).foldr (· + ·) 0

/-- Cuts a row of clusters to a width. Where half of a cluster would be left, a blank stands. -/
def crop (width : Nat) : List Cluster → List Char
  | [] => []
  | c :: rest =>
    if c.cells ≤ width then c.chars ++ crop (width - c.cells) rest else List.replicate width ' '

/-- Cuts clusters into pieces that are as long as a width allows, behind a piece already begun. -/
def chop (width : Nat) (piece : List Char) (used : Nat) : List Cluster → List (List Char)
  | [] => [piece]
  | c :: rest =>
    if width < used + c.cells then piece :: chop width c.chars c.cells rest
    else chop width (piece ++ c.chars) (used + c.cells) rest

/-- Fills a text up with blanks. -/
def pad (width : Nat) (cs : List Char) : List Char := cs ++ List.replicate (width - cells cs) ' '

end PrivilegeStore.Console
