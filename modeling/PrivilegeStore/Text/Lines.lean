/-!
# Lines of a text

A line ends at a line feed, at a return with or without a line feed behind it, and at the other
characters that end a line or a paragraph.
-/
namespace PrivilegeStore.Text

/-- Whether a line ends at a character. -/
def isLineEnd (c : Char) : Bool :=
  let n := c.toNat
  (10 ≤ n && n ≤ 13) || (0x1C ≤ n && n ≤ 0x1E) || n == 0x85 || n == 0x2028 || n == 0x2029

/-- The lines of a text; the end of the last one may be missing. -/
def lines : List Char → List (List Char)
  | [] => []
  | '\r' :: '\n' :: rest => [] :: lines rest
  | c :: rest =>
    match isLineEnd c, lines rest with
    | true, others => [] :: others
    | false, [] => [[c]]
    | false, line :: others => (c :: line) :: others

end PrivilegeStore.Text
