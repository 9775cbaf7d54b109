/-!
# Blanks and spacing

Blanks are the white space of Unicode. Spacing, which parts words, is blanks and the four separators
of ASCII.
-/
namespace PrivilegeStore.Text

/-- The characters of Unicode's class White_Space. -/
def isBlank (c : Char) : Bool :=
  let n := c.toNat
  (9 ≤ n && n ≤ 13) || n == 0x20 || n == 0x85 || n == 0xA0 || n == 0x1680 ||
    (0x2000 ≤ n && n ≤ 0x200A) || n == 0x2028 || n == 0x2029 || n == 0x202F || n == 0x205F ||
    n == 0x3000

def isSpacing (c : Char) : Bool := isBlank c || (0x1C ≤ c.toNat && c.toNat ≤ 0x1F)

/-- A text without the spacing at its end. -/
def trimEnd (cs : List Char) : List Char := (cs.reverse.dropWhile isSpacing).reverse

end PrivilegeStore.Text
