/-!
# Stable sorting

Insertion sort by a decidable relation, in which items that the relation does not tell apart keep
their places. Names are sorted by code point.
-/
namespace PrivilegeStore

variable {α : Type}

/-- Puts an item before the first one that it does not come after. -/
def insertBy (le : α → α → Bool) (x : α) : List α → List α
  | [] => [x]
  | y :: ys => if le x y then x :: y :: ys else y :: insertBy le x ys

def sortBy (le : α → α → Bool) : List α → List α
  | [] => []
  | x :: xs => insertBy le x (sortBy le xs)

/-- Code point order of names. -/
def nameLe (a b : String) : Bool := decide (a ≤ b)

def sortNames (names : List String) : List String := sortBy nameLe names

end PrivilegeStore
