/-!
# Paths

A path is written as element names parted by slashes. Empty elements do not count, so leading,
trailing and doubled slashes mean nothing. A child's path is its parent's, less the slashes at its
end, then a slash and the child's name.
-/
namespace PrivilegeStore.Path

/-- The element names of a path. -/
def elements (path : String) : List String :=
  ((path.toList.splitOn '/').filter fun piece => !piece.isEmpty).map String.ofList

/-- A text less the slashes at its end. -/
def trimEnd : List Char → List Char
  | [] => []
  | c :: cs =>
    let rest := trimEnd cs
    if c = '/' ∧ rest = [] then [] else c :: rest

def join (parent name : String) : String :=
  String.ofList (trimEnd parent.toList ++ '/' :: name.toList)

/-- The last element of a path, empty at the root. -/
def name (path : String) : String := (elements path).getLast?.getD ""

end PrivilegeStore.Path
