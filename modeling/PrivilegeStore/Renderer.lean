/-!
# Consoles

Texts and tables are shown by a console, which is not part of the program. A text may mark a stretch
with a style: `[bold]` stands in front of it and `[/bold]` behind. The console reads such marks, in
texts and in the cells of tables, and may refuse what it is given.
-/
namespace PrivilegeStore

/-- The head of a column. -/
structure Heading where
  title : String
  /-- The width of the column without blanks, if it does not depend on the cells. -/
  fixed : Option Nat := none
deriving DecidableEq, Repr

/-- What a console makes of texts and tables: lines, or what it has against them. -/
structure Renderer where
  text : String → Except String (List String)
  table : List Heading → List (List String) → Except String (List String)

namespace Renderer

/-- The styles in use. -/
def styles : List String := ["bold", "bold blue", "bold green", "bold red"]

/-- A text between the marks of a style. -/
def styled (style text : String) : String := "[" ++ style ++ "]" ++ text ++ "[/" ++ style ++ "]"

end Renderer

end PrivilegeStore
