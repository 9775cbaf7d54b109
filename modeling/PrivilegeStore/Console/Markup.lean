/-!
# Styles in texts

A tag stands in brackets and begins with a small letter, a number sign, a slash or an at sign; other
brackets are text. A tag opens a style, or closes one when it begins with a slash: the one that is
named, or the last when none is. A text that closes a style which is not open is refused. Without
colours a style does not show, so that all there is to do with tags is to take them out.
-/
namespace PrivilegeStore.Console

/-- The tag that begins behind a bracket, and the text behind the tag. -/
def tag? : List Char → Option (List Char × List Char)
  | [] => none
  | c :: rest =>
    if (c.isLower || ['#', '/', '@'].contains c) && rest.contains ']' then
      some (c :: rest.takeWhile (· != ']'), (rest.dropWhile (· != ']')).drop 1)
    else none

/-- The styles that are open behind a tag, by those open in front of it, the last one first. -/
def openBehind? (tag : List Char) (opened : List (List Char)) : Option (List (List Char)) :=
  match tag, opened with
  | ['/'], [] => none
  | ['/'], _ :: earlier => some earlier
  | '/' :: style, opened => if opened.contains style then some (opened.erase style) else none
  | style, opened => some (style.takeWhile (· != '=') :: opened)

/-- Takes out the tags of a text that is cut at its opening brackets, behind the first of them. -/
def withoutTags (opened : List (List Char)) : List (List Char) → Except String (List Char)
  | [] => .ok []
  | piece :: rest =>
    match tag? piece with
    | none => (withoutTags opened rest).map fun behind => '[' :: piece ++ behind
    | some (tag, text) =>
      match openBehind? tag opened with
      | none => .error ("no style to close by [" ++ String.ofList tag ++ "]")
      | some opened => (withoutTags opened rest).map fun behind => text ++ behind

/-- A text without its tags. -/
def plain (text : String) : Except String String :=
  match text.toList.splitOn '[' with
  | [] => .ok text
  | front :: pieces => (withoutTags [] pieces).map fun behind => String.ofList (front ++ behind)

end PrivilegeStore.Console
