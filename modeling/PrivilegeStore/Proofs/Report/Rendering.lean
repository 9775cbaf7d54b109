import PrivilegeStore.Console.Table

/-!
# What a console prints

The console is a parameter of a check, and may refuse any text or table. What its documentation
promises for texts in which no tag can begin is the hypothesis `Renderer.PrintsUnmarked`: such texts
are printed, with or without a stretch in a style, and tables of such texts are drawn. The console
that the command prints on keeps this promise. The texts of a check have no tags of their own but
those around styled stretches, so only violations, names and members can bring others in.
-/
namespace PrivilegeStore

namespace Renderer

variable {r : Renderer}

/-- A console prints every one of some texts. -/
def Shows (r : Renderer) (texts : List String) : Prop :=
  ∀ text ∈ texts, ∃ lines, r.text text = .ok lines

def Draws (r : Renderer) (headings : List Heading) (rows : List (List String)) : Prop :=
  ∃ lines, r.table headings rows = .ok lines

theorem shows_nil : r.Shows [] := List.forall_mem_nil _

theorem shows_cons {text : String} {rest : List String} :
    r.Shows (text :: rest) ↔ (∃ lines, r.text text = .ok lines) ∧ r.Shows rest :=
  List.forall_mem_cons

theorem shows_singleton {text : String} :
    r.Shows [text] ↔ ∃ lines, r.text text = .ok lines := List.forall_mem_singleton

theorem shows_append {texts others : List String} :
    r.Shows (texts ++ others) ↔ r.Shows texts ∧ r.Shows others := List.forall_mem_append

/-- No tag can begin in a text. -/
def Unmarked (text : String) : Prop := '[' ∉ text.toList

instance (text : String) : Decidable (Unmarked text) :=
  inferInstanceAs (Decidable ('[' ∉ text.toList))

/-- What a console is documented to do, on an output that takes every character, where no tag begins
but those of a style in use. A backslash in front of a tag would take its meaning away. -/
structure PrintsUnmarked (r : Renderer) : Prop where
  plain : ∀ {text}, Unmarked text → ∃ lines, r.text text = .ok lines
  stretch : ∀ {front style text}, style ∈ styles → Unmarked front → '\\' ∉ front.toList →
    Unmarked text → ∃ lines, r.text (front ++ styled style text) = .ok lines
  table : ∀ {headings rows}, (∀ h ∈ headings, Unmarked h.title) →
    (∀ row ∈ rows, ∀ cell ∈ row, Unmarked cell) → r.Draws headings rows

theorem Unmarked.append {s t : String} (front : Unmarked s) (behind : Unmarked t) :
    Unmarked (s ++ t) := by
  rw [Unmarked, String.toList_append]
  exact List.not_mem_append front behind

theorem unmarked_intercalate {mark : String} {texts : List String} (parting : Unmarked mark)
    (each : ∀ text ∈ texts, Unmarked text) : Unmarked (mark.intercalate texts) := by
  induction texts with
  | nil => simp [Unmarked]
  | cons text rest ih =>
    cases rest with
    | nil => simpa using each
    | cons next rest =>
      rw [String.intercalate_cons_cons]
      exact ((each text List.mem_cons_self).append parting).append
        (ih fun t later => each t (List.mem_cons_of_mem text later))

theorem digitChar_ne_bracket (d : Nat) : Nat.digitChar d ≠ '[' := by
  by_cases small : d < 16
  · exact (by decide : ∀ d < 16, Nat.digitChar d ≠ '[') d small
  · rw [Nat.digitChar_eq_star.2 (Nat.le_of_not_lt small)]
    decide

theorem bracket_notMem_toDigits {base : Nat} (some : 1 < base) (n : Nat) :
    '[' ∉ Nat.toDigits base n := by
  induction n using Nat.strongRecOn with
  | ind n ih =>
    rw [Nat.toDigits_eq_if some]
    split
    · simp [(digitChar_ne_bracket n).symm]
    next large =>
      have smaller : n / base < n := Nat.div_lt_self (by omega) some
      simp [ih _ smaller, (digitChar_ne_bracket (n % base)).symm]

theorem unmarked_toString (n : Nat) : Unmarked (toString n) := by
  rw [Unmarked, Nat.toString_eq_ofList_toDigits, String.toList_ofList]
  exact bracket_notMem_toDigits (by decide) n

end Renderer

namespace Console

open Renderer (Unmarked PrintsUnmarked)

theorem splitOn_of_free {cs : List Char} (free : '[' ∉ cs) : cs.splitOn '[' = [cs] :=
  List.splitOnP_eq_singleton fun _ member => beq_false_of_ne fun same => free (same ▸ member)

theorem splitOn_append_of_free {cs : List Char} (free : '[' ∉ cs) (rest : List Char) :
    (cs ++ '[' :: rest).splitOn '[' = cs :: rest.splitOn '[' := by
  have parted : (cs ++ '[' :: rest).splitOn '[' = cs.splitOn '[' ++ rest.splitOn '[' :=
    List.splitOnP_append_cons cs rest (beq_self_eq_true '[')
  rw [parted, splitOn_of_free free, List.singleton_append]

theorem plain_of_unmarked {text : String} (unmarked : Unmarked text) : plain text = .ok text := by
  rw [plain, splitOn_of_free unmarked]
  simp [withoutTags, Except.map]

/-- How the tags of the styles in use are read. -/
theorem tags_of_style {style : String} (used : style ∈ Renderer.styles) :
    '[' ∉ style.toList ∧ (∀ text, tag? (style.toList ++ ']' :: text) = some (style.toList, text)) ∧
      tag? ('/' :: (style.toList ++ [']'])) = some ('/' :: style.toList, []) ∧
      openBehind? style.toList [] = some [style.toList] ∧
      openBehind? ('/' :: style.toList) [style.toList] = some [] := by
  simp only [Renderer.styles, List.mem_cons, List.not_mem_nil, or_false] at used
  rcases used with rfl | rfl | rfl | rfl <;>
    exact ⟨by decide, fun _ => rfl, rfl, rfl, rfl⟩

/-- A stretch in a style is taken out of its tags. -/
theorem plain_of_styled {front style text : String} (used : style ∈ Renderer.styles)
    (unmarked : Unmarked front) (unmarked' : Unmarked text) :
    plain (front ++ Renderer.styled style text) = .ok (front ++ text) := by
  obtain ⟨free, opening, closing, opens, closes⟩ := tags_of_style used
  have whole : (front ++ Renderer.styled style text).toList =
      front.toList ++ '[' :: (style.toList ++ ']' :: text.toList ++ '[' ::
        ('/' :: (style.toList ++ [']']))) := by
    simp [Renderer.styled]
  have middle : '[' ∉ style.toList ++ ']' :: text.toList := by
    simpa using ⟨free, unmarked'⟩
  have last : '[' ∉ '/' :: (style.toList ++ [']']) := by
    simpa using free
  rw [plain, whole, splitOn_append_of_free unmarked, splitOn_append_of_free middle,
    splitOn_of_free last]
  simp [withoutTags, opening, closing, opens, closes, Except.map]

theorem mapM_of_forall_ok {α ε : Type} {f : α → Except ε α} {items : List α}
    (each : ∀ item ∈ items, f item = .ok item) : items.mapM f = .ok items := by
  induction items with
  | nil => rfl
  | cons item rest ih =>
    rw [List.mapM_cons, each item List.mem_cons_self,
      ih fun other later => each other (List.mem_cons_of_mem item later)]
    rfl

/-- The console of the command keeps what consoles promise. -/
theorem printsUnmarked_renderer : PrintsUnmarked renderer where
  plain {text} unmarked :=
    ⟨print text, by simp only [renderer, plain_of_unmarked unmarked, Except.map]⟩
  stretch {front _ text} used unmarked _ unmarked' :=
    ⟨print (front ++ text), by
      simp only [renderer, plain_of_styled used unmarked unmarked', Except.map]⟩
  table {headings rows} titles cells := by
    have heads : (headings.mapM fun h => (plain h.title).map fun title => { h with title }) =
        .ok headings :=
      mapM_of_forall_ok fun h member => by simp [plain_of_unmarked (titles h member), Except.map]
    have body : (rows.mapM fun row => row.mapM plain) = .ok rows :=
      mapM_of_forall_ok fun row member => mapM_of_forall_ok fun cell inRow =>
        plain_of_unmarked (cells row member cell inRow)
    refine ⟨tableLines headings rows, ?_⟩
    simp only [renderer, heads, body]
    rfl

end Console

end PrivilegeStore
