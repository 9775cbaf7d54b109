import PrivilegeStore.Path

/-!
# The elements of a joined path

Cutting at slashes takes texts put together with a slash apart again, and slashes at the end of a
text leave only empty pieces. So a path that a name without slashes is joined to has one element
more, which is the name, whatever slashes the parent begins or ends with or has inside.
-/
namespace PrivilegeStore.Path

/-- What is cut off the end of a text are slashes. -/
theorem exists_slashes (cs : List Char) :
    ∃ count, trimEnd cs ++ List.replicate count '/' = cs := by
  induction cs with
  | nil => exact ⟨0, rfl⟩
  | cons c cs ih =>
    obtain ⟨count, whole⟩ := ih
    rw [trimEnd]
    split
    next cut =>
      obtain ⟨rfl, none⟩ := cut
      rw [none, List.nil_append] at whole
      exact ⟨count + 1, by rw [List.nil_append, List.replicate_succ, whole]⟩
    next => exact ⟨count, by rw [List.cons_append, whole]⟩

/-- Texts put together with a slash have the pieces of both. -/
theorem splitOn_append (xs ys : List Char) :
    (xs ++ '/' :: ys).splitOn '/' = xs.splitOn '/' ++ ys.splitOn '/' :=
  List.splitOnP_append_cons xs ys (beq_self_eq_true '/')

/-- Slashes at the end of a text add no pieces but empty ones. -/
theorem splitOn_append_slashes (cs : List Char) (count : Nat) :
    ((cs ++ List.replicate count '/').splitOn '/').filter (fun piece => !piece.isEmpty) =
      (cs.splitOn '/').filter fun piece => !piece.isEmpty := by
  induction count generalizing cs with
  | zero => rw [List.replicate_zero, List.append_nil]
  | succ count ih =>
    have slashes := ih []
    rw [List.nil_append] at slashes
    rw [List.replicate_succ, splitOn_append, List.filter_append, slashes]
    exact List.append_nil _

theorem splitOn_trimEnd (cs : List Char) :
    ((trimEnd cs).splitOn '/').filter (fun piece => !piece.isEmpty) =
      (cs.splitOn '/').filter fun piece => !piece.isEmpty := by
  obtain ⟨count, whole⟩ := exists_slashes cs
  rw [← splitOn_append_slashes (trimEnd cs) count, whole]

/-- The elements of a joined path are those of the parent and the name, whatever slashes there
are. -/
theorem elements_join (parent : String) {name : String} (some : name ≠ "")
    (plain : '/' ∉ name.toList) : elements (join parent name) = elements parent ++ [name] := by
  have whole : name.toList.splitOn '/' = [name.toList] :=
    List.splitOnP_eq_singleton fun c member => beq_false_of_ne fun same => plain (same ▸ member)
  have kept : [name.toList].filter (fun piece => !piece.isEmpty) = [name.toList] := by
    simp [some]
  rw [elements, elements, join, String.toList_ofList, splitOn_append, whole, List.filter_append,
    splitOn_trimEnd, kept, List.map_append, List.map_cons, List.map_nil, String.ofList_toList]

theorem name_join (parent : String) {name : String} (some : name ≠ "")
    (plain : '/' ∉ name.toList) : Path.name (join parent name) = name := by
  rw [Path.name, elements_join parent some plain, List.getLast?_concat]
  rfl

end PrivilegeStore.Path
