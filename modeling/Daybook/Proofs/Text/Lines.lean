import Mathlib

/-!
# Lines of a text

A text consists of lines if each of them is ended by a line feed and none has one inside
(`ConsistsOf`).  There are as many lines as line feeds then (`ConsistsOf.count_feed`).

Whatever is written with a line feed behind it consists of the lines between its own line feeds
(`consistsOf_split`), and what is written one after the other of the lines of all
(`ConsistsOf.append`).
-/

namespace Daybook.Text

/-- **Whether a text consists of some lines**, each of which is ended by a line feed. -/
structure ConsistsOf (text : List Char) (lines : List (List Char)) : Prop where
  eq_flatten : text = (lines.map (· ++ ['\n'])).flatten
  /-- No line has a line feed inside. -/
  not_mem_feed : ∀ line ∈ lines, '\n' ∉ line

namespace ConsistsOf

variable {text text' : List Char} {lines lines' : List (List Char)}

theorem nil : ConsistsOf [] [] :=
  ⟨rfl, List.forall_mem_nil _⟩

theorem single {line : List Char} (h : '\n' ∉ line) : ConsistsOf (line ++ ['\n']) [line] :=
  ⟨by simp, by simpa using h⟩

theorem append (h : ConsistsOf text lines) (h' : ConsistsOf text' lines') :
    ConsistsOf (text ++ text') (lines ++ lines') := by
  refine ⟨?_, List.forall_mem_append.mpr ⟨h.not_mem_feed, h'.not_mem_feed⟩⟩
  rw [List.map_append, List.flatten_append, ← h.eq_flatten, ← h'.eq_flatten]

/-- **There are as many lines as line feeds.** -/
theorem count_feed (h : ConsistsOf text lines) : text.count '\n' = lines.length := by
  obtain ⟨rfl, hlines⟩ := h
  induction lines with
  | nil => rfl
  | cons line lines ih =>
    obtain ⟨hline, hlines⟩ := List.forall_mem_cons.mp hlines
    rw [List.map_cons, List.flatten_cons, List.count_append, List.count_append, ih hlines,
      List.count_eq_zero_of_not_mem hline, List.length_cons]
    simp [Nat.add_comm]

theorem getLast?_eq (h : ConsistsOf text lines) (hne : lines ≠ []) : text.getLast? = some '\n' := by
  obtain ⟨front, line, rfl⟩ := (List.eq_nil_or_concat lines).resolve_left hne
  rw [h.eq_flatten]
  simp

end ConsistsOf

/-- Between its line feeds a text has no others, so it consists of what stands there. -/
theorem consistsOf_split (cs : List Char) : ConsistsOf (cs ++ ['\n']) (cs.splitOn '\n') := by
  induction h : cs.length using Nat.strong_induction_on generalizing cs with
  | _ n ih =>
    by_cases hfeed : '\n' ∈ cs
    · -- The first line ends with the first line feed.
      obtain ⟨line, rest, rfl, hline⟩ := List.eq_append_cons_of_mem hfeed
      have hrest := ih rest.length (by simp at h; omega) rest rfl
      rw [List.splitOn_append_cons_self_of_not_mem hline]
      simpa using (ConsistsOf.single hline).append hrest
    · rw [List.splitOn_eq_singleton hfeed]
      exact .single hfeed

theorem length_splitOn_feed (cs : List Char) : (cs.splitOn '\n').length = cs.count '\n' + 1 := by
  rw [← (consistsOf_split cs).count_feed, List.count_append]
  rfl

/-- What is written piece by piece, with a line feed behind each, consists of the lines of all. -/
theorem consistsOf_flatMap_split (pieces : List (List Char)) :
    ConsistsOf (pieces.map (· ++ ['\n'])).flatten (pieces.flatMap (List.splitOn '\n')) := by
  induction pieces with
  | nil => exact .nil
  | cons piece pieces ih => exact (consistsOf_split piece).append ih

variable {pieces : List (List Char)}

theorem flatMap_split_eq_self (h : ∀ piece ∈ pieces, '\n' ∉ piece) :
    pieces.flatMap (List.splitOn '\n') = pieces := by
  have hsplit : ∀ piece ∈ pieces, piece.splitOn '\n' = [piece] :=
    fun piece hpiece => List.splitOn_eq_singleton (h piece hpiece)
  rw [List.flatMap_congr hsplit, List.flatMap_singleton']

/-- **There are more lines than pieces** if and only if some piece has a line feed. -/
theorem length_flatMap_split_eq_iff :
    (pieces.flatMap (List.splitOn '\n')).length = pieces.length ↔
      ∀ piece ∈ pieces, '\n' ∉ piece := by
  have hlength : (pieces.flatMap (List.splitOn '\n')).length =
      (pieces.map (List.count '\n')).sum + pieces.length := by
    simp [List.length_flatMap, length_splitOn_feed, List.sum_map_add]
  rw [hlength, Nat.add_eq_right, List.sum_eq_zero_iff]
  simp [List.count_eq_zero]

end Daybook.Text
