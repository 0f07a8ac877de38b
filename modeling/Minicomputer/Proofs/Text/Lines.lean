import Minicomputer.Text.Lines

/-!
# Texts made of lines

`Text.lines` takes a text apart, and here texts are put together so that it finds the same lines
again: with line feeds between them, or with a carriage return and a line feed behind each.

* `lines_intercalate` -- line feeds between lines that are not empty and do not end in a return;
* `lines_terminated` -- both characters behind every line, which suits all lines;
* `lines_withReturns` -- a return before every line feed, in a text that has no other.
-/

namespace Minicomputer
namespace Text

theorem pieces_eq_splitOn {α : Type} [DecidableEq α] (mark : α) (xs : List α) :
    pieces mark xs = xs.splitOn mark := by
  induction xs with
  | nil => rfl
  | cons x xs ih =>
    unfold pieces at ih ⊢
    rw [List.foldr_cons, ih, List.splitOn_cons_eq_if_modifyHead]
    by_cases same : x = mark
    · rw [if_pos same, if_pos (beq_iff_eq.mpr same)]
    · rw [if_neg same, if_neg (mt beq_iff_eq.mp same)]
      obtain ⟨piece, rest, cut⟩ := List.exists_cons_of_ne_nil (List.splitOn_ne_nil mark xs)
      rw [cut]
      rfl

theorem mark_not_mem_of_mem_pieces {α : Type} [DecidableEq α] {mark : α} {xs piece : List α}
    (h : piece ∈ pieces mark xs) : mark ∉ piece := by
  rw [pieces_eq_splitOn] at h
  induction xs generalizing piece with
  | nil =>
    rw [List.splitOn_nil, List.mem_singleton] at h
    rw [h]
    exact List.not_mem_nil
  | cons x xs ih =>
    rw [List.splitOn_cons_eq_if_modifyHead] at h
    split at h
    · rcases List.mem_cons.mp h with rfl | later
      · exact List.not_mem_nil
      · exact ih later
    next other =>
      -- The element goes to the front of the first piece, and it is not the mark.
      obtain ⟨first, rest, cut⟩ := List.exists_cons_of_ne_nil (List.splitOn_ne_nil mark xs)
      rw [cut] at h ih
      rcases List.mem_cons.mp h with rfl | later
      · intro member
        rcases List.mem_cons.mp member with same | inside
        · exact other (beq_iff_eq.mpr same.symm)
        · exact ih (List.mem_cons_self ..) inside
      · exact ih (List.mem_cons_of_mem _ later)

/-! ## What lines look like -/

theorem dropReturn_sublist (line : List Char) : (dropReturn line).Sublist line := by
  unfold dropReturn
  split
  · exact List.dropLast_sublist line
  · exact List.Sublist.refl line

theorem newline_not_mem_of_mem_lines {text line : List Char} (h : line ∈ lines text) :
    '\n' ∉ line := by
  have ended (inside : line ∈ (pieces '\n' text).dropLast.map dropReturn) : '\n' ∉ line := by
    obtain ⟨piece, found, rfl⟩ := List.mem_map.mp inside
    have clean := mark_not_mem_of_mem_pieces (List.dropLast_subset _ found)
    exact fun newline => clean ((dropReturn_sublist piece).subset newline)
  simp only [lines] at h
  split at h
  next c rest last =>
    rcases List.mem_append.mp h with before | final
    · exact ended before
    · rw [List.mem_singleton.mp final]
      exact mark_not_mem_of_mem_pieces (List.mem_of_getLast? last)
  next => exact ended h

/-! ## Putting lines together -/

theorem lines_nil : lines [] = [] :=
  rfl

theorem lines_singleton {line : List Char} (clean : '\n' ∉ line) (some_char : line ≠ []) :
    lines line = [line] := by
  obtain ⟨c, rest, rfl⟩ := List.exists_cons_of_ne_nil some_char
  simp only [lines]
  rw [pieces_eq_splitOn, List.splitOn_eq_singleton clean]
  rfl

theorem lines_cons {line : List Char} (clean : '\n' ∉ line) (rest : List Char) :
    lines (line ++ '\n' :: rest) = dropReturn line :: lines rest := by
  simp only [lines]
  rw [pieces_eq_splitOn, List.splitOn_append_cons_self_of_not_mem clean, pieces_eq_splitOn]
  -- There is a piece behind the line feed, so the line is not the last piece.
  obtain ⟨first, later, cut⟩ := List.exists_cons_of_ne_nil (List.splitOn_ne_nil '\n' rest)
  rw [cut, List.dropLast_cons_cons, List.getLast?_cons_cons, List.map_cons]
  split
  · exact List.cons_append
  · rfl

theorem dropReturn_of_last {line : List Char} (h : line.getLast? ≠ some '\r') :
    dropReturn line = line := by
  unfold dropReturn
  split
  next last => exact absurd last h
  next => rfl

theorem dropReturn_return (line : List Char) : dropReturn (line ++ ['\r']) = line := by
  simp [dropReturn]

theorem lines_intercalate {texts : List (List Char)} (clean : ∀ line ∈ texts, '\n' ∉ line)
    (some_char : ∀ line ∈ texts, line ≠ [])
    (last : ∀ line ∈ texts, line.getLast? ≠ some '\r') :
    lines (['\n'].intercalate texts) = texts := by
  induction texts with
  | nil => exact lines_nil
  | cons first rest ih =>
    rw [List.forall_mem_cons] at clean some_char last
    cases rest with
    | nil =>
      rw [List.intercalate_singleton]
      exact lines_singleton clean.1 some_char.1
    | cons second rest =>
      calc
        lines (['\n'].intercalate (first :: second :: rest))
            = lines (first ++ '\n' :: ['\n'].intercalate (second :: rest)) := by
              rw [List.intercalate_cons_cons, List.append_assoc, List.singleton_append]
        _ = first :: lines (['\n'].intercalate (second :: rest)) := by
              rw [lines_cons clean.1, dropReturn_of_last last.1]
        _ = first :: second :: rest := by rw [ih clean.2 some_char.2 last.2]

/-- Lines with a carriage return and a line feed behind each. -/
def terminated (texts : List (List Char)) : List Char :=
  texts.flatMap (· ++ ['\r', '\n'])

theorem lines_terminated {texts : List (List Char)} (clean : ∀ line ∈ texts, '\n' ∉ line) :
    lines (terminated texts) = texts := by
  induction texts with
  | nil => exact lines_nil
  | cons first rest ih =>
    rw [List.forall_mem_cons] at clean
    have clean' : '\n' ∉ first ++ ['\r'] := by simpa using clean.1
    calc
      lines (terminated (first :: rest))
          = lines ((first ++ ['\r']) ++ '\n' :: terminated rest) := by simp [terminated]
      _ = first :: lines (terminated rest) := by rw [lines_cons clean', dropReturn_return]
      _ = first :: rest := by rw [ih clean.2]

/-! ## Carriage returns -/

/-- The text with a carriage return before every line feed. -/
def withReturns (text : List Char) : List Char :=
  text.flatMap fun c => if c = '\n' then ['\r', '\n'] else [c]

theorem withReturns_of_clean {text : List Char} (clean : '\n' ∉ text) :
    withReturns text = text := by
  induction text with
  | nil => rfl
  | cons c rest ih =>
    have other : c ≠ '\n' := fun same => clean (same ▸ List.mem_cons_self ..)
    have later := ih fun member => clean (List.mem_cons_of_mem _ member)
    rw [withReturns, List.flatMap_cons, if_neg other]
    exact congrArg (c :: ·) later

theorem withReturns_append_newline {line : List Char} (clean : '\n' ∉ line) (rest : List Char) :
    withReturns (line ++ '\n' :: rest) = (line ++ ['\r']) ++ '\n' :: withReturns rest := by
  have kept : line.flatMap (fun c => if c = '\n' then ['\r', '\n'] else [c]) = line :=
    withReturns_of_clean clean
  rw [withReturns, List.flatMap_append, kept, List.flatMap_cons, if_pos rfl]
  simp [withReturns]

/-- Without other returns, the lines are the same. -/
theorem lines_withReturns {text : List Char} (noReturn : '\r' ∉ text) :
    lines (withReturns text) = lines text := by
  by_cases newline : '\n' ∈ text
  · -- The text is cut at its first line feed.
    obtain ⟨line, rest, cut, clean⟩ := List.eq_append_cons_of_mem newline
    have clean' : '\n' ∉ line ++ ['\r'] := by simpa using clean
    rw [cut] at noReturn
    have noReturn' : '\r' ∉ rest := fun member => noReturn (by simp [member])
    have last : line.getLast? ≠ some '\r' := fun final =>
      noReturn (List.mem_append_left _ (List.mem_of_getLast? final))
    have shorter : rest.length < text.length := by
      rw [cut, List.length_append, List.length_cons]
      omega
    calc lines (withReturns text)
        = line :: lines (withReturns rest) := by
          rw [cut, withReturns_append_newline clean, lines_cons clean', dropReturn_return]
      _ = line :: lines rest := by rw [lines_withReturns noReturn']
      _ = lines text := by rw [cut, lines_cons clean, dropReturn_of_last last]
  · rw [withReturns_of_clean newline]
termination_by text.length

end Text
end Minicomputer
