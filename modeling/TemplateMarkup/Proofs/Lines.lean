import Mathlib.Data.List.DropRight
import TemplateMarkup.Proofs.Paths

/-!
The lines of a text. Pieces without newlines, put together with newlines, are the pieces of the result.
Reading lines takes off some of the carriage returns that end a piece, and an empty last piece; so the
lines are compared by rows, which have none of these carriage returns.
-/
namespace TemplateMarkup.Text

theorem splitNewlines_ne_nil (t : Text) : splitNewlines t ≠ [] := by
  cases t with
  | nil => simp [splitNewlines]
  | cons c t =>
    rw [splitNewlines]
    split
    · simp
    · split <;> simp

theorem splitNewlines_line {line : Text} (single : '\n' ∉ line) (rest : Text) :
    splitNewlines (line ++ '\n' :: rest) = line :: splitNewlines rest := by
  induction line with
  | nil =>
    obtain ⟨first, more, split⟩ := List.exists_cons_of_ne_nil (splitNewlines_ne_nil rest)
    rw [List.nil_append, splitNewlines, split]
    rfl
  | cons c line ih =>
    obtain ⟨other, single⟩ := not_or.mp (mt List.mem_cons.mpr single)
    rw [List.cons_append, splitNewlines, ih single]
    simp [Ne.symm other]

theorem splitNewlines_single {line : Text} (single : '\n' ∉ line) : splitNewlines line = [line] := by
  induction line with
  | nil => rfl
  | cons c line ih =>
    obtain ⟨other, single⟩ := not_or.mp (mt List.mem_cons.mpr single)
    rw [splitNewlines, ih single]
    simp [Ne.symm other]

theorem newline_notMem_splitNewlines {t piece : Text} (member : piece ∈ splitNewlines t) :
    '\n' ∉ piece := by
  induction t generalizing piece with
  | nil =>
    rw [splitNewlines, List.mem_singleton] at member
    simp [member]
  | cons c t ih =>
    obtain ⟨first, more, whole⟩ := List.exists_cons_of_ne_nil (splitNewlines_ne_nil t)
    rw [whole] at ih
    rw [splitNewlines, whole] at member
    dsimp only at member
    split at member
    · rcases List.mem_cons.mp member with rfl | member
      · exact List.not_mem_nil
      · exact ih member
    · rename_i other
      rcases List.mem_cons.mp member with rfl | member
      · exact List.not_mem_cons_of_ne_of_not_mem (Ne.symm other) (ih (List.mem_cons_self ..))
      · exact ih (List.mem_cons_of_mem _ member)

theorem splitNewlines_joinWith {pieces : List Text} (given : pieces ≠ [])
    (single : ∀ p ∈ pieces, '\n' ∉ p) : splitNewlines (joinWith ['\n'] pieces) = pieces := by
  induction pieces with
  | nil => exact absurd rfl given
  | cons p pieces ih =>
    have first := single p (List.mem_cons_self ..)
    cases pieces with
    | nil => exact splitNewlines_single first
    | cons q pieces =>
      rw [joinWith_cons_cons, List.append_assoc, List.singleton_append, splitNewlines_line first,
        ih (by simp) fun p member => single p (List.mem_cons_of_mem _ member)]

theorem splitNewlines_ended {pieces : List Text} (single : ∀ p ∈ pieces, '\n' ∉ p) :
    splitNewlines (pieces.flatMap (· ++ ['\n'])) = pieces ++ [[]] := by
  induction pieces with
  | nil => rfl
  | cons p pieces ih =>
    rw [List.flatMap_cons, List.append_assoc, List.singleton_append,
      splitNewlines_line (single p (List.mem_cons_self ..)),
      ih fun p member => single p (List.mem_cons_of_mem _ member)]
    rfl

/-! ### Rows -/

def dropReturns (piece : Text) : Text := piece.rdropWhile (· == '\r')

/-- The pieces between newlines, without the carriage returns that end them. -/
def rows (t : Text) : List Text := (splitNewlines t).map dropReturns

theorem dropReturn_subset (line : Text) : dropReturn line ⊆ line := by
  rw [dropReturn]
  split
  · exact List.dropLast_subset line
  · exact List.Subset.refl line

theorem dropReturns_dropReturn (line : Text) : dropReturns (dropReturn line) = dropReturns line := by
  rw [dropReturn]
  split
  · rename_i ended
    obtain ⟨before, rfl⟩ := List.getLast?_eq_some_iff.mp ended
    rw [List.dropLast_concat, dropReturns, dropReturns, List.rdropWhile_concat_pos _ _ _ (by rfl)]
  · rfl

/-- A piece consists of a part and the carriage returns behind it. -/
theorem dropReturns_append_returns (piece : Text) :
    ∃ returns, dropReturns piece ++ returns = piece ∧ ∀ c ∈ returns, isBlank c := by
  refine ⟨piece.rtakeWhile (· == '\r'), List.rdropWhile_append_rtakeWhile .., ?_⟩
  intro c member
  have returned := List.mem_rtakeWhile_imp member
  rw [beq_iff_eq] at returned
  subst returned
  rfl

theorem newline_notMem_lines {t line : Text} (member : line ∈ lines t) : '\n' ∉ line := by
  have whole : ∀ l ∈ (splitNewlines t).dropLast.map dropReturn, '\n' ∉ l := by
    intro l listed
    obtain ⟨piece, inside, rfl⟩ := List.mem_map.mp listed
    exact fun newline => newline_notMem_splitNewlines (List.dropLast_subset _ inside)
      (dropReturn_subset piece newline)
  rw [lines] at member
  split at member
  · exact whole line member
  · rename_i last found
    rcases List.mem_append.mp member with listed | listed
    · exact whole line listed
    · rw [List.mem_singleton.mp listed]
      exact newline_notMem_splitNewlines (List.mem_of_getLast? found)
  · exact whole line member

theorem rows_eq (t : Text) :
    rows t = (lines t).map dropReturns ∨ rows t = (lines t).map dropReturns ++ [[]] := by
  have last := List.getLast?_eq_some_getLast (splitNewlines_ne_nil t)
  have parts := List.dropLast_append_getLast (splitNewlines_ne_nil t)
  have whole : ((splitNewlines t).dropLast.map dropReturn).map dropReturns =
      (splitNewlines t).dropLast.map dropReturns := by
    rw [List.map_map]
    exact List.map_congr_left fun piece _ => dropReturns_dropReturn piece
  generalize (splitNewlines t).getLast _ = final at last parts
  rw [rows, lines, last]
  cases final with
  | nil =>
    refine Or.inr ?_
    rw [whole, ← parts, List.map_append, List.dropLast_concat]
    rfl
  | cons c final =>
    refine Or.inl ?_
    rw [List.map_append, whole, ← parts, List.map_append, List.dropLast_concat]

end TemplateMarkup.Text
