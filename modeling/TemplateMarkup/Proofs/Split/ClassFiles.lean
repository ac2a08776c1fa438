import Mathlib.Data.List.Forall2
import TemplateMarkup.Proofs.Bytes
import TemplateMarkup.Proofs.Edit.Splices
import TemplateMarkup.Proofs.Lines
import TemplateMarkup.Split.CodeBehind

/-!
The class file keeps the code. A row of the code that is not blank becomes the row of the class body in
the same place: eight spaces, and the row without some of the blanks that start it. The first row keeps
these blanks, and each other one loses the common indent; where the indent ends inside a character, the
row loses all of them. Main statement: `render_keeps_code`.
-/
namespace TemplateMarkup.CodeBehind

open Text

/-! ### Blank lines -/

theorem isBlankText_append (s t : Text) : isBlankText (s ++ t) = (isBlankText s && isBlankText t) :=
  List.all_append

theorem isBlankText_iff {line : Text} : isBlankText line ↔ ∀ c ∈ line, isBlank c := List.all_eq_true

@[simp] theorem isBlankText_dropReturns (line : Text) :
    isBlankText (dropReturns line) = isBlankText line := by
  obtain ⟨returns, whole, blank⟩ := dropReturns_append_returns line
  conv_rhs => rw [← whole, isBlankText_append, isBlankText_iff.mpr blank, Bool.and_true]

theorem dropReturns_append (lead : Text) {line : Text} (filled : isBlankText line = false) :
    dropReturns (lead ++ line) = lead ++ dropReturns line := by
  have given : dropReturns line ≠ [] := by
    intro none
    rw [← isBlankText_dropReturns, none] at filled
    cases filled
  rw [dropReturns, List.rdropWhile, ne_eq, List.reverse_eq_nil_iff] at given
  rw [dropReturns, List.rdropWhile, List.reverse_append, List.dropWhile_append,
    if_neg (by simpa using given), List.reverse_append, List.reverse_reverse]
  rfl

/-- The carriage returns that end a line that is not blank do not count as its leading blanks. -/
theorem takeWhile_dropReturns {line : Text} (filled : isBlankText line = false) :
    (dropReturns line).takeWhile isBlank = line.takeWhile isBlank := by
  obtain ⟨returns, whole, _⟩ := dropReturns_append_returns line
  rw [← isBlankText_dropReturns] at filled
  have solid : ((dropReturns line).takeWhile isBlank).length ≠ (dropReturns line).length := by
    intro full
    have same := (List.takeWhile_prefix isBlank).eq_of_length full
    have blank : isBlankText (dropReturns line) = true := same ▸ List.all_takeWhile
    rw [filled] at blank
    cases blank
  conv_rhs => rw [← whole, List.takeWhile_append, if_neg solid]

theorem indentOf_dropReturns {line : Text} (filled : isBlankText line = false) :
    indentOf (dropReturns line) = indentOf line := by
  rw [indentOf, takeWhile_dropReturns filled, indentOf]

/-! ### The common indent -/

/-- The least number of bytes of blanks that start a row, of the rows that are not blank. -/
structure LeastIndent (rows : List Text) (indent : Nat) : Prop where
  below : ∀ row ∈ rows, isBlankText row = false → indent ≤ indentOf row
  reached : (∃ row ∈ rows, isBlankText row = false) →
    ∃ row ∈ rows, isBlankText row = false ∧ indentOf row = indent

theorem commonIndent_least (lines : List Text) : LeastIndent lines (commonIndent lines) := by
  have listed : ∀ {n}, n ∈ (lines.filter fun l => !isBlankText l).map indentOf ↔
      ∃ row ∈ lines, isBlankText row = false ∧ indentOf row = n := by
    simp [and_assoc]
  rw [commonIndent]
  cases least : ((lines.filter fun l => !isBlankText l).map indentOf).min? with
  | none =>
    refine ⟨fun _ _ _ => Nat.zero_le _, ?_⟩
    rintro ⟨row, member, filled⟩
    have found := listed.mpr ⟨row, member, filled, rfl⟩
    rw [List.min?_eq_none_iff.mp least] at found
    cases found
  | some n =>
    obtain ⟨member, bound⟩ := List.min?_eq_some_iff.mp least
    exact ⟨fun row inside filled => bound _ (listed.mpr ⟨row, inside, filled, rfl⟩),
      fun _ => listed.mp member⟩

theorem LeastIndent.map_dropReturns {lines : List Text} {indent : Nat}
    (least : LeastIndent lines indent) : LeastIndent (lines.map dropReturns) indent := by
  constructor
  · intro row member filled
    obtain ⟨line, inside, rfl⟩ := List.mem_map.mp member
    rw [isBlankText_dropReturns] at filled
    rw [indentOf_dropReturns filled]
    exact least.below line inside filled
  · rintro ⟨row, member, filled⟩
    obtain ⟨line, inside, rfl⟩ := List.mem_map.mp member
    rw [isBlankText_dropReturns] at filled
    obtain ⟨first, listed, filled, size⟩ := least.reached ⟨line, inside, filled⟩
    exact ⟨dropReturns first, List.mem_map_of_mem listed, by simpa using filled,
      (indentOf_dropReturns filled).trans size⟩

theorem LeastIndent.concat_nil {rows : List Text} {indent : Nat} (least : LeastIndent rows indent) :
    LeastIndent (rows ++ [[]]) indent := by
  have inside : ∀ {row}, row ∈ rows ++ [[]] → isBlankText row = false → row ∈ rows := by
    intro row member filled
    rcases List.mem_append.mp member with member | last
    · exact member
    · rw [List.mem_singleton.mp last] at filled
      cases filled
  constructor
  · intro row member filled
    exact least.below row (inside member filled) filled
  · rintro ⟨row, member, filled⟩
    obtain ⟨first, listed, rest⟩ := least.reached ⟨row, inside member filled, filled⟩
    exact ⟨first, List.mem_append_left _ listed, rest⟩

theorem commonIndent_rows (code : Text) :
    LeastIndent code.rows.tail (commonIndent (lines code).tail) := by
  have least := (commonIndent_least (lines code).tail).map_dropReturns
  rw [List.map_tail] at least
  rcases rows_eq code with same | longer
  · rwa [same]
  · rw [longer]
    cases list : (lines code).map dropReturns with
    | nil => simpa [list] using least
    | cons first rest =>
      rw [list, List.tail_cons] at least
      exact least.concat_nil

/-! ### Cutting the indent off -/

/-- What is kept of a line that loses an indent: the blanks before it are cut off, as many bytes of them
as asked for if these end between two characters, and all of them otherwise. -/
def Cut (indent : Nat) (line kept : Text) : Prop :=
  ∃ blanks, line = blanks ++ kept ∧ isBlankText blanks ∧
    (line.Boundary indent → bytes blanks = indent) ∧
    (¬ line.Boundary indent → kept = trimStart line)

theorem unindent_cut {indent : Nat} {line : Text}
    (below : isBlankText line = false → indent ≤ indentOf line) :
    Cut indent line (unindent indent line) := by
  rw [unindent]
  cases dropped : dropBytes indent line with
  | none =>
    have inside : ¬ line.Boundary indent := by
      rintro ⟨lead, rest, rfl, rfl⟩
      rw [dropBytes_append] at dropped
      cases dropped
    exact ⟨line.takeWhile isBlank, List.takeWhile_append_dropWhile.symm, List.all_takeWhile,
      fun between => absurd between inside, fun _ => rfl⟩
  | some kept =>
    obtain ⟨blanks, rfl, rfl⟩ := dropBytes_eq_some dropped
    refine ⟨blanks, rfl, ?_, fun _ => rfl, fun inside => absurd (boundary_bytes blanks kept) inside⟩
    cases filled : isBlankText (blanks ++ kept) with
    | true =>
      rw [isBlankText_append, Bool.and_eq_true] at filled
      exact filled.1
    | false =>
      -- the bytes cut off are among those of the leading blanks
      obtain ⟨more, leading, _⟩ :=
        append_inj_of_bytes List.takeWhile_append_dropWhile.symm (below filled)
      have blank : isBlankText ((blanks ++ kept).takeWhile isBlank) := List.all_takeWhile
      rw [leading, isBlankText_append, Bool.and_eq_true] at blank
      exact blank.1

theorem Cut.isBlankText_eq {indent : Nat} {line kept : Text} (cut : Cut indent line kept) :
    isBlankText kept = isBlankText line := by
  obtain ⟨blanks, rfl, blank, _⟩ := cut
  rw [isBlankText_append, blank, Bool.true_and]

/-- Bytes of ASCII end between two characters. -/
theorem boundary_of_ascii {lead : Text} (rest : Text) {n : Nat} (ascii : ∀ c ∈ lead, c.toNat < 0x80)
    (within : n ≤ bytes lead) : (lead ++ rest).Boundary n := by
  induction lead generalizing n with
  | nil => exact ⟨[], rest, rfl, (Nat.le_zero.mp within).symm⟩
  | cons c lead ih =>
    obtain ⟨narrow, ascii⟩ := List.forall_mem_cons.mp ascii
    rw [bytes_cons, utf8Size_ascii narrow] at within
    cases n with
    | zero => exact ⟨[], _, rfl, rfl⟩
    | succ n =>
      obtain ⟨before, after, whole, size⟩ := ih ascii (n := n) (by omega)
      refine ⟨c :: before, after, by rw [List.cons_append, whole, List.cons_append], ?_⟩
      rw [bytes_cons, utf8Size_ascii narrow, size, Nat.add_comm]

theorem dedent_cuts (code : Text) :
    ∃ kept, dedent code = joinWith ['\n'] ((lines code).take 1 ++ kept) ∧
      List.Forall₂ (Cut (commonIndent (lines code).tail)) (lines code).tail kept := by
  refine ⟨(lines code).tail.map (unindent (commonIndent (lines code).tail)), ?_, ?_⟩
  · rw [dedent]
    cases lines code <;> rfl
  · refine List.forall₂_map_right_iff.mpr (List.forall₂_same.mpr ?_)
    intro line member
    exact unindent_cut ((commonIndent_least _).below line member)

/-! ### Rows that are not blank -/

/-- The rows that are not blank, with their places, which are counted from a number on. -/
def filledFrom (place : Nat) (rows : List Text) : List (Text × Nat) :=
  (rows.zipIdx place).filter fun row => !isBlankText row.1

def filledRows (t : Text) : List (Text × Nat) := filledFrom 0 t.rows

theorem filledFrom_cons (place : Nat) (row : Text) (rows : List Text) :
    filledFrom place (row :: rows) =
      (if isBlankText row then [] else [(row, place)]) ++ filledFrom (place + 1) rows := by
  cases blank : isBlankText row <;> simp [filledFrom, blank]

theorem filledFrom_concat_nil (place : Nat) (rows : List Text) :
    filledFrom place (rows ++ [[]]) = filledFrom place rows := by
  simp [filledFrom, List.zipIdx_append, isBlankText]

theorem filledRows_eq (t : Text) : filledRows t = filledFrom 0 ((lines t).map dropReturns) := by
  rw [filledRows]
  rcases rows_eq t with same | longer
  · rw [same]
  · rw [longer, filledFrom_concat_nil]

theorem filledFrom_forall₂ {R : Text × Nat → Text × Nat → Prop} {rows : List Text} {f g : Text → Text}
    {place : Nat} (blank : ∀ row ∈ rows, isBlankText (g row) = isBlankText (f row))
    (related : ∀ row ∈ rows, ∀ i, place ≤ i → isBlankText (f row) = false → R (f row, i) (g row, i)) :
    List.Forall₂ R (filledFrom place (rows.map f)) (filledFrom place (rows.map g)) := by
  induction rows generalizing place with
  | nil => exact .nil
  | cons row rows ih =>
    have member := List.mem_cons_self (a := row) (l := rows)
    have later :
        List.Forall₂ R (filledFrom (place + 1) (rows.map f)) (filledFrom (place + 1) (rows.map g)) :=
      ih (fun other listed => blank other (List.mem_cons_of_mem _ listed))
        fun other listed i past => related other (List.mem_cons_of_mem _ listed) i (by omega)
    rw [List.map_cons, List.map_cons, filledFrom_cons, filledFrom_cons, blank row member]
    cases filled : isBlankText (f row) with
    | true => exact later
    | false => exact .cons (related row member place (Nat.le_refl _) filled) later

/-! ### The class body -/

/-- A row of the code that is not blank and the row of the class body that it becomes, with their
places. -/
structure Moved (indent : Nat) (row out : Text × Nat) : Prop where
  place : out.2 = row.2
  kept : ∃ blanks rest, row.1 = blanks ++ rest ∧ isBlankText blanks ∧
    out.1 = List.replicate 8 ' ' ++ rest ∧
    (row.2 = 0 → blanks = []) ∧
    (0 < row.2 → (∀ c ∈ row.1.takeWhile isBlank, c.toNat < 0x80) → bytes blanks = indent)

theorem indentation_eq : indentation = List.replicate 8 ' ' := by decide

theorem Cut.moved {indent i : Nat} {line kept : Text} (cut : Cut indent line kept)
    (filled : isBlankText line = false) (below : indent ≤ indentOf line) (later : 0 < i) :
    Moved indent (dropReturns line, i) (indentation ++ dropReturns kept, i) := by
  have blank := cut.isBlankText_eq
  obtain ⟨blanks, whole, leading, between, _⟩ := cut
  refine ⟨rfl, blanks, dropReturns kept, ?_, leading, by rw [indentation_eq], by omega, ?_⟩
  · rw [whole, dropReturns_append blanks (blank.trans filled)]
  · intro _ ascii
    rw [takeWhile_dropReturns filled] at ascii
    have ends := boundary_of_ascii (line.dropWhile isBlank) ascii below
    rw [List.takeWhile_append_dropWhile] at ends
    exact between ends

theorem splitNewlines_dedent {code first : Text} {rest : List Text}
    (whole : lines code = first :: rest) :
    splitNewlines (dedent code) = first :: rest.map (unindent (commonIndent rest)) := by
  rw [dedent, whole]
  refine splitNewlines_joinWith (List.cons_ne_nil _ _) ?_
  have single : ∀ line ∈ first :: rest, '\n' ∉ line :=
    fun line member => newline_notMem_lines (whole ▸ member)
  intro line member
  rcases List.mem_cons.mp member with rfl | member
  · exact single line (List.mem_cons_self ..)
  · obtain ⟨line, inside, rfl⟩ := List.mem_map.mp member
    obtain ⟨blanks, parts, _⟩ := unindent_cut ((commonIndent_least rest).below line inside)
    intro newline
    refine single line (List.mem_cons_of_mem _ inside) ?_
    rw [parts]
    exact List.mem_append_right blanks newline

theorem dedent_moves (code : Text) :
    List.Forall₂
      (fun row out => Moved (commonIndent (lines code).tail) row (indentation ++ out.1, out.2))
      (filledRows code) (filledRows (dedent code)) := by
  rw [filledRows_eq code]
  cases whole : lines code with
  | nil =>
    have empty : filledRows (dedent code) = [] := by rw [dedent, whole]; rfl
    rw [empty]
    exact .nil
  | cons first rest =>
    have least := commonIndent_least rest
    rw [filledRows, rows, splitNewlines_dedent whole, List.map_cons, List.map_cons, List.map_map,
      filledFrom_cons, filledFrom_cons, List.tail_cons]
    refine List.rel_append ?_ (filledFrom_forall₂ ?_ ?_)
    · -- the first row loses nothing
      cases isBlankText (dropReturns first) with
      | true => exact .nil
      | false =>
        exact .cons ⟨rfl, [], dropReturns first, rfl, rfl, by rw [indentation_eq], fun _ => rfl,
          fun later => absurd later (Nat.lt_irrefl 0)⟩ .nil
    · intro line member
      simpa using (unindent_cut (least.below line member)).isBlankText_eq
    · intro line member i later filled
      rw [isBlankText_dropReturns] at filled
      exact (unindent_cut (least.below line member)).moved filled (least.below line member filled) later

/-- A line of the class body without the newline that ends it. -/
def placed (line : Text) : Text := if isBlankText line then [] else indentation ++ line

theorem isBlankText_placed (line : Text) : isBlankText (placed line) = isBlankText line := by
  rw [placed]
  split
  · rename_i blank
    exact blank.symm
  · rw [isBlankText_append, show isBlankText indentation = true by decide, Bool.true_and]

theorem splitNewlines_body (code : Text) :
    splitNewlines (body code) = (lines (dedent code)).map placed ++ [[]] := by
  have ended : body code = ((lines (dedent code)).map placed).flatMap (· ++ ['\n']) := by
    rw [body, List.flatMap_map]
    rfl
  rw [ended]
  refine splitNewlines_ended ?_
  intro out member
  obtain ⟨line, inside, rfl⟩ := List.mem_map.mp member
  rw [placed]
  split
  · exact List.not_mem_nil
  · rw [List.mem_append, not_or]
    exact ⟨by decide, newline_notMem_lines inside⟩

theorem filledRows_body (code : Text) :
    filledRows (body code) =
      (filledRows (dedent code)).map fun row => (indentation ++ row.1, row.2) := by
  rw [filledRows, rows, splitNewlines_body, List.map_append, List.map_map,
    show [[]].map dropReturns = [[]] from rfl, filledFrom_concat_nil, filledRows_eq, eq_comm,
    ← List.forall₂_eq_eq_eq, List.forall₂_map_left_iff]
  refine filledFrom_forall₂ ?_ ?_
  · intro line _
    rw [Function.comp_apply, isBlankText_dropReturns, isBlankText_placed, isBlankText_dropReturns]
  · intro line _ i _ filled
    rw [isBlankText_dropReturns] at filled
    rw [Function.comp_apply, placed, if_neg (by simp [filled]), dropReturns_append indentation filled]

/-- The class file keeps the code: its rows that are not blank become those of the class body, in the
same places, and the lines of the code are cut between characters only. -/
theorem render_keeps_code (scope name code : Text) :
    render scope name code = opening scope name ++ body code ++ "    \x7d\n\x7d\n".toList ∧
      ∃ indent, LeastIndent code.rows.tail indent ∧
        List.Forall₂ (Moved indent) (filledRows code) (filledRows (body code)) ∧
        ∃ kept, dedent code = joinWith ['\n'] ((lines code).take 1 ++ kept) ∧
          List.Forall₂ (Cut indent) (lines code).tail kept := by
  refine ⟨rfl, commonIndent (lines code).tail, commonIndent_rows code, ?_, dedent_cuts code⟩
  rw [filledRows_body, List.forall₂_map_right_iff]
  exact dedent_moves code

/-- The indent of two bytes ends inside the wide space of the last row, which loses it whole. -/
example : body "a;\r\n  b;\n\n\u3000c;".toList = "        a;\n        b;\n\n        c;\n".toList := by
  decide +kernel

end TemplateMarkup.CodeBehind
