import Mathlib.Data.List.DropRight
import TemplateMarkup.Text.Basic

/-!
Blanks at the ends of texts. What is left when they are taken off stands somewhere inside the text, and
every other part of the text that neither starts nor ends with a blank stands in it; so parts of a text
stay parts of it when the blanks at the ends of both are taken off. All other characters are kept.
-/
namespace TemplateMarkup.Text

theorem trimEnd_prefix (t : Text) : trimEnd t <+: t := List.rdropWhile_prefix isBlank t

theorem trim_part (t : Text) : ∃ before after, t = before ++ trim t ++ after := by
  obtain ⟨after, parts⟩ := trimEnd_prefix (trimStart t)
  refine ⟨t.takeWhile isBlank, after, ?_⟩
  rw [List.append_assoc, trim, parts, trimStart, List.takeWhile_append_dropWhile]

theorem trimStart_trim (t : Text) : trimStart (trim t) = trim t := by
  obtain ⟨after, parts⟩ := trimEnd_prefix (trimStart t)
  cases whole : trim t with
  | nil => rfl
  | cons c rest =>
    have first := List.head?_dropWhile_not isBlank t
    rw [← trimStart, ← parts, ← trim, whole] at first
    rw [trimStart, List.dropWhile_cons_of_neg (by simpa using first)]

theorem trimEnd_trim (t : Text) : trimEnd (trim t) = trim t :=
  List.rdropWhile_idempotent isBlank (trimStart t)

theorem trim_trim (t : Text) : trim (trim t) = trim t := by
  rw [trim, trimStart_trim, trimEnd_trim]

theorem trimStart_blank {c : Char} (blank : isBlank c) (t : Text) : trimStart (c :: t) = trimStart t :=
  List.dropWhile_cons_of_pos blank

theorem trimStart_solid {c : Char} (solid : isBlank c = false) (t : Text) :
    trimStart (c :: t) = c :: t :=
  List.dropWhile_cons_of_neg (by simp [solid])

theorem trimStart_trimStart (t : Text) : trimStart (trimStart t) = trimStart t :=
  List.dropWhile_idempotent _ t

theorem trimEnd_solid {c : Char} (solid : isBlank c = false) (t : Text) :
    trimEnd (c :: t) = c :: trimEnd t := by
  simp [trimEnd, List.dropWhile_append, solid]

theorem trimEnd_blank {c : Char} (blank : isBlank c) (t : Text) :
    trimEnd (c :: t) = if trimEnd t = [] then [] else c :: trimEnd t := by
  by_cases rest : t.reverse.dropWhile isBlank = [] <;> simp [trimEnd, List.dropWhile_append, blank, rest]

theorem trimEnd_append {blanks : Text} (blank : ∀ c ∈ blanks, isBlank c) (t : Text) :
    trimEnd (t ++ blanks) = trimEnd t := by
  rw [trimEnd, List.reverse_append,
    List.dropWhile_append_of_pos fun c member => blank c (List.mem_reverse.mp member), trimEnd]

theorem trim_append {blanks : Text} (blank : ∀ c ∈ blanks, isBlank c) (t : Text) :
    trim (t ++ blanks) = trim t := by
  rw [trim, trim, trimStart, trimStart, List.dropWhile_append]
  split
  · rename_i empty
    rw [List.isEmpty_iff.mp empty, List.dropWhile_eq_nil_iff.mpr blank]
  · exact trimEnd_append blank _

section Ends

variable {s : Text} {a b : Char}

theorem trim_solid (first : s.head? = some a) (last : s.getLast? = some b)
    (solid : isBlank a = false ∧ isBlank b = false) : trim s = s := by
  obtain ⟨rest, rfl⟩ := List.head?_eq_some_iff.mp first
  obtain ⟨start, ends⟩ := List.getLast?_eq_some_iff.mp last
  rw [trim, trimStart_solid solid.1, ends, trimEnd, List.reverse_concat,
    List.dropWhile_cons_of_neg (by simp [solid.2]), ← List.reverse_concat, List.reverse_reverse]

theorem trim_around {before after : Text} (first : s.head? = some a) (last : s.getLast? = some b)
    (solid : isBlank a = false ∧ isBlank b = false) (left : ∀ c ∈ before, isBlank c)
    (right : ∀ c ∈ after, isBlank c) : trim (before ++ s ++ after) = s := by
  rw [trim_append right, trim, trimStart, List.dropWhile_append_of_pos left, ← trimStart, ← trim,
    trim_solid first last solid]

end Ends

section Parts

variable {α : Type} {p : α → Bool} {part l : List α}

/-- Dropping from the front passes by a part that would lose nothing itself. -/
theorem infix_dropWhile (inside : part <:+: l) (kept : part.dropWhile p = part) :
    part <:+: l.dropWhile p := by
  obtain ⟨before, after, rfl⟩ := inside
  rw [List.append_assoc, List.dropWhile_append]
  split
  · rw [List.dropWhile_append, kept]
    split
    · rename_i empty
      rw [List.isEmpty_iff.mp empty]
      exact List.nil_infix
    · exact (List.prefix_append part after).isInfix
  · exact ⟨before.dropWhile p, after, List.append_assoc ..⟩

theorem filter_dropWhile {q : α → Bool} (none : ∀ a, p a → q a = false) (l : List α) :
    (l.dropWhile p).filter q = l.filter q := by
  have dropped : (l.takeWhile p).filter q = [] := by
    refine List.filter_eq_nil_iff.mpr ?_
    intro a member
    have passes := List.all_eq_true.mp List.all_takeWhile a member
    simp [none a passes]
  calc (l.dropWhile p).filter q
      = (l.takeWhile p).filter q ++ (l.dropWhile p).filter q := by rw [dropped, List.nil_append]
    _ = l.filter q := by rw [← List.filter_append, List.takeWhile_append_dropWhile]

end Parts

theorem infix_trimEnd {s t : Text} (inside : s <:+: t) (kept : trimEnd s = s) : s <:+: trimEnd t := by
  rw [trimEnd, List.reverse_eq_iff] at kept
  rw [trimEnd, ← List.reverse_infix, List.reverse_reverse]
  exact infix_dropWhile (List.reverse_infix.mpr inside) kept

/-- A part of a text is a part of it without the blanks at the ends of both. -/
theorem trim_infix {s t : Text} (inside : s <:+: t) : trim s <:+: trim t := by
  obtain ⟨before, after, parts⟩ := trim_part s
  have whole : trim s <:+: t := List.IsInfix.trans ⟨before, after, parts.symm⟩ inside
  exact infix_trimEnd (infix_dropWhile whole (trimStart_trim s)) (trimEnd_trim s)

def solid (t : Text) : Text := t.filter fun c => !isBlank c

theorem solid_append (s t : Text) : solid (s ++ t) = solid s ++ solid t := List.filter_append ..

theorem solid_trim (t : Text) : solid (trim t) = solid t := by
  have none : ∀ c, isBlank c = true → (!isBlank c) = false := by simp
  rw [solid, trim, trimEnd, List.filter_reverse, filter_dropWhile none, ← List.filter_reverse,
    List.reverse_reverse, trimStart, filter_dropWhile none, solid]

end TemplateMarkup.Text
