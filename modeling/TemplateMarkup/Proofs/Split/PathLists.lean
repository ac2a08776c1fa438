import TemplateMarkup.Proofs.Blanks
import TemplateMarkup.Proofs.Json.Lists
import TemplateMarkup.Proofs.Lines
import TemplateMarkup.Split.PathList

/-!
Lists of paths are read back from both of their forms. As JSON, the list may be written in any way and
stand behind any blanks. On lines, there may be blanks around a path and blank lines between paths, and
each line ends in its own way; here the first path must not look like the start of a JSON list. Main
statement: `read_inverts`.
-/
namespace TemplateMarkup.PathList

open Text

/-- A path that a line can hold: it neither starts nor ends with a blank. -/
structure Listable (p : Text) : Prop where
  filled : p ≠ []
  oneLine : '\n' ∉ p
  front : p.head?.any isBlank = false
  back : p.getLast?.any isBlank = false

instance (p : Text) : Decidable (Listable p) :=
  decidable_of_iff (p ≠ [] ∧ '\n' ∉ p ∧ p.head?.any isBlank = false ∧ p.getLast?.any isBlank = false)
    ⟨fun ⟨filled, oneLine, front, back⟩ => ⟨filled, oneLine, front, back⟩,
      fun ⟨filled, oneLine, front, back⟩ => ⟨filled, oneLine, front, back⟩⟩

/-- A line with a path or none, and with blanks around it. -/
structure Row where
  before : Text := []
  path : Option Text
  after : Text := []
  blank : (before ++ after).all isBlank := by decide
  oneLine : '\n' ∉ before ++ after := by decide
  listable : ∀ p, path = some p → Listable p

def Row.text (r : Row) : Text := r.before ++ r.path.getD [] ++ r.after

inductive Ending
  | newline
  | returnNewline

def Ending.returns : Ending → Text
  | newline => []
  | returnNewline => ['\r']

/-- Lines with their ends, and a last line that has none. -/
structure Listing where
  ended : List (Row × Ending)
  last : Row

namespace Listing

def text (l : Listing) : Text :=
  (l.ended.flatMap fun e => e.1.text ++ e.2.returns ++ ['\n']) ++ l.last.text

def rows (l : Listing) : List Row := l.ended.map Prod.fst ++ [l.last]

def paths (l : Listing) : List Text := l.rows.filterMap Row.path

end Listing

/-! ### Trimmed paths -/

theorem Listable.ends {p : Text} (listable : Listable p) :
    ∃ a b, p.head? = some a ∧ p.getLast? = some b ∧ isBlank a = false ∧ isBlank b = false := by
  refine ⟨p.head listable.filled, p.getLast listable.filled, List.head?_eq_some_head _,
    List.getLast?_eq_some_getLast _, ?_, ?_⟩
  · simpa [List.head?_eq_some_head listable.filled] using listable.front
  · simpa [List.getLast?_eq_some_getLast listable.filled] using listable.back

theorem Listable.trim_eq {p : Text} (listable : Listable p) : trim p = p := by
  obtain ⟨a, b, first, last, solid⟩ := listable.ends
  exact trim_solid first last solid

theorem tidy_listable {paths : List Text} (each : ∀ p ∈ paths, Listable p) : tidy paths = paths := by
  have trimmed : paths.map trim = paths.map id :=
    List.map_congr_left fun p member => (each p member).trim_eq
  rw [tidy, trimmed, List.map_id, List.filter_eq_self]
  intro p member
  simpa using (each p member).filled

theorem tidy_append (ps qs : List Text) : tidy (ps ++ qs) = tidy ps ++ tidy qs := by
  rw [tidy, List.map_append, List.filter_append, tidy, tidy]

theorem tidy_dropReturns (pieces : List Text) : tidy (pieces.map dropReturns) = tidy pieces := by
  have same : ∀ piece, trim (dropReturns piece) = trim piece := by
    intro piece
    obtain ⟨returns, whole, blank⟩ := dropReturns_append_returns piece
    rw [← trim_append blank (dropReturns piece), whole]
  rw [tidy, List.map_map, tidy]
  exact congrArg _ (List.map_congr_left fun piece _ => same piece)

/-- Carriage returns and an empty last line do not matter. -/
theorem tidy_lines (t : Text) : tidy (lines t) = tidy (splitNewlines t) := by
  have rowsTidy := tidy_dropReturns (splitNewlines t)
  rcases rows_eq t with same | same
  · rw [← rowsTidy, ← Text.rows, same, tidy_dropReturns]
  · rw [← rowsTidy, ← Text.rows, same, tidy_append, tidy_dropReturns]
    exact (List.append_nil _).symm

/-! ### The first path -/

theorem solid_splitNewlines (t : Text) : (splitNewlines t).flatMap solid = solid t := by
  induction t with
  | nil => rfl
  | cons c t ih =>
    obtain ⟨first, more, whole⟩ := List.exists_cons_of_ne_nil (splitNewlines_ne_nil t)
    rw [whole] at ih
    rw [splitNewlines, whole]
    dsimp only
    split
    · rename_i newline
      subst newline
      exact ih
    · rw [List.flatMap_cons, ← List.singleton_append, solid_append, List.append_assoc,
        ← List.flatMap_cons, ih, ← solid_append, List.singleton_append]

theorem solid_tidy (pieces : List Text) : (tidy pieces).flatMap solid = pieces.flatMap solid := by
  induction pieces with
  | nil => rfl
  | cons p pieces ih =>
    rw [← List.singleton_append, tidy_append, List.flatMap_append, ih, List.flatMap_append,
      List.flatMap_singleton, ← solid_trim]
    by_cases empty : trim p = [] <;> simp [tidy, empty, solid]

theorem head_trimStart (t : Text) : (trimStart t).head? = (solid t).head? := by
  rw [trimStart, solid, List.head?_filter]
  induction t with
  | nil => rfl
  | cons c t ih => by_cases blank : isBlank c <;> simp [blank, ih]

theorem head_solid_of_mem {pieces : List Text} {p : Text} (member : p ∈ tidy pieces) :
    ∃ c, p.head? = some c ∧ (solid p).head? = some c := by
  obtain ⟨listed, filled⟩ := List.mem_filter.mp member
  obtain ⟨piece, _, rfl⟩ := List.mem_map.mp listed
  obtain ⟨c, rest, whole⟩ := List.exists_cons_of_ne_nil (by simpa using filled)
  refine ⟨c, by rw [whole]; rfl, ?_⟩
  rw [← head_trimStart, trimStart_trim, whole]
  rfl

/-- The first character of a text that is not blank starts the first path on its lines. -/
theorem head_tidy_lines (t : Text) : (trimStart t).head? = (tidy (lines t)).head?.bind List.head? := by
  rw [head_trimStart, ← solid_splitNewlines, ← solid_tidy, ← tidy_lines]
  cases found : tidy (lines t) with
  | nil => rfl
  | cons p paths =>
    obtain ⟨c, first, solid⟩ := head_solid_of_mem (found ▸ List.mem_cons_self ..)
    rw [List.flatMap_cons, List.head?_append, solid]
    exact first.symm

theorem startsWith_bracket (t : Text) : startsWith t "[" = (t.head? == some '[') := by
  cases t with
  | nil => rfl
  | cons c t =>
    by_cases bracket : '[' = c
    · subst bracket
      rfl
    · simp [startsWith, stripLead?, bracket, Ne.symm bracket]

/-- A text is read by lines unless the first path on them starts with a bracket. -/
theorem read_lines {t : Text} (noBracket : (tidy (lines t)).head?.bind List.head? ≠ some '[') :
    read t = tidy (lines t) := by
  rw [← head_tidy_lines] at noBracket
  rw [read, startsWith_bracket, if_neg (by simpa using noBracket)]

/-! ### Listings -/

theorem Row.trim_text (r : Row) : trim r.text = r.path.getD [] := by
  have blank := List.all_eq_true.mp r.blank
  have left : ∀ c ∈ r.before, isBlank c := fun c member => blank c (List.mem_append_left _ member)
  have right : ∀ c ∈ r.after, isBlank c := fun c member => blank c (List.mem_append_right _ member)
  rw [Row.text]
  cases found : r.path with
  | none =>
    rw [trim_append right, Option.getD_none, List.append_nil]
    exact trim_append left []
  | some p =>
    obtain ⟨a, b, first, last, solid⟩ := (r.listable p found).ends
    exact trim_around first last solid left right

theorem Row.newline_notMem (r : Row) : '\n' ∉ r.text := by
  have around := r.oneLine
  rw [Row.text]
  cases found : r.path with
  | none => simpa using around
  | some p =>
    have inside := (r.listable p found).oneLine
    simp only [Option.getD_some, List.mem_append, not_or] at around ⊢
    exact ⟨⟨around.1, inside⟩, around.2⟩

theorem Ending.returns_spec (e : Ending) : (∀ c ∈ e.returns, isBlank c) ∧ '\n' ∉ e.returns := by
  cases e with
  | newline => exact ⟨List.forall_mem_nil _, by decide⟩
  | returnNewline => exact ⟨List.forall_mem_singleton.mpr (by decide), by decide⟩

namespace Listing

theorem splitNewlines_text (l : Listing) :
    splitNewlines l.text = (l.ended.map fun e => e.1.text ++ e.2.returns) ++ [l.last.text] := by
  obtain ⟨ended, last⟩ := l
  induction ended with
  | nil => exact splitNewlines_single last.newline_notMem
  | cons e ended ih =>
    have single : '\n' ∉ e.1.text ++ e.2.returns := by
      simp [e.1.newline_notMem, e.2.returns_spec.2]
    rw [Listing.text] at ih ⊢
    rw [List.flatMap_cons, List.append_assoc, List.append_assoc, List.singleton_append,
      splitNewlines_line single, ih]
    rfl

theorem filter_paths (rows : List Row) :
    ((rows.map fun r => r.path.getD []).filter fun p => !p.isEmpty) = rows.filterMap Row.path := by
  induction rows with
  | nil => rfl
  | cons r rows ih =>
    cases found : r.path with
    | none => simp [found, ih]
    | some p => simp [found, ih, (r.listable p found).filled]

theorem tidy_text (l : Listing) : tidy (lines l.text) = l.paths := by
  have trimmed : (splitNewlines l.text).map trim = l.rows.map fun r => r.path.getD [] := by
    rw [splitNewlines_text, rows, List.map_append, List.map_append, List.map_map, List.map_map,
      List.map_singleton, List.map_singleton, l.last.trim_text]
    refine congrArg (· ++ _) (List.map_congr_left fun e _ => ?_)
    exact (trim_append e.2.returns_spec.1 e.1.text).trans e.1.trim_text
  rw [tidy_lines, tidy, trimmed, filter_paths, paths]

end Listing

theorem ofJson?_listText {paths : List Text} {t : Text} (written : Json.ListText paths t) :
    ofJson? t = some paths := by
  have texts : (paths.map Json.string).filterMap Json.asText? = paths := by
    rw [List.filterMap_map]
    exact List.filterMap_some
  rw [ofJson?, Json.ofText_listText written]
  exact congrArg some texts

theorem read_listText {paths : List Text} (each : ∀ p ∈ paths, Listable p) {blanks t : Text}
    (blank : ∀ c ∈ blanks, isBlank c) (written : Json.ListText paths t) : read (blanks ++ t) = paths := by
  have start : trimStart (blanks ++ t) = t := by
    rw [trimStart, List.dropWhile_append_of_pos blank]
    cases written
    exact trimStart_solid rfl _
  have bracket : startsWith t "[" = true := by
    rw [startsWith_bracket]
    cases written
    rfl
  rw [read, start, if_pos bracket, ofJson?_listText written]
  exact tidy_listable each

/-- Every list of paths is read back, from JSON in any spelling and from lines in any layout. -/
theorem read_inverts {paths : List Text} (each : ∀ p ∈ paths, Listable p) :
    (∀ blanks t, (∀ c ∈ blanks, isBlank c) → Json.ListText paths t → read (blanks ++ t) = paths) ∧
      Json.ListText paths (Json.compact (.array (paths.map .string))) ∧
      (paths.head?.bind List.head? ≠ some '[' →
        ∀ l : Listing, l.paths = paths → read l.text = paths) := by
  refine ⟨?_, Json.listText_compact paths, ?_⟩
  · intro blanks t blank written
    exact read_listText each blank written
  · rintro noBracket l rfl
    rw [← l.tidy_text] at noBracket ⊢
    exact read_lines noBracket

/-- Paths with the characters that one form or the other gives a meaning. -/
def oddPaths : List Text := ["a\x22b\\c, [d].razor", "[x]\u3000y", "é😀\tz"]

/-- They stand on lines, with a blank line before them. -/
def oddListing : Listing where
  ended :=
    [({ before := "\t", path := none, listable := nofun }, .returnNewline),
      ({ path := some "a\x22b\\c, [d].razor", after := " ", listable := by rintro _ ⟨⟩; decide },
        .returnNewline),
      ({ before := "\u3000 ", path := some "[x]\u3000y", listable := by rintro _ ⟨⟩; decide }, .newline)]
  last := { path := some "é😀\tz", listable := by rintro _ ⟨⟩; decide }

theorem oddPaths_read :
    (∀ p ∈ oddPaths, Listable p) ∧
      read ("\u3000\n".toList ++ Json.compact (.array (oddPaths.map .string))) = oddPaths ∧
      read oddListing.text = oddPaths := by
  have each : ∀ p ∈ oddPaths, Listable p := by decide
  obtain ⟨json, written, onLines⟩ := read_inverts each
  exact ⟨each, json _ _ (List.all_eq_true.mp (by decide)) written, onLines (by decide) oddListing rfl⟩

end TemplateMarkup.PathList
