import TemplateMarkup.Json.Shape
import TemplateMarkup.Proofs.Json.Strings

/-!
How JSON writes lists of strings: with space around items and commas, and each item in any of the ways to
write a string. The compact text of a list is one of them, and reading gives back the strings of all.
-/
namespace TemplateMarkup.Json

def Space (t : Text) : Prop := ∀ c ∈ t, Source.isSpace c

/-- What stands before an item of a list: space, and a comma unless the item is the first. -/
inductive LeadText : (first : Bool) → Text → Prop where
  | first {space : Text} (blank : Space space) : LeadText true space
  | later {before after : Text} (left : Space before) (right : Space after) :
      LeadText false (before ++ ',' :: after)

/-- The items of a list up to its closing bracket; `first` before the first one. -/
inductive ItemsText : (first : Bool) → List Text → Text → Prop where
  | nil {first : Bool} {space : Text} (blank : Space space) : ItemsText first [] space
  | cons {first : Bool} {t lead w tail : Text} {ts : List Text} (front : LeadText first lead)
      (item : StringText t w) (later : ItemsText false ts tail) :
      ItemsText first (t :: ts) (lead ++ w ++ tail)

inductive ListText (ts : List Text) : Text → Prop where
  | intro {items after : Text} (inner : ItemsText true ts items) (right : Space after) :
      ListText ts ('[' :: items ++ ']' :: after)

theorem space_nil : Space [] := fun _ member => nomatch member

theorem itemsText_length {first : Bool} {ts : List Text} {w : Text} (written : ItemsText first ts w) :
    ts.length ≤ w.length := by
  induction written with
  | nil => exact Nat.zero_le _
  | @cons first t lead w tail ts _ item _ ih =>
    have some : 0 < w.length := by
      cases item
      simp
    rw [List.length_cons, List.length_append, List.length_append]
    omega

/-! ### Writing -/

theorem itemsText_later (ts : List Text) : ItemsText false ts (ts.flatMap fun t => ',' :: quote t) := by
  induction ts with
  | nil => exact .nil space_nil
  | cons t ts ih => exact .cons (.later space_nil space_nil) (stringText_quote t) ih

theorem compactItems_strings (t : Text) (ts : List Text) :
    compactItems ((t :: ts).map .string) = quote t ++ ts.flatMap fun t => ',' :: quote t := by
  induction ts generalizing t with
  | nil => simp [compactItems, compact]
  | cons u ts ih =>
    have later := ih u
    simp only [List.map_cons] at later
    simp [compactItems, compact, later]

theorem listText_compact (ts : List Text) : ListText ts (compact (.array (ts.map .string))) := by
  rw [compact]
  cases ts with
  | nil => exact .intro (.nil space_nil) space_nil
  | cons t ts =>
    rw [compactItems_strings]
    have items := ItemsText.cons (.first space_nil) (stringText_quote t) (itemsText_later ts)
    exact .intro items space_nil

/-! ### Reading -/

namespace Source

variable {s : Source} {c : Char} {space rest : Text}

theorem skipSpaceFrom_rest (line column : Nat) (t : Text) :
    (skipSpaceFrom line column t).rest = t.dropWhile isSpace := by
  induction t generalizing line column with
  | nil => rfl
  | cons c t ih =>
    rw [skipSpaceFrom, List.dropWhile_cons]
    by_cases newline : c = '\n'
    · rw [if_pos newline, ih, newline]
      rfl
    · rw [if_neg newline]
      split
      · exact ih ..
      · rfl

theorem skipSpace_rest (blank : Space space) (solid : isSpace c = false)
    (whole : s.rest = space ++ c :: rest) : s.skipSpace.rest = c :: rest := by
  rw [skipSpace, skipSpaceFrom_rest, whole, List.dropWhile_append_of_pos blank,
    List.dropWhile_cons_of_neg (by simp [solid])]

theorem hasItem_end (first : Bool) (blank : Space space) (whole : s.rest = space ++ ']' :: rest) :
    s.hasItem first = .ok (false, s.skipSpace) := by
  rw [hasItem, skipSpace_rest blank rfl whole]
  rfl

theorem hasItem_lead {first : Bool} {lead : Text} (front : LeadText first lead)
    (whole : s.rest = lead ++ '\x22' :: rest) :
    ∃ s', s.hasItem first = .ok (true, s') ∧ s'.rest = '\x22' :: rest := by
  cases front with
  | first blank =>
    have item := skipSpace_rest blank rfl whole
    refine ⟨s.skipSpace, ?_, item⟩
    rw [hasItem, item]
    simp
  | later left right =>
    rw [List.append_assoc] at whole
    have comma := skipSpace_rest left rfl whole
    have item := skipSpace_rest right rfl (tail_of_cons comma)
    refine ⟨s.skipSpace.tail.skipSpace, ?_, item⟩
    rw [hasItem, comma]
    simp [item]

theorem shaped_text {t w : Text} (written : StringText t w) (whole : s.rest = w ++ rest)
    (fuel depth : Nat) :
    ∃ s', shaped (fuel + 1) depth .text s = .ok (.string t, s') ∧ s'.rest = rest := by
  have same : s.skipSpace.rest = w ++ rest := by
    cases written
    exact skipSpace_rest space_nil rfl whole
  obtain ⟨quoted, s', read, left⟩ := string_read written same
  obtain ⟨more, opened⟩ := List.head?_eq_some_iff.mp quoted
  refine ⟨s', ?_, left⟩
  unfold shaped
  simp [opened, read, bind, Except.bind, pure, Except.pure]

theorem shapedItems_read {first : Bool} {ts : List Text} {w : Text} (written : ItemsText first ts w)
    {fuel : Nat} (enough : ts.length < fuel) (depth : Nat) (whole : s.rest = w ++ ']' :: rest) :
    ∃ s', shapedItems fuel depth .text first s = .ok (.array (ts.map .string), s') ∧
      s'.rest = ']' :: rest := by
  induction written generalizing s fuel with
  | @nil first space blank =>
    obtain ⟨n, rfl⟩ := Nat.exists_eq_succ_of_ne_zero (Nat.ne_of_gt enough)
    refine ⟨s.skipSpace, ?_, skipSpace_rest blank rfl whole⟩
    rw [shapedItems, hasItem_end first blank whole]
    rfl
  | @cons first t lead w tail ts front item _ ih =>
    obtain ⟨n, rfl⟩ : ∃ n, fuel = n + 2 := ⟨fuel - 2, by rw [List.length_cons] at enough; omega⟩
    have opened : ∃ body, w = '\x22' :: body := by
      cases item
      exact ⟨_, rfl⟩
    obtain ⟨body, rfl⟩ := opened
    rw [List.append_assoc, List.append_assoc] at whole
    obtain ⟨atItem, more, itemRest⟩ := hasItem_lead front whole
    obtain ⟨afterItem, read, tailRest⟩ := shaped_text item itemRest n depth
    obtain ⟨s', others, left⟩ := ih (Nat.lt_of_succ_lt_succ enough) tailRest
    refine ⟨s', ?_, left⟩
    rw [shapedItems, more]
    simp [read, others, bind, Except.bind, pure, Except.pure, asArray?]

theorem listEnd_read (whole : s.rest = ']' :: rest) : ∃ s', s.listEnd = .ok s' ∧ s'.rest = rest := by
  have same := skipSpace_rest space_nil rfl whole
  refine ⟨s.skipSpace.tail, ?_, tail_of_cons same⟩
  rw [listEnd, same]
  rfl

theorem shaped_list {ts : List Text} {items : Text} (written : ItemsText true ts items) {fuel depth : Nat}
    (enough : ts.length < fuel) (deep : 1 < depth) (whole : s.rest = '[' :: (items ++ ']' :: rest)) :
    ∃ s', shaped (fuel + 1) depth (.list .text) s = .ok (.array (ts.map .string), s') ∧ s'.rest = rest := by
  have same := skipSpace_rest space_nil rfl whole
  obtain ⟨atEnd, read, endRest⟩ := shapedItems_read written enough (depth - 1) (tail_of_cons same)
  obtain ⟨s', closed, left⟩ := listEnd_read endRest
  refine ⟨s', ?_, left⟩
  unfold shaped
  simp [same, Nat.not_le.mpr deep, read, closing, closed, Except.map]

theorem finish_space (blank : Space s.rest) : s.finish = .ok () := by
  have empty : s.skipSpace.rest = [] := by
    rw [skipSpace, skipSpaceFrom_rest, ← List.append_nil s.rest, List.dropWhile_append_of_pos blank]
    rfl
  simp [finish, empty]

end Source

/-- A list of strings is read back however it is written. -/
theorem ofText_listText {ts : List Text} {w : Text} (written : ListText ts w) :
    (Shape.list .text).ofText w = .ok (.array (ts.map .string)) := by
  cases written with
  | @intro items after inner right =>
    generalize start : ({ rest := '[' :: items ++ ']' :: after } : Source) = s
    have whole : s.rest = '[' :: (items ++ ']' :: after) := by
      rw [← start]
      rfl
    have enough : ts.length < s.fuel + 63 := by
      have size := itemsText_length inner
      rw [Source.fuel, whole, List.length_cons, List.length_append]
      omega
    obtain ⟨s', read, left⟩ := Source.shaped_list inner enough (by decide : 1 < Source.maxDepth) whole
    have finished : s'.finish = .ok () := Source.finish_space (left ▸ right)
    rw [Shape.ofText, start]
    simp [read, finished, bind, Except.bind]

end TemplateMarkup.Json
