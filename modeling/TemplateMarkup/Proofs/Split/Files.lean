import TemplateMarkup.Proofs.FileTree.Writes
import TemplateMarkup.Proofs.Region.Settled
import TemplateMarkup.Split.File

/-!
Splitting a template. It succeeds exactly where the template is a text and no file stands where its
code or its style goes to; it writes these files, and the markup last. Of several styles only the first
one is written. What is left is a template that splits into itself.
-/
namespace TemplateMarkup

namespace Split

open FileTree FileAction

variable {t u : FileTree} {path template message : Text} {place : Place}

def codeFile (t : FileTree) (path template : Text) : List (Text × Text) :=
  if (partsOf template).code.isEmpty then []
  else
    [(Path.codeBehind path,
      CodeBehind.render (Namespace.resolve t template path) (Namespace.sanitize (Path.stem path))
        (partsOf template).code)]

def styleFile (path template : Text) : List (Text × Text) :=
  match (partsOf template).style with
  | some style => [(Path.companionStylesheet path, style)]
  | none => []

/-- The files that stand beside a template once it is split. -/
def newFiles (t : FileTree) (path template : Text) : List (Text × Text) :=
  codeFile t path template ++ styleFile path template

def success (path : Text) : Text := "Successfully split ".toList ++ nameOf path

def plan (path : Text) (t : FileTree) : Outcome (List (Text × Text) × Text) :=
  if !t.isFile path then .failed (.fileNotFound path)
  else
    (t.readText path).bind fun template =>
      match conflict? t path (partsOf template) with
      | some taken => .failed (.alreadyExists taken)
      | none => .done (newFiles t path template ++ [(path, Region.markupOf template)], success path)

theorem partsOf_markup (template : Text) : (partsOf template).markup = Region.markupOf template := by
  simp only [partsOf]

theorem file_eq (path : Text) (t : FileTree) : file path t = carryOut (plan path t) t := by
  unfold file plan
  rw [look_bind]
  cases t.isFile path with
  | false => rfl
  | true =>
    refine observe_carryOut fun template => ?_
    rw [look_bind]
    cases conflict? t path (partsOf template) with
    | some taken => rfl
    | none =>
      dsimp only [newFiles, codeFile, styleFile, success]
      cases (partsOf template).code.isEmpty <;> cases (partsOf template).style <;>
        simp only [carryOut, writeAll, look_bind, bind_assoc, pure_bind, partsOf_markup, List.nil_append,
          List.cons_append, Bool.not_true, Bool.not_false, Bool.false_eq_true, if_true, if_false]

def suffixes : List Text := [".cs", ".css"]

def newSuffixes (template : Text) : List Text :=
  (if (partsOf template).code.isEmpty then [] else [".cs".toList]) ++
    if (partsOf template).style.isSome then [".css".toList] else []

def newPaths (path template : Text) : List Text := (newSuffixes template).map (path ++ ·)

theorem newSuffixes_subset {suffix : Text} (member : suffix ∈ newSuffixes template) :
    suffix ∈ suffixes := by
  unfold newSuffixes at member
  rcases List.mem_append.mp member with code | style
  · split at code
    · cases code
    · rw [List.mem_singleton.mp code]
      decide
  · split at style
    · rw [List.mem_singleton.mp style]
      decide
    · cases style

theorem newPaths_eq (path template : Text) : newPaths path template =
    (if (partsOf template).code.isEmpty then [] else [Path.codeBehind path]) ++
      if (partsOf template).style.isSome then [Path.companionStylesheet path] else [] := by
  unfold newPaths newSuffixes
  cases (partsOf template).code.isEmpty <;> cases (partsOf template).style <;> rfl

theorem map_newFiles (t : FileTree) (path template : Text) :
    (newFiles t path template).map (·.1) = newPaths path template := by
  rw [newPaths_eq, newFiles, codeFile, styleFile]
  cases (partsOf template).code.isEmpty <;> cases (partsOf template).style <;> rfl

theorem newFiles_path (t : FileTree) {w : Text × Text} (member : w ∈ newFiles t path template) :
    w.1 ∈ newPaths path template := by
  rw [← map_newFiles t]
  exact List.mem_map_of_mem member

theorem conflict?_eq_none_iff :
    conflict? t path (partsOf template) = none ↔ ∀ p ∈ newPaths path template, t.has p = false := by
  rw [newPaths_eq, conflict?]
  by_cases code : t.has (Path.codeBehind path) = true <;>
    by_cases style : t.has (Path.companionStylesheet path) = true <;>
    cases (partsOf template).code.isEmpty <;> cases (partsOf template).style <;> simp [code, style]

/-- A template that can be split: a text, with room for its code and its style. -/
structure Ready (t : FileTree) (path : Text) (place : Place) (template : Text) : Prop where
  target : t.target? path = some place
  content : t.content? place = some (.text template)
  new : ∀ p ∈ newPaths path template, t.has p = false ∧ (t.target? p).isSome

theorem plan_done_iff {ws : List (Text × Text)} : plan path t = .done (ws, message) ↔
    ∃ template, t.readText path = .done template ∧
      (∀ p ∈ newPaths path template, t.has p = false) ∧
      ws = newFiles t path template ++ [(path, Region.markupOf template)] ∧
      message = success path := by
  unfold plan
  cases reads : t.readText path with
  | failed e => cases t.isFile path <;> simp [Outcome.bind]
  | brokenOff => cases t.isFile path <;> simp [Outcome.bind]
  | done template =>
    obtain ⟨place, target, content⟩ := readText_iff.mp reads
    have file : t.isFile path = true := isFile_iff.mpr ⟨place, _, target, content⟩
    simp only [file, Outcome.bind, Outcome.done.injEq, exists_eq_left', ← conflict?_eq_none_iff]
    cases conflict? t path (partsOf template) with
    | some taken => simp
    | none => simp [eq_comm]

/-- A template is split exactly if it is ready. -/
theorem file_done_iff : file path t = (.done message, u) ↔
    ∃ place template, Ready t path place template ∧ message = success path ∧
      Written t (newFiles t path template ++ [(path, Region.markupOf template)]) u := by
  rw [file_eq, carryOut_done_iff]
  constructor
  · rintro ⟨ws, planned, written⟩
    obtain ⟨template, reads, absent, rfl, said⟩ := plan_done_iff.mp planned
    obtain ⟨place, target, content⟩ := readText_iff.mp reads
    refine ⟨place, template, ⟨target, content, fun p member => ⟨absent p member, ?_⟩⟩, said, written⟩
    rw [← map_newFiles t] at member
    obtain ⟨w, listed, rfl⟩ := List.mem_map.mp member
    exact written.leads w (List.mem_append_left _ listed)
  · rintro ⟨place, template, ready, said, written⟩
    refine ⟨_, plan_done_iff.mpr ⟨template, ?_, fun p member => (ready.new p member).1, rfl, said⟩,
      written⟩
    exact readText_iff.mpr ⟨place, ready.target, ready.content⟩

theorem Ready.file_done (ready : Ready t path place template) :
    ∃ u, file path t = (.done (success path), u) := by
  obtain ⟨u, written⟩ := exists_written (t := t)
    (newFiles t path template ++ [(path, Region.markupOf template)]) (by
      intro w member
      rcases List.mem_append.mp member with new | last
      · exact (ready.new w.1 (newFiles_path t new)).2
      · rw [List.mem_singleton.mp last, ready.target]
        rfl)
  exact ⟨u, file_done_iff.mpr ⟨place, template, ready, rfl, written⟩⟩

theorem plan_never_brokenOff : plan path t ≠ .brokenOff := by
  unfold plan FileTree.readText
  split
  · simp
  · cases t.read path with
    | error fault => simp [Outcome.bind]
    | ok template =>
      dsimp only [Outcome.bind]
      split <;> simp

/-- A template that cannot be split is left as it is. -/
theorem file_undone (short : t.find (Path.companionStylesheet path) ≠ .error .nameTooLong)
    {result : Outcome Text} (run : file path t = (result, u))
    (undone : ∀ message, result ≠ .done message) : u = t := by
  rw [file_eq] at run
  refine carryOut_undone (fun ws message planned w member => ?_) run undone
  obtain ⟨template, reads, absent, rfl, -⟩ := plan_done_iff.mp planned
  obtain ⟨place, target, -⟩ := readText_iff.mp reads
  -- only the code may have nowhere to go, and it comes first
  have later : w ∈ styleFile path template ++ [(path, Region.markupOf template)] := by
    rw [newFiles, List.append_assoc, codeFile] at member
    split at member
    · exact List.mem_of_mem_tail member
    · exact member
  rcases List.mem_append.mp later with style | markup
  · have listed := newFiles_path t (List.mem_append_right (codeFile t path template) style)
    have sheet : w.1 = Path.companionStylesheet path := by
      unfold styleFile at style
      split at style
      · rw [List.mem_singleton.mp style]
      · cases style
    rw [sheet] at listed ⊢
    exact target_beside_isSome target (by decide) (by decide) (absent _ listed) short
  · rw [List.mem_singleton.mp markup, target]
    rfl

/-- Splitting touches the template, and files beside it that were not there. -/
theorem file_changes (split : file path t = (.done message, u)) :
    t.ChangesOnly u
      (path :: [Path.codeBehind path, Path.companionStylesheet path].filter fun p => !t.has p) := by
  obtain ⟨place, template, ready, -, written⟩ := file_done_iff.mp split
  refine written.changesOnly.mono fun p member => ?_
  rw [List.map_append, map_newFiles] at member
  rcases List.mem_append.mp member with new | markup
  · refine List.mem_cons_of_mem _ (List.mem_filter.mpr ⟨?_, by simp [(ready.new p new).1]⟩)
    obtain ⟨suffix, listed, rfl⟩ := List.mem_map.mp new
    exact List.mem_map_of_mem (f := (path ++ ·)) (newSuffixes_subset listed)
  · rw [List.mem_singleton.mp markup]
    exact List.mem_cons_self ..

theorem newPaths_settled (path : Text) (settled : Region.Settled template) :
    newPaths path template = [] := by
  unfold newPaths newSuffixes partsOf Region.firstStyle?
  rw [settled.codeIn, settled.stylesIn]
  rfl

/-- A settled text is ready wherever it is: nothing goes to other files. -/
theorem ready_of_settled (target : t.target? path = some place)
    (content : t.content? place = some (.text template)) (settled : Region.Settled template) :
    Ready t path place template := by
  refine ⟨target, content, fun p member => ?_⟩
  rw [newPaths_settled path settled] at member
  cases member

theorem content?_of_written (target : t.target? path = some place)
    (written : Written t (newFiles t path template ++ [(path, Region.markupOf template)]) u) :
    u.content? place = some (.text (Region.markupOf template)) := by
  obtain ⟨v, here, -, same, rfl⟩ := written.last
  obtain rfl : place = here := Option.some.inj (target.symm.trans same)
  rw [content?_put, if_pos rfl]

/-- A template that was split can be split again, and then nothing changes any more. -/
theorem split_again (split : file path t = (.done message, u)) :
    file path u = (.done message, u) := by
  obtain ⟨place, template, ready, rfl, written⟩ := file_done_iff.mp split
  have settled := Region.markupOf_settled template
  have target : u.target? path = some place := (written.extends.target path).trans ready.target
  have ready := ready_of_settled target (content?_of_written ready.target written) settled
  refine file_done_iff.mpr ⟨place, _, ready, rfl, ?_⟩
  have none : newFiles u path (Region.markupOf template) = [] := by
    rw [← List.map_eq_nil_iff, map_newFiles, newPaths_settled path settled]
  rw [none, List.nil_append, Region.markupOf_markupOf]
  -- the markup is what was put there last
  obtain ⟨v, here, -, same, rfl⟩ := written.last
  refine Written.cons ((written.extends.target path).trans same) ?_
  rw [put_put]
  exact Written.nil

def cardText : Text := "@namespace App\n<p>@n</p>@code \x7b int n; \x7d<style>p \x7b\x7d</style>"

def card : FileTree where
  files := [(["Card.razor"], .text cardText)]

theorem card_ready : Ready card "Card.razor" ["Card.razor"] cardText := by
  refine ⟨by decide +kernel, by decide +kernel, fun p member => ?_⟩
  obtain ⟨suffix, listed, rfl⟩ := List.mem_map.mp member
  have own := newSuffixes_subset listed
  clear listed member
  revert suffix
  decide +kernel

theorem card_newPaths : newPaths "Card.razor" cardText = ["Card.razor.cs", "Card.razor.css"] := by
  have code : (partsOf cardText).code = "int n;".toList := by
    have one : (Region.directives.flatMap fun d => Region.withMarker d cardText) =
        [⟨.code, "int n;", ⟨24, 40⟩⟩] := by decide +kernel
    rw [partsOf, Region.codeIn, one, List.mergeSort_singleton]
    decide
  have style : (partsOf cardText).style = some "p \x7b\x7d".toList := by decide +kernel
  rw [newPaths, newSuffixes, code, style]
  rfl

theorem card_split_again : newPaths "Card.razor" cardText = ["Card.razor.cs", "Card.razor.css"] ∧
    ∃ u, file "Card.razor" card = (.done "Successfully split Card.razor", u) ∧
      file "Card.razor" u = (.done "Successfully split Card.razor", u) := by
  obtain ⟨u, split⟩ := card_ready.file_done
  exact ⟨card_newPaths, u, split, split_again split⟩

theorem styleFile_first (path : Text) {first : Region} (head : first ∈ (Region.stylesIn template).head?)
    (given : Text.isBlankText first.content = false) :
    styleFile path template = [(Path.companionStylesheet path, first.content)] := by
  have style : (partsOf template).style = some first.content := by
    simp only [partsOf, Region.firstStyle?, Option.mem_def.mp head, Option.map_some, Option.filter_some,
      given, Bool.not_false, if_true]
  rw [styleFile, style]

theorem styleFile_blank (path : Text)
    (blank : ∀ first ∈ (Region.stylesIn template).head?, Text.isBlankText first.content = true) :
    styleFile path template = [] := by
  have style : (partsOf template).style = none := by
    simp only [partsOf, Region.firstStyle?]
    cases head : (Region.stylesIn template).head? with
    | none => rfl
    | some first => simp [blank first head]
  rw [styleFile, style]

theorem codeFile_path {w : Text × Text} (member : w ∈ codeFile t path template) :
    w.1 = Path.codeBehind path := by
  unfold codeFile at member
  split at member
  · cases member
  · rw [List.mem_singleton.mp member]

/-- Of the styles of a template, which are all taken out, the first one is kept; a blank one is not
written. -/
theorem first_style_is_kept (split : file path t = (.done message, u)) :
    ∃ template, t.readText path = .done template ∧
      u.readText path = .done (Region.markupOf template) ∧
      Region.stylesIn (Region.markupOf template) = [] ∧
      (∀ first ∈ (Region.stylesIn template).head?, Text.isBlankText first.content = false →
        t.has (Path.companionStylesheet path) = false ∧
          u.readText (Path.companionStylesheet path) = .done first.content) ∧
      ((∀ first ∈ (Region.stylesIn template).head?, Text.isBlankText first.content = true) →
        t.Keeps u (Path.companionStylesheet path)) ∧
      ((Region.stylesIn template).length ≤ 1 →
        ∀ style ∈ Region.stylesIn template, Text.isBlankText style.content = false →
          ∃ sheet, u.readText (Path.companionStylesheet path) = .done sheet ∧
            style.content <:+: sheet) := by
  obtain ⟨place, template, ready, rfl, written⟩ := file_done_iff.mp split
  have kept : ∀ first ∈ (Region.stylesIn template).head?, Text.isBlankText first.content = false →
      t.has (Path.companionStylesheet path) = false ∧
        u.readText (Path.companionStylesheet path) = .done first.content := by
    intro first head given
    have sheet := styleFile_first path head given
    have listed : Path.companionStylesheet path ∈ newPaths path template :=
      newFiles_path t (List.mem_append_right _ (sheet ▸ List.mem_singleton_self _))
    refine ⟨(ready.new _ listed).1, ?_⟩
    rw [newFiles, sheet, List.append_assoc] at written
    refine written.stays fun w member same => ?_
    rw [List.mem_singleton.mp member, ready.target] at same
    exact target_beside_ne ready.target (by decide) (by decide) same.symm
  refine ⟨template, readText_iff.mpr ⟨place, ready.target, ready.content⟩, ?_,
    (Region.markupOf_settled template).stylesIn, kept, fun blank => ?_, fun single style member given => ?_⟩
  · exact written.stays fun w member => nomatch member
  · refine written.keeps fun w member other here sheet => ?_
    rw [newFiles, styleFile_blank path blank, List.append_nil] at member
    rcases List.mem_append.mp member with code | markup
    · rw [codeFile_path code] at here
      exact absurd (target_beside_inj ready.target (by decide) (by decide) here sheet) (by decide)
    · rw [List.mem_singleton.mp markup, ready.target] at here
      exact target_beside_ne ready.target (by decide) (by decide) (sheet.trans here.symm)
  · have head : style ∈ (Region.stylesIn template).head? := by
      obtain ⟨only, found⟩ := List.length_eq_one_iff.mp
        (Nat.le_antisymm single (List.length_pos_of_mem member))
      rw [found] at member ⊢
      rw [List.mem_singleton.mp member]
      rfl
    exact ⟨_, (kept style head given).2, List.infix_rfl⟩

theorem card_style_is_kept :
    ∃ u, file "Card.razor" card = (.done "Successfully split Card.razor", u) ∧
      u.readText "Card.razor.css" = .done "p \x7b\x7d" := by
  obtain ⟨u, split⟩ := card_ready.file_done
  obtain ⟨template, reads, -, -, kept, -⟩ := first_style_is_kept split
  obtain rfl : cardText = template := by
    have same := readText_iff.mpr ⟨_, card_ready.target, card_ready.content⟩
    exact Outcome.done.inj (same.symm.trans reads)
  have head : ⟨.style, "p \x7b\x7d", ⟨40, 59⟩⟩ ∈ (Region.stylesIn cardText).head? := by decide +kernel
  exact ⟨u, split, (kept _ head (by decide)).2⟩

def twoStyles : Text := "<p>x</p><style>a \x7b\x7d</style><style>b \x7b\x7d</style>"

/-- Of two styles the second one is taken out of the template and written nowhere. -/
theorem second_style_is_lost :
    (Region.stylesIn twoStyles).map (·.content) = ["a \x7b\x7d", "b \x7b\x7d"] ∧
      file "A.razor" { files := [(["A.razor"], .text twoStyles)] } =
        (.done "Successfully split A.razor",
          { files := [(["A.razor"], .text "<p>x</p>"), (["A.razor.css"], .text "a \x7b\x7d")] }) := by
  decide +kernel

end Split

end TemplateMarkup
