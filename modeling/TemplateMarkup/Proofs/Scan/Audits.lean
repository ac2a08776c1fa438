import Mathlib.Algebra.Ring.Nat
import TemplateMarkup.Proofs.FileTree.Search
import TemplateMarkup.Scan.Audit

/-!
Audits and scans of a directory. Both go through the same templates: an audit reports what it finds in those
with a stylesheet and those it cannot read, a scan gathers the orphans of all that can be read. What an
audit has to say about a template is told from the template's orphans and whether it has a stylesheet, so
the orphans in all entries of an audit are those that a scan finds in templates with a stylesheet.
-/
namespace TemplateMarkup

namespace Outcome

instance : LawfulMonad Outcome := .mk' _
  (fun x => by cases x <;> rfl) (fun _ _ => rfl) (fun x _ _ => by cases x <;> rfl)

@[simp] theorem bind_done {α β : Type} (a : α) (f : α → Outcome β) : (done a).bind f = f a := rfl

@[simp] theorem bind_failed {α β : Type} (e : Error) (f : α → Outcome β) :
    (failed e).bind f = failed e := rfl

theorem mapM_done {α β : Type} {f : α → Outcome β} {g : α → β} {xs : List α}
    (done : ∀ x ∈ xs, f x = .done (g x)) : xs.mapM f = .done (xs.map g) := by
  induction xs with
  | nil => rfl
  | cons x xs ih =>
    obtain ⟨first, later⟩ := List.forall_mem_cons.mp done
    rw [List.mapM_cons, first, ih later]
    rfl

end Outcome

theorem FileTree.readText_cases (t : FileTree) (path : Text) :
    (∃ text, t.read path = .ok text ∧ t.readText path = .done text) ∨
      ∃ fault, t.read path = .error fault ∧ t.readText path = .failed (fault.toError path) := by
  unfold readText
  cases t.read path with
  | ok text => exact Or.inl ⟨text, rfl, rfl⟩
  | error fault => exact Or.inr ⟨fault, rfl, rfl⟩

namespace Scan

variable {t : FileTree} {options : OrphanOptions} {template name : Text} {names : List Text}

/-- The template cannot be read, or it has a stylesheet that cannot. -/
def fails (t : FileTree) (template : Text) : Bool :=
  let css := Path.companionStylesheet template
  !(t.read template).isOk || (t.has css && !(t.read css).isOk)

theorem stylesheet?_eq (t : FileTree) (template : Text) : stylesheet? t template =
    if t.has (Path.companionStylesheet template) then
      (t.readText (Path.companionStylesheet template)).bind fun css => .done (some css)
    else .done none := rfl

theorem orphans_eq (t : FileTree) (options : OrphanOptions) (template : Text) :
    orphans t options template = (t.readText template).bind fun text =>
      (stylesheet? t template).bind fun css => .ofOption (findOrphans? text css options) := rfl

/-- What a scan comes to: an error exactly for a template that fails. -/
theorem orphans_cases (t : FileTree) (options : OrphanOptions) (template : Text) :
    (fails t template = true ∧ ∃ e, orphans t options template = .failed e) ∨
      (fails t template = false ∧ ∃ text stylesheet, t.readText template = .done text ∧
        (t.has (Path.companionStylesheet template) = false → stylesheet = none) ∧
        orphans t options template = .ofOption (findOrphans? text stylesheet options)) := by
  rw [orphans_eq, stylesheet?_eq, fails]
  rcases t.readText_cases template with ⟨text, read, readable⟩ | ⟨fault, read, unreadable⟩
  · rw [read, readable, Outcome.bind_done]
    cases has : t.has (Path.companionStylesheet template) with
    | false =>
      right
      refine ⟨rfl, text, none, rfl, fun _ => rfl, ?_⟩
      rw [if_neg Bool.false_ne_true, Outcome.bind_done]
    | true =>
      rw [if_pos rfl]
      rcases t.readText_cases (Path.companionStylesheet template) with
        ⟨css, readCss, readableCss⟩ | ⟨fault, readCss, unreadableCss⟩
      · right
        rw [readCss, readableCss, Outcome.bind_done, Outcome.bind_done]
        exact ⟨rfl, text, some css, rfl, (fun absent => nomatch absent), rfl⟩
      · left
        rw [readCss, unreadableCss, Outcome.bind_failed, Outcome.bind_failed]
        exact ⟨rfl, _, rfl⟩
  · left
    rw [read, unreadable, Outcome.bind_failed]
    exact ⟨rfl, _, rfl⟩

/-- The names found, if the search is done. -/
def namesOf : Outcome (List Text) → List Text
  | .done names => names
  | _ => []

theorem mem_namesOf {outcome : Outcome (List Text)} :
    name ∈ namesOf outcome ↔ ∃ names, outcome = .done names ∧ name ∈ names := by
  cases outcome <;> simp [namesOf]

theorem gather_eq {search : Text → Outcome (List Text)} {files : List Text}
    (unbroken : ∀ f ∈ files, search f ≠ .brokenOff) :
    gather search files = .done (Text.sortDistinct (files.flatMap fun f => namesOf (search f))) := by
  unfold gather
  rw [Outcome.mapM_done (g := fun f => namesOf (search f))]
  · rfl
  · intro f member
    cases found : search f with
    | brokenOff => exact absurd found (unbroken f member)
    | failed e => rfl
    | done names => rfl

/-- Without a stylesheet the orphans of a template are the classes it uses that are not excluded. -/
theorem mem_orphans_plain (plain : t.has (Path.companionStylesheet template) = false) :
    (∃ names, orphans t options template = .done names ∧ name ∈ names) ↔
      ∃ text used, t.readText template = .done text ∧ usedClasses? text = some used ∧
        name ∈ used ∧ options.excludes name = false := by
  rw [orphans_eq, stylesheet?_eq, plain, if_neg Bool.false_ne_true]
  cases t.readText template with
  | failed e => simp
  | brokenOff => simp [Outcome.bind]
  | done text =>
    rw [Outcome.bind_done, Outcome.bind_done, findOrphans?]
    cases uses : usedClasses? text with
    | none => simp [Outcome.ofOption, uses]
    | some used => simp [Outcome.ofOption, uses]

end Scan

namespace AuditReport

structure Tallied (r : AuditReport) : Prop where
  failures : r.failures = r.entries.countP fun e => e.finding.isFailure
  filesWithOrphans : r.filesWithOrphans = r.entries.countP fun e => !e.finding.isFailure
  totalOrphans : r.totalOrphans = (r.entries.map fun e => e.finding.names.length).sum

theorem add_entries (r : AuditReport) (file : Text) (found : Option AuditFinding) :
    (r.add file found).entries = r.entries ++ (found.map (AuditEntry.mk file)).toList := by
  match found with
  | none => exact (List.append_nil _).symm
  | some (.orphans _) => rfl
  | some (.failed _) => rfl

/-- Each branch of the audit keeps the counts in step with the entries. -/
theorem Tallied.add {r : AuditReport} (tallied : r.Tallied) (file : Text) (found : Option AuditFinding) :
    (r.add file found).Tallied := by
  cases found with
  | none => exact tallied
  | some finding =>
    cases finding with
    | orphans names =>
      constructor
      case failures => simp [AuditReport.add, tallied.failures, AuditFinding.isFailure]
      case filesWithOrphans => simp [AuditReport.add, tallied.filesWithOrphans, AuditFinding.isFailure]
      case totalOrphans => simp [AuditReport.add, tallied.totalOrphans, AuditFinding.names]
    | failed message =>
      constructor
      case failures => simp [AuditReport.add, tallied.failures, AuditFinding.isFailure]
      case filesWithOrphans => simp [AuditReport.add, tallied.filesWithOrphans, AuditFinding.isFailure]
      case totalOrphans => simp [AuditReport.add, tallied.totalOrphans, AuditFinding.names]

end AuditReport

namespace Audit

open TemplateMarkup.Path

variable {t : FileTree} {options : OrphanOptions} {dir template name : Text} {files names : List Text}

/-- What an audit has to say about a template, told from what a scan of it comes to. -/
def findingOf (t : FileTree) (options : OrphanOptions) (template : Text) : Option AuditFinding :=
  match Scan.orphans t options template with
  | .done names =>
    if t.has (companionStylesheet template) && !names.isEmpty then some (.orphans names) else none
  | .failed e => some (.failed e.message)
  | .brokenOff => none

theorem findingOf_plain (readable : Scan.fails t template = false)
    (plain : t.has (companionStylesheet template) = false) : findingOf t options template = none := by
  unfold findingOf
  rcases Scan.orphans_cases t options template with ⟨fails, -⟩ | ⟨-, text, css, -, -, found⟩
  · rw [readable] at fails
    cases fails
  · rw [found, plain]
    cases findOrphans? text css options <;> rfl

theorem finding?_eq (unbroken : Scan.orphans t options template ≠ .brokenOff) :
    finding? t options template = .done (findingOf t options template) := by
  unfold finding?
  rcases t.readText_cases template with ⟨text, read, readable⟩ | ⟨fault, read, unreadable⟩
  · rw [readable]
    simp only [bind, Outcome.bind_done]
    cases has : t.has (companionStylesheet template) with
    | true =>
      rw [if_pos rfl, findingOf, has]
      cases found : Scan.orphans t options template with
      | brokenOff => exact absurd found unbroken
      | failed e => rfl
      | done names => cases names <;> rfl
    | false =>
      have readable : Scan.fails t template = false := by
        rw [Scan.fails, read, has]
        rfl
      rw [if_neg Bool.false_ne_true, findingOf_plain readable has]
      rfl
  · have failed : Scan.orphans t options template = .failed (fault.toError template) := by
      rw [Scan.orphans_eq, unreadable, Outcome.bind_failed]
    rw [unreadable, findingOf, failed]
    rfl

theorem findingOf_orphans_iff : findingOf t options template = some (.orphans names) ↔
    Scan.orphans t options template = .done names ∧
      t.has (companionStylesheet template) = true ∧ names ≠ [] := by
  unfold findingOf
  cases Scan.orphans t options template with
  | brokenOff => simp
  | failed e => simp
  | done found =>
    simp only [Outcome.done.injEq]
    constructor
    · intro reported
      split at reported
      · rename_i styled
        rw [Bool.and_eq_true] at styled
        cases reported
        exact ⟨rfl, styled.1, by simpa using styled.2⟩
      · cases reported
    · rintro ⟨rfl, styled, given⟩
      simp [styled, given]

theorem findingOf_failed_iff {message : Text} :
    findingOf t options template = some (.failed message) ↔
      ∃ e, Scan.orphans t options template = .failed e ∧ e.message = message := by
  unfold findingOf
  cases Scan.orphans t options template with
  | brokenOff => simp
  | failed e => simp
  | done found =>
    dsimp only
    split <;> simp

/-- The entry of a template, if there is something to report. -/
def entryOf (t : FileTree) (options : OrphanOptions) (dir template : Text) : Option AuditEntry :=
  (findingOf t options template).map fun found => ⟨relativeTo dir template, found⟩

def StyledOrphan (t : FileTree) (options : OrphanOptions) (files : List Text) (name : Text) : Prop :=
  ∃ f ∈ files, t.has (companionStylesheet f) = true ∧
    ∃ names, Scan.orphans t options f = .done names ∧ name ∈ names

theorem mem_entries {e : AuditEntry} : e ∈ files.filterMap (entryOf t options dir) ↔
    ∃ f ∈ files, e.file = relativeTo dir f ∧ findingOf t options f = some e.finding := by
  rw [List.mem_filterMap]
  refine exists_congr fun f => and_congr_right fun _ => ?_
  rw [entryOf, Option.map_eq_some_iff]
  constructor
  · rintro ⟨found, told, rfl⟩
    exact ⟨rfl, told⟩
  · rintro ⟨file, told⟩
    exact ⟨e.finding, told, by rw [← file]⟩

theorem entries_orphans : (∃ e ∈ files.filterMap (entryOf t options dir), name ∈ e.finding.names) ↔
    StyledOrphan t options files name := by
  constructor
  · rintro ⟨⟨file, finding⟩, listed, member⟩
    obtain ⟨f, known, -, told⟩ := mem_entries.mp listed
    cases finding with
    | failed message => cases member
    | orphans names =>
      obtain ⟨scanned, styled, -⟩ := findingOf_orphans_iff.mp told
      exact ⟨f, known, styled, names, scanned, member⟩
  · rintro ⟨f, known, styled, names, scanned, member⟩
    have told := findingOf_orphans_iff.mpr ⟨scanned, styled, List.ne_nil_of_mem member⟩
    exact ⟨⟨relativeTo dir f, .orphans names⟩, mem_entries.mpr ⟨f, known, rfl, told⟩, member⟩

theorem isFailure_iff (t : FileTree) (options : OrphanOptions) (dir template : Text) :
    ((entryOf t options dir template).map fun e => e.finding.isFailure).getD false =
      Scan.fails t template := by
  rw [entryOf, Option.map_map]
  rcases Scan.orphans_cases t options template with ⟨fails, e, failed⟩ | ⟨reads, text, css, -, -, found⟩
  · rw [fails, findingOf_failed_iff.mpr ⟨e, failed, rfl⟩]
    rfl
  · rw [reads, findingOf, found]
    cases findOrphans? text css options with
    | none => rfl
    | some names =>
      dsimp only [Outcome.ofOption]
      split <;> rfl

theorem entries_nodup (distinct : (files.map (relativeTo dir)).Nodup) :
    ((files.filterMap (entryOf t options dir)).map (·.file)).Nodup := by
  have pairs := List.pairwise_map.mp distinct
  refine List.pairwise_map.mpr (List.pairwise_filterMap.mpr (pairs.imp ?_))
  intro f g other one told two told'
  obtain ⟨_, -, rfl⟩ := Option.map_eq_some_iff.mp told
  obtain ⟨_, -, rfl⟩ := Option.map_eq_some_iff.mp told'
  exact other

/-- An audit adds what it has to say about each template in turn. -/
theorem foldlM_add (unbroken : ∀ f ∈ files, Scan.orphans t options f ≠ .brokenOff) {report : AuditReport} :
    (files.foldlM (fun r f => do return AuditReport.add r (relativeTo dir f) (← finding? t options f)) report :
      Outcome AuditReport) =
        .done (files.foldl (fun r f => r.add (relativeTo dir f) (findingOf t options f)) report) := by
  induction files generalizing report with
  | nil => rfl
  | cons f files ih =>
    obtain ⟨first, later⟩ := List.forall_mem_cons.mp unbroken
    rw [List.foldlM_cons, finding?_eq first]
    exact ih later

theorem entries_add {report : AuditReport} :
    (files.foldl (fun r f => r.add (relativeTo dir f) (findingOf t options f)) report).entries =
      report.entries ++ files.filterMap (entryOf t options dir) := by
  induction files generalizing report with
  | nil => rw [List.foldl_nil, List.filterMap_nil, List.append_nil]
  | cons f files ih =>
    rw [List.foldl_cons, ih, AuditReport.add_entries, List.append_assoc, List.filterMap_cons, entryOf]
    cases findingOf t options f <;> rfl

theorem tallied_add {report : AuditReport} (tallied : report.Tallied) :
    (files.foldl (fun r f => r.add (relativeTo dir f) (findingOf t options f)) report).Tallied := by
  induction files generalizing report with
  | nil => exact tallied
  | cons f files ih => exact ih (tallied.add _ _)

section Done

variable (found : t.findFiles dir [templateExtension] true = .ok files)
  (unbroken : ∀ f ∈ files, Scan.orphans t options f ≠ .brokenOff)
include found unbroken

/-- The report of an audit lists the entries of the templates in their order, and its counts are theirs. -/
theorem run_tallied : ∃ report, run t options dir = .done report ∧
    report.entries = files.filterMap (entryOf t options dir) ∧ report.Tallied := by
  unfold run
  rw [found]
  exact ⟨_, foldlM_add unbroken, by rw [entries_add, List.nil_append], tallied_add ⟨rfl, rfl, rfl⟩⟩

theorem orphansInDir_eq : Scan.orphansInDir t options dir true =
    .done (Text.sortDistinct (files.flatMap fun f => Scan.namesOf (Scan.orphans t options f))) := by
  unfold Scan.orphansInDir
  rw [found]
  exact Scan.gather_eq unbroken

end Done

theorem mem_scanned :
    name ∈ Text.sortDistinct (files.flatMap fun f => Scan.namesOf (Scan.orphans t options f)) ↔
      StyledOrphan t options files name ∨
        ∃ f ∈ files, t.has (companionStylesheet f) = false ∧
          ∃ text used, t.readText f = .done text ∧ usedClasses? text = some used ∧
            name ∈ used ∧ options.excludes name = false := by
  rw [Text.mem_sortDistinct, List.mem_flatMap]
  constructor
  · rintro ⟨f, known, member⟩
    have scanned := Scan.mem_namesOf.mp member
    cases styled : t.has (companionStylesheet f) with
    | true => exact Or.inl ⟨f, known, styled, scanned⟩
    | false => exact Or.inr ⟨f, known, styled, (Scan.mem_orphans_plain styled).mp scanned⟩
  · rintro (⟨f, known, -, scanned⟩ | ⟨f, known, plain, used⟩)
    · exact ⟨f, known, Scan.mem_namesOf.mpr scanned⟩
    · exact ⟨f, known, Scan.mem_namesOf.mpr ((Scan.mem_orphans_plain plain).mpr used)⟩

/-- How the report of an audit and the names that a scan gathers go together. -/
structure Agrees (t : FileTree) (options : OrphanOptions) (dir : Text) (files : List Text)
    (report : AuditReport) (names : List Text) : Prop where
  /-- The orphans in the entries are those of templates with a stylesheet. -/
  orphans : ∀ name, (∃ e ∈ report.entries, name ∈ e.finding.names) ↔
    StyledOrphan t options files name
  /-- No template has two entries. -/
  once : (report.entries.map (·.file)).Nodup
  /-- A template that fails has an entry with the error. -/
  reported : ∀ f ∈ files, Scan.fails t f = true → ∃ e, Scan.orphans t options f = .failed e ∧
    ⟨relativeTo dir f, .failed e.message⟩ ∈ report.entries
  /-- No other template has an entry with an error. -/
  failing : ∀ e ∈ report.entries, e.finding.isFailure = true →
    ∃ f ∈ files, Scan.fails t f = true ∧ e.file = relativeTo dir f
  failures : report.failures = files.countP (Scan.fails t)
  total : report.totalOrphans = (report.entries.map fun e => e.finding.names.length).sum
  counted : report.filesWithOrphans + report.failures = report.entries.length
  ascending : names.Pairwise fun m n => Text.lt m n = true
  /-- A scan gathers these orphans and the classes used in readable templates without a stylesheet. -/
  gathered : ∀ name, name ∈ names ↔ StyledOrphan t options files name ∨
    ∃ f ∈ files, t.has (companionStylesheet f) = false ∧
      ∃ text used, t.readText f = .done text ∧ usedClasses? text = some used ∧
        name ∈ used ∧ options.excludes name = false

/-- An audit of a directory and a scan of it are both done, and agree. -/
theorem audit_agrees_with_scan (t : FileTree) (regular : t.Regular) (options : OrphanOptions)
    (dir : Text) (files : List Text) (found : t.findFiles dir [templateExtension] true = .ok files)
    (unbroken : ∀ f ∈ files, Scan.orphans t options f ≠ .brokenOff) :
    ∃ report names, run t options dir = .done report ∧
      Scan.orphansInDir t options dir true = .done names ∧
      Agrees t options dir files report names := by
  have distinct : (files.map (relativeTo dir)).Nodup := by
    unfold FileTree.findFiles at found
    cases dirs : t.requireDir dir with
    | error e =>
      rw [dirs] at found
      cases found
    | ok _ =>
      rw [dirs] at found
      obtain rfl := Except.ok.inj found
      exact FileSearch.filesIn_relative_nodup regular
  obtain ⟨report, audited, entries, tallied⟩ := run_tallied found unbroken
  refine ⟨report, _, audited, orphansInDir_eq found unbroken, ?_⟩
  constructor
  case orphans => exact fun _ => entries ▸ entries_orphans
  case once => exact entries ▸ entries_nodup distinct
  case reported =>
    intro f known fails
    rcases Scan.orphans_cases t options f with ⟨-, e, failed⟩ | ⟨reads, -⟩
    · have told := findingOf_failed_iff.mpr ⟨e, failed, rfl⟩
      exact ⟨e, failed, entries ▸ mem_entries.mpr ⟨f, known, rfl, told⟩⟩
    · rw [fails] at reads
      cases reads
  case failing =>
    intro e listed failure
    rw [entries] at listed
    obtain ⟨f, known, told⟩ := List.mem_filterMap.mp listed
    have fails := isFailure_iff t options dir f
    rw [told, Option.map_some, Option.getD_some, failure] at fails
    obtain ⟨_, -, rfl⟩ := Option.map_eq_some_iff.mp told
    exact ⟨f, known, fails.symm, rfl⟩
  case failures =>
    rw [tallied.failures, entries, List.countP_filterMap]
    exact List.countP_congr fun f _ => by rw [isFailure_iff]
  case total => exact tallied.totalOrphans
  case counted =>
    rw [tallied.filesWithOrphans, tallied.failures, Nat.add_comm,
      List.length_eq_countP_add_countP fun e : AuditEntry => e.finding.isFailure]
    simp
  case ascending => exact Text.sortDistinct_ascending _
  case gathered => exact fun _ => mem_scanned

/-- A template with an orphan, one with a directory for its stylesheet, one without a stylesheet and one that
is no text. -/
def cardsTree : FileTree where
  dirs := [["Odd.razor.css".toList]]
  files :=
    [(["Card.razor".toList], .text "<p class=\"a b\"/>"),
      (["Card.razor.css".toList], .text ".a \x7b\x7d"), (["Odd.razor".toList], .text "<p/>"),
      (["Plain.razor".toList], .text "<p class=\"c\"/>"), (["Raw.razor".toList], .binary [0xFF])]

def cardsFiles : List Text :=
  ["./Card.razor".toList, "./Odd.razor".toList, "./Plain.razor".toList, "./Raw.razor".toList]

def oddError : Error := .io "./Odd.razor.css" "Is a directory (os error 21)"

theorem cardsTree_agrees :
    cardsTree.Regular ∧ cardsTree.findFiles "." [templateExtension] true = .ok cardsFiles ∧
      Scan.orphans cardsTree {} "./Card.razor" = .done ["b".toList] ∧
      ∃ report names, run cardsTree {} "." = .done report ∧
        Scan.orphansInDir cardsTree {} "." true = .done names ∧ report.failures = 2 ∧
        ⟨relativeTo "." "./Odd.razor", .failed oddError.message⟩ ∈ report.entries ∧
        (∃ e ∈ report.entries, "b".toList ∈ e.finding.names) ∧ "c".toList ∈ names := by
  have regular : cardsTree.Regular := ⟨by decide, by decide, by decide, by decide⟩
  have collected : FileSearch.collect { extensions := [templateExtension] } cardsTree "." 2 "." [] =
      cardsFiles := by
    decide +kernel
  have found : cardsTree.findFiles "." [templateExtension] true = .ok cardsFiles :=
    congrArg Except.ok ((congrArg Path.sort collected).trans (Path.sort_eq (by decide) (by decide)))
  have card : Scan.orphans cardsTree {} "./Card.razor" = .done ["b".toList] := by decide +kernel
  have odd : Scan.orphans cardsTree {} "./Odd.razor" = .failed oddError := by decide +kernel
  have plain : Scan.orphans cardsTree {} "./Plain.razor" = .done ["c".toList] := by decide +kernel
  have raw : Scan.orphans cardsTree {} "./Raw.razor" =
      .failed (FileFault.notText.toError "./Raw.razor") := by
    decide +kernel
  have unbroken : ∀ f ∈ cardsFiles, Scan.orphans cardsTree {} f ≠ .brokenOff := by
    simp only [cardsFiles, List.forall_mem_cons, card, odd, plain, raw]
    simp
  obtain ⟨report, names, audited, scanned, agrees⟩ :=
    audit_agrees_with_scan cardsTree regular {} "." cardsFiles found unbroken
  refine ⟨regular, found, card, report, names, audited, scanned, ?_, ?_, ?_, ?_⟩
  · rw [agrees.failures]
    decide +kernel
  · obtain ⟨e, failed, listed⟩ := agrees.reported "./Odd.razor" (by decide) (by decide +kernel)
    obtain rfl := Outcome.failed.inj (failed.symm.trans odd)
    exact listed
  · exact (agrees.orphans _).mpr ⟨"./Card.razor", by decide, by decide +kernel, _, card, by decide⟩
  · have bare : cardsTree.has (companionStylesheet "./Plain.razor") = false := by decide +kernel
    exact (agrees.gathered _).mpr (Or.inr ⟨"./Plain.razor", by decide, bare,
      (Scan.mem_orphans_plain bare).mp ⟨_, plain, by decide⟩⟩)

end Audit

end TemplateMarkup
