import TemplateMarkup.Proofs.Edit.Files
import TemplateMarkup.Proofs.FileTree.Search

/-!
Renamings in the templates of a directory. The search finds templates only; the report counts what
became of each of them, and without a template that failed it would differ in that template's error
alone.
-/
namespace TemplateMarkup

open FileTree FileAction

namespace Path

theorem isTemplate_join {name : Text} (dir : Text) (template : isTemplate name = true) :
    isTemplate (join dir name) = true := by
  unfold isTemplate extension? at template
  cases file : fileName? name with
  | none =>
    rw [file] at template
    cases template
  | some n =>
    have below : ∀ p, isTemplate (p ++ '/' :: name) = true := by
      intro p
      rw [isTemplate, extension?, fileName?_slash file]
      rwa [file] at template
    unfold join
    split
    · exact template
    · split
      · rename_i slash
        obtain ⟨p, rfl⟩ := List.getLast?_eq_some_iff.mp slash
        rw [List.append_assoc]
        exact below p
      · exact below dir

end Path

theorem FileSearch.collect_template {s : FileSearch} {t : FileTree} {root f : Text}
    (extensions : s.extensions = [templateExtension]) (depth : Nat) (dir : Text) (place : Place)
    (found : f ∈ s.collect t root depth dir place) : Path.isTemplate f = true := by
  induction depth generalizing dir place with
  | zero => cases found
  | succ depth ih =>
    rcases List.mem_append.mp (collect_succ ▸ found) with file | below
    · obtain ⟨name, -, taken⟩ := List.mem_filterMap.mp file
      obtain ⟨takes, rfl⟩ := taken?_eq_some_iff.mp taken
      refine Path.isTemplate_join dir ?_
      simp only [takesFile, extensions, List.any_cons, List.any_nil, Bool.or_false,
        Bool.and_eq_true] at takes
      exact takes.1
    · obtain ⟨name, -, deeper⟩ := List.mem_flatMap.mp below
      exact ih _ _ (mem_collectBelow.mp deeper).2

theorem FileTree.findFiles_template {t : FileTree} {dir f : Text} {recursive : Bool} {found : List Text}
    (search : t.findFiles dir [templateExtension] recursive = .ok found) (member : f ∈ found) :
    Path.isTemplate f = true := by
  unfold findFiles requireDir at search
  split at search
  · obtain rfl := Except.ok.inj search
    obtain ⟨place, -, found⟩ := FileSearch.mem_filesIn.mp member
    exact FileSearch.collect_template rfl _ _ _ found
  · cases search

namespace RenameReport

def changed? (r : Text × Except Error Nat) : Option Text :=
  match r.2 with
  | .ok (_ + 1) => some r.1
  | _ => none

def fault? (r : Text × Except Error Nat) : Option (Text × Text) :=
  match r.2 with
  | .ok _ => none
  | .error e => some (r.1, e.message)

def renamed (r : Text × Except Error Nat) : Nat :=
  match r.2 with
  | .ok n => n
  | .error _ => 0

def ofResults (rs : List (Text × Except Error Nat)) : RenameReport where
  processed := rs.length
  modified := rs.filterMap changed?
  errors := rs.filterMap fault?
  replacements := rs.foldr (fun r n => renamed r + n) 0

theorem foldl_add (rs : List (Text × Except Error Nat)) (report : RenameReport) :
    rs.foldl (fun report r => report.add r.1 r.2) report =
      { processed := report.processed + (ofResults rs).processed
        modified := report.modified ++ (ofResults rs).modified
        errors := report.errors ++ (ofResults rs).errors
        replacements := report.replacements + (ofResults rs).replacements } := by
  induction rs generalizing report with
  | nil => simp [ofResults]
  | cons r rs ih =>
    rw [List.foldl_cons, ih]
    rcases r with ⟨f, e | _ | n⟩ <;>
      simp [add, ofResults, List.filterMap_cons, changed?, fault?, renamed, Nat.add_assoc, Nat.add_comm 1]

theorem ofResults_without {rs : List (Text × Except Error Nat)} {f : Text}
    (failed : ∀ r ∈ rs, r.1 = f → r.2.isOk = false) :
    ofResults (rs.filter fun r => r.1 ≠ f) =
      { ofResults rs with
        processed := (rs.filter fun r => r.1 ≠ f).length
        errors := (ofResults rs).errors.filter fun e => e.1 ≠ f } := by
  induction rs with
  | nil => rfl
  | cons r rs ih =>
    have rest := ih fun r member => failed r (List.mem_cons_of_mem _ member)
    simp only [ofResults, RenameReport.mk.injEq, true_and] at rest ⊢
    obtain ⟨modified, errors, replacements⟩ := rest
    by_cases same : r.1 = f
    · have bad := failed r (List.mem_cons_self ..) same
      obtain ⟨_, e | _⟩ := r
      · simp_all [List.filterMap_cons, changed?, fault?, renamed]
      · cases bad
    · rw [List.filter_cons_of_pos (by simpa using same)]
      rcases r with ⟨g, e | _ | n⟩ <;> simp_all [List.filterMap_cons, changed?, fault?, renamed]

end RenameReport

namespace Rename

variable {t u : FileTree} {dir old new : Text} {rs : List (Text × Except Error Nat)} {report : RenameReport}
  {recursive : Bool}

theorem files_done_iff {fs : List Text} {start : RenameReport} :
    files old new start fs t = (.done report, u) ↔
      ∃ rs : List (Text × Except Error Nat), rs.map (·.1) = fs ∧
        Run (fun f => (file old new f).attempt) t rs u ∧
        report = rs.foldl (fun report r => report.add r.1 r.2) start := by
  constructor
  · intro run
    induction fs generalizing start t with
    | nil =>
      obtain ⟨⟨rfl⟩, rfl⟩ := Prod.mk.inj run
      exact ⟨[], rfl, Run.nil, rfl⟩
    | cons f fs ih =>
      rw [files, bind_apply] at run
      split at run
      · rename_i b v first
        obtain ⟨rs, rfl, later, rfl⟩ := ih run
        exact ⟨(f, b) :: rs, rfl, Run.cons first later, rfl⟩
      · cases run
      · cases run
  · rintro ⟨rs, rfl, run, rfl⟩
    induction run generalizing start with
    | nil => rfl
    | cons first later ih =>
      rw [List.map_cons, files, bind_apply, first]
      exact ih

theorem files_not_failed {fs : List Text} {start : RenameReport} {e : Error} :
    files old new start fs t ≠ (.failed e, u) := by
  intro run
  induction fs generalizing start t with
  | nil => cases run
  | cons f fs ih =>
    rw [files, bind_apply] at run
    unfold attempt at run
    rcases became : file old new f t with ⟨count | fault | _, v⟩ <;> rw [became] at run
    · exact ih run
    · exact ih run
    · cases run

/-- A directory is searched after the names are checked; what fails before that changes nothing. -/
theorem inDir_cases {result : Outcome RenameReport} (run : inDir dir old new recursive t = (result, u)) :
    ((∃ e, result = .failed e) ∧ u = t) ∨
      ∃ found, t.findFiles dir [templateExtension] recursive = .ok found ∧
        files old new {} found t = (result, u) := by
  unfold inDir at run
  rw [bind_apply, ofOutcome] at run
  cases first : Edit.checkClassName "old" old with
  | error e =>
    rw [first] at run
    obtain ⟨rfl, rfl⟩ := Prod.mk.inj run
    exact Or.inl ⟨⟨e, rfl⟩, rfl⟩
  | ok _ =>
    rw [first] at run
    dsimp only [Outcome.ofExcept] at run
    rw [bind_apply, ofOutcome] at run
    cases second : Edit.checkClassName "new" new with
    | error e =>
      rw [second] at run
      obtain ⟨rfl, rfl⟩ := Prod.mk.inj run
      exact Or.inl ⟨⟨e, rfl⟩, rfl⟩
    | ok _ =>
      rw [second] at run
      dsimp only [Outcome.ofExcept] at run
      rw [bind_apply, observe] at run
      cases search : t.findFiles dir [templateExtension] recursive with
      | error e =>
        rw [search] at run
        obtain ⟨rfl, rfl⟩ := Prod.mk.inj run
        exact Or.inl ⟨⟨e, rfl⟩, rfl⟩
      | ok found =>
        rw [search] at run
        exact Or.inr ⟨found, rfl, run⟩

theorem inDir_failed {e : Error} (run : inDir dir old new recursive t = (.failed e, u)) : u = t := by
  rcases inDir_cases run with ⟨-, same⟩ | ⟨found, -, failed⟩
  · exact same
  · exact absurd failed files_not_failed

def withBackup (f : Text) : List Text := [f, f ++ backupSuffix]

theorem attempt_changes {f : Text} {b : Except Error Nat}
    (run : (file old new f).attempt t = (.done b, u)) :
    t.ChangesOnly u ((RenameReport.changed? (f, b)).toList.flatMap withBackup) := by
  rcases attempt_cases run with ⟨count, rfl, done⟩ | ⟨e, rfl, failed⟩
  · obtain ⟨text, renamed, -, -, written⟩ := file_done_iff.mp done
    cases count with
    | zero =>
      cases written
      exact changesOnly_refl t _
    | succ n =>
      rw [if_pos (Nat.succ_pos n)] at written
      refine written.changesOnly.mono fun p member => ?_
      obtain ⟨w, listed, rfl⟩ := List.mem_map.mp member
      exact writes_companions listed
  · rw [file_undone failed (by simp)]
    exact changesOnly_refl t _

theorem run_changes (run : Run (fun f => (file old new f).attempt) t rs u)
    (templates : ∀ r ∈ rs, Path.isTemplate r.1 = true) :
    t.ChangesOnly u ((rs.filterMap RenameReport.changed?).flatMap withBackup) := by
  induction run with
  | nil => exact changesOnly_refl _ _
  | @cons t u v f b rs first later ih =>
    have template := templates _ (List.mem_cons_self ..)
    have extended := ((file_steady old new).step template template first).1
    have rest := ih fun r member => templates r (List.mem_cons_of_mem _ member)
    have parts : ((f, b) :: rs).filterMap RenameReport.changed? =
        (RenameReport.changed? (f, b)).toList ++ rs.filterMap RenameReport.changed? := by
      rw [List.filterMap_cons]
      cases RenameReport.changed? (f, b) <;> rfl
    rw [parts, List.flatMap_append]
    refine ((attempt_changes first).mono ?_).trans extended (rest.mono ?_)
    · exact fun p member => List.mem_append_left _ member
    · exact fun p member => List.mem_append_right _ member

/-- A renaming in a directory changes the templates that it tells, and their backups. It goes on where a
template fails: that one is kept, and the others are treated as they would be without it. -/
theorem inDir_done (whole : inDir dir old new recursive t = (.done report, u)) :
    t.ChangesOnly u (report.modified.flatMap withBackup) ∧
      ∃ found, t.findFiles dir [templateExtension] recursive = .ok found ∧
        files old new {} found t = (.done report, u) ∧
        ∀ e ∈ report.errors, t.Keeps u e.1 ∧
          files old new {} (found.filter (· ≠ e.1)) t =
            (.done
              { report with
                processed := (found.filter (· ≠ e.1)).length
                errors := report.errors.filter (·.1 ≠ e.1) }, u) := by
  rcases inDir_cases whole with ⟨⟨e, failed⟩, -⟩ | ⟨found, listing, done⟩
  · cases failed
  obtain ⟨rs, rfl, run, told⟩ := files_done_iff.mp done
  have results : report = RenameReport.ofResults rs := by
    rw [told, RenameReport.foldl_add]
    simp
  have templates : ∀ r ∈ rs, Path.isTemplate r.1 = true := fun r member =>
    findFiles_template listing (List.mem_map_of_mem member)
  obtain ⟨-, fate, kept⟩ := (file_steady old new).run_settled run templates
  subst results
  refine ⟨run_changes run templates, _, listing, done, fun e member => ?_⟩
  obtain ⟨⟨f, b⟩, listed, fault⟩ := List.mem_filterMap.mp member
  cases b with
  | ok n => cases fault
  | error error =>
    obtain rfl := Option.some.inj fault
    have bad : ¬Good old new t f := mt (fate _ listed).mpr (by simp [Except.isOk, Except.toBool])
    have failed : ∀ r ∈ rs, r.1 = f → r.2.isOk = false := by
      rintro r own rfl
      rw [← Bool.not_eq_true, fate r own]
      exact bad
    refine ⟨kept f (templates _ listed) bad, ?_⟩
    have without := (file_steady old new).run_without run templates (templates _ listed) bad
    refine files_done_iff.mpr ⟨_, ?_, without, ?_⟩
    · rw [List.filter_map]
      rfl
    · rw [RenameReport.foldl_add, RenameReport.ofResults_without failed, List.filter_map, List.length_map]
      simp [Function.comp_def]

end Rename

end TemplateMarkup
