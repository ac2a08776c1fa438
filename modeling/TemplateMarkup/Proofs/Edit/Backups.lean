import Mathlib.Logic.Relation
import TemplateMarkup.Proofs.Edit.Batches

/-!
Backups of renamings. However many directories are gone through, and whatever becomes of it, all that is
done is to rename classes in single templates. A template is backed up before the first change to it, and
no backup is touched once it is there; so a backup holds what its template held at the start.
-/
namespace TemplateMarkup.Rename

open FileTree FileAction

variable {t u v : FileTree} {f g dir old new : Text} {place : Place} {recursive : Bool}

/-- Backups are no templates, so that no renaming goes into them. -/
theorem backup_not_template (template : Path.isTemplate g = true)
    (backup : t.target? (f ++ backupSuffix) = some place) : t.target? g ≠ some place := by
  intro target
  obtain ⟨dir, name, rfl, leads⟩ := exists_leads backup
  obtain ⟨dir', name', same, leads'⟩ := exists_leads target
  obtain rfl : name = name' := List.singleton_inj.mp (List.append_inj' same rfl).2
  obtain ⟨last, file⟩ := Path.exists_fileName?_append f backupSuffix (by decide) (by decide)
  have ends := Path.isTemplate_ends template leads'.fileName
  rw [Option.some.inj (leads.fileName.symm.trans file)] at ends
  exact suffixes_proper.not_template (List.mem_singleton_self _) ends

/-- A class is renamed in one template, whatever becomes of that. -/
def Step (t u : FileTree) : Prop :=
  ∃ old new f result, Path.isTemplate f = true ∧ file old new f t = (result, u)

/-- A step changes nothing, or it writes a template and before that its backup, if there is none. -/
theorem Step.cases (step : Step t u) :
    u = t ∨ ∃ f text renamed, Path.isTemplate f = true ∧ t.readText f = .done text ∧
      Written t (writes t f text renamed) u := by
  obtain ⟨old, new, f, result, template, run⟩ := step
  cases result with
  | failed e => exact Or.inl (file_undone run (by simp))
  | brokenOff => exact Or.inl (file_undone run (by simp))
  | done count =>
    obtain ⟨text, renamed, reads, -, written⟩ := file_done_iff.mp run
    split at written
    · exact Or.inr ⟨f, text, renamed, template, reads, written⟩
    · cases written
      exact Or.inl rfl

theorem Step.extends (step : Step t u) : t.Extends u := by
  obtain rfl | ⟨f, text, renamed, -, -, written⟩ := step.cases
  · exact extends_refl _
  · exact written.extends

theorem mem_writes {text renamed : Text} {w : Text × Text} (member : w ∈ writes t f text renamed) :
    w.1 = f ∨ (w.1 = f ++ backupSuffix ∧ t.has (f ++ backupSuffix) = false) := by
  rcases List.mem_append.mp member with backup | file
  · split at backup
    · cases backup
    · rename_i absent
      rw [List.mem_singleton.mp backup]
      exact Or.inr ⟨rfl, Bool.not_eq_true _ ▸ absent⟩
  · rw [List.mem_singleton.mp file]
    exact Or.inl rfl

/-- A place that a renaming writes to holds a template, or holds nothing yet. -/
theorem writes_place {text renamed : Text} {w : Text × Text} (member : w ∈ writes t f text renamed)
    (target : t.target? w.1 = some place) :
    t.target? f = some place ∨ t.content? place = none := by
  rcases mem_writes member with file | ⟨backup, absent⟩
  · rw [file] at target
    exact Or.inl target
  · rw [backup] at target
    refine Or.inr ?_
    cases held : t.content? place with
    | none => rfl
    | some c =>
      have present := has_iff.mpr (Or.inr ⟨place, target, by rw [held]; rfl⟩)
      rw [absent] at present
      cases present

theorem Step.backup_kept (step : Step t u) (present : t.has (f ++ backupSuffix) = true) :
    u.find (f ++ backupSuffix) = t.find (f ++ backupSuffix) := by
  obtain rfl | ⟨g, text, renamed, template, -, written⟩ := step.cases
  · rfl
  · cases here : t.find (f ++ backupSuffix) with
    | error fault => exact absurd here (find_ok (Or.inl present) fault)
    | ok found =>
      refine written.found_kept here fun w member place target backup => ?_
      rcases writes_place member target with file | vacant
      · exact backup_not_template template backup file
      · rcases has_iff.mp present with dir | ⟨place', target', held⟩
        · obtain ⟨-, ⟨c, -, file⟩ | ⟨-, file⟩⟩ := find_of_target backup <;>
            · rw [isDir, file] at dir
              cases dir
        · obtain rfl := Option.some.inj (backup.symm.trans target')
          rw [vacant] at held
          cases held

/-- A template is as it was and has no backup yet, or its backup holds what it held. -/
def Saved (t u : FileTree) (f : Text) : Prop :=
  (u.has (f ++ backupSuffix) = false ∧ t.Keeps u f) ∨
    ∃ text, t.readText f = .done text ∧ u.readText (f ++ backupSuffix) = .done text

/-- A template without a backup gets one that holds what the template held. -/
theorem backup_written {text renamed : Text} (absent : t.has (f ++ backupSuffix) = false)
    (reads : t.readText f = .done text) (written : Written t (writes t f text renamed) u) :
    u.readText (f ++ backupSuffix) = .done text := by
  obtain ⟨place, target, -⟩ := readText_iff.mp reads
  have first : Written t ([] ++ (f ++ backupSuffix, text) :: [(f, renamed)]) u := by
    rw [writes, absent] at written
    exact written
  refine first.stays fun w member same => ?_
  rw [List.mem_singleton.mp member, target] at same
  exact target_beside_ne target (by decide) (by decide) same.symm

/-- A template that is kept so far is saved by the first change to it, on whatever path that comes. -/
theorem saved_of_written {text renamed : Text} (target : u.target? f = some place)
    (other : u.target? g = some place) (reads : u.readText g = .done text)
    (written : Written u (writes u g text renamed) v) (absent : u.has (f ++ backupSuffix) = false)
    (kept : t.Keeps u f) (extended : t.Extends u) : Saved t v f := by
  have beside : ∀ {w : FileTree}, u.Extends w →
      w.find (f ++ backupSuffix) = w.find (g ++ backupSuffix) := fun later =>
    find_beside ((later.target f).trans target) ((later.target g).trans other) (by decide) (by decide)
  have first : u.has (g ++ backupSuffix) = false :=
    (has_congr (beside (extends_refl u)).symm).trans absent
  refine Or.inr ⟨text, ?_, readText_congr (beside written.extends) (backup_written first reads written)⟩
  obtain ⟨place', target', content⟩ := readText_iff.mp reads
  obtain rfl := Option.some.inj (other.symm.trans target')
  have start : t.target? f = some place := (extended.target f).symm.trans target
  exact readText_iff.mpr ⟨place, start, (kept place start).symm.trans content⟩

theorem Step.saved (step : Step u v) (extended : t.Extends u) (template : Path.isTemplate f = true)
    (target : t.target? f = some place) (saved : Saved t u f) : Saved t v f := by
  rcases saved with ⟨absent, kept⟩ | ⟨text, original, backup⟩
  · obtain rfl | ⟨g, text, renamed, template', reads, written⟩ := step.cases
    · exact Or.inl ⟨absent, kept⟩
    · have here := (extended.target f).trans target
      obtain ⟨other, there, -⟩ := readText_iff.mp reads
      by_cases same : place = other
      · subst same
        exact saved_of_written here there reads written absent kept extended
      · -- the files of another template are written
        have own : ∀ x ∈ companions suffixes f, u.Keeps v x := fun x mine =>
          written.keeps fun w member p target' target'' =>
            companions_apart suffixes_proper template template' here there same mine
              (writes_companions member) target'' target'
        refine Or.inl ⟨?_, fun p start => ?_⟩
        · rw [written.extends.has_eq (own _ (List.mem_cons_of_mem _ (List.mem_singleton_self _))), absent]
        · rw [own f (List.mem_cons_self ..) p ((extended.target f).trans start), kept p start]
  · exact Or.inr ⟨text, original, readText_congr (step.backup_kept (has_of_readText backup)) backup⟩

/-- Classes are renamed in templates, one after another. -/
def Steps : FileTree → FileTree → Prop := Relation.ReflTransGen Step

theorem Steps.extends (steps : Steps t u) : t.Extends u := by
  induction steps with
  | refl => exact extends_refl t
  | tail _ step ih => exact ih.trans step.extends

theorem Steps.backup_kept (steps : Steps t u) (present : t.has (f ++ backupSuffix) = true) :
    u.find (f ++ backupSuffix) = t.find (f ++ backupSuffix) := by
  induction steps with
  | refl => rfl
  | tail _ step ih => rw [step.backup_kept ((has_congr ih).trans present), ih]

theorem Steps.saved (steps : Steps t u) (template : Path.isTemplate f = true)
    (target : t.target? f = some place) (absent : t.has (f ++ backupSuffix) = false) : Saved t u f := by
  induction steps with
  | refl => exact Or.inl ⟨absent, fun _ _ => rfl⟩
  | tail before step ih => exact step.saved (Steps.extends before) template target ih

theorem Steps.changed (steps : Steps t u) (given : (t.content? place).isSome)
    (changed : u.content? place ≠ t.content? place) :
    ∃ g, Path.isTemplate g = true ∧ t.target? g = some place := by
  induction steps with
  | refl => exact absurd rfl changed
  | @tail v u before step ih =>
    by_cases sooner : v.content? place = t.content? place
    · obtain rfl | ⟨g, text, renamed, template, -, written⟩ := step.cases
      · exact absurd sooner changed
      · apply Classical.byContradiction
        intro none
        refine changed ((written.kept fun w member target => ?_).trans sooner)
        rcases writes_place member target with file | vacant
        · exact none ⟨g, template, ((Steps.extends before).target g).symm.trans file⟩
        · rw [← sooner, vacant] at given
          cases given
    · exact ih sooner

theorem files_steps {fs : List Text} {start : RenameReport} {result : Outcome RenameReport}
    (run : files old new start fs t = (result, u)) (templates : ∀ f ∈ fs, Path.isTemplate f = true) :
    Steps t u := by
  induction fs generalizing start t with
  | nil =>
    obtain ⟨-, rfl⟩ := Prod.mk.inj run
    exact .refl
  | cons f fs ih =>
    have rest : ∀ f ∈ fs, Path.isTemplate f = true := fun f member =>
      templates f (List.mem_cons_of_mem _ member)
    have step : ∀ {result v}, file old new f t = (result, v) → Step t v := fun became =>
      ⟨old, new, f, _, templates f (List.mem_cons_self ..), became⟩
    rw [files, bind_apply, attempt] at run
    rcases became : file old new f t with ⟨count | e | _, v⟩ <;> rw [became] at run
    · exact .head (step became) (ih run rest)
    · exact .head (step became) (ih run rest)
    · obtain ⟨-, rfl⟩ := Prod.mk.inj run
      exact .single (step became)

theorem inDir_steps {result : Outcome RenameReport} (run : inDir dir old new recursive t = (result, u)) :
    Steps t u := by
  rcases inDir_cases run with ⟨-, rfl⟩ | ⟨found, listing, run⟩
  · exact .refl
  · exact files_steps run fun f member => findFiles_template listing member

theorem attempt_step {b : Except Error Nat} (template : Path.isTemplate f = true)
    (run : (file old new f).attempt t = (.done b, u)) : Step t u := by
  rcases attempt_cases run with ⟨count, -, done⟩ | ⟨e, -, failed⟩
  · exact ⟨old, new, f, _, template, done⟩
  · exact ⟨old, new, f, _, template, failed⟩

theorem run_steps {rs : List (Text × Except Error Nat)}
    (run : Run (fun f => (file old new f).attempt) t rs u)
    (templates : ∀ r ∈ rs, Path.isTemplate r.1 = true) : Steps t u := by
  induction run with
  | nil => exact .refl
  | cons first later ih =>
    exact .head (attempt_step (templates _ (List.mem_cons_self ..)) first)
      (ih fun r member => templates r (List.mem_cons_of_mem _ member))

theorem file_backed {count : Nat} (template : Path.isTemplate f = true)
    (run : file old new f t = (.done (count + 1), u)) :
    (t.target? f).isSome ∧ u.has (f ++ backupSuffix) = true := by
  obtain ⟨text, renamed, reads, -, written⟩ := file_done_iff.mp run
  obtain ⟨place, target, -⟩ := readText_iff.mp reads
  refine ⟨by rw [target]; rfl, ?_⟩
  cases present : t.has (f ++ backupSuffix) with
  | true =>
    have step : Step t u := ⟨old, new, f, _, template, run⟩
    rw [has_congr (step.backup_kept present), present]
  | false =>
    rw [if_pos (Nat.succ_pos count)] at written
    exact has_of_readText (backup_written present reads written)

theorem run_backed {rs : List (Text × Except Error Nat)}
    (run : Run (fun f => (file old new f).attempt) t rs u)
    (templates : ∀ r ∈ rs, Path.isTemplate r.1 = true)
    (told : g ∈ rs.filterMap RenameReport.changed?) :
    Path.isTemplate g = true ∧ (t.target? g).isSome ∧ u.has (g ++ backupSuffix) = true := by
  induction run with
  | nil => cases told
  | @cons t u v f b rs first later ih =>
    have template := templates _ (List.mem_cons_self ..)
    have rest : ∀ r ∈ rs, Path.isTemplate r.1 = true := fun r member =>
      templates r (List.mem_cons_of_mem _ member)
    obtain ⟨r, member, change⟩ := List.mem_filterMap.mp told
    rcases List.mem_cons.mp member with rfl | member
    · rcases attempt_cases first with ⟨count, rfl, done⟩ | ⟨e, rfl, failed⟩
      · cases count with
        | zero => cases change
        | succ count =>
          obtain rfl := Option.some.inj change
          obtain ⟨target, present⟩ := file_backed template done
          exact ⟨template, target, by rw [has_congr ((run_steps later rest).backup_kept present), present]⟩
      · cases change
    · obtain ⟨template', target, present⟩ := ih rest (List.mem_filterMap.mpr ⟨r, member, change⟩)
      rw [(attempt_step template first).extends.target] at target
      exact ⟨template', target, present⟩

theorem inDir_backed {report : RenameReport} (run : inDir dir old new recursive t = (.done report, u))
    (told : g ∈ report.modified) :
    Path.isTemplate g = true ∧ (t.target? g).isSome ∧ u.has (g ++ backupSuffix) = true := by
  rcases inDir_cases run with ⟨⟨e, failed⟩, -⟩ | ⟨found, listing, done⟩
  · cases failed
  obtain ⟨rs, rfl, each, rfl⟩ := files_done_iff.mp done
  rw [RenameReport.foldl_add] at told
  exact run_backed each (fun r member => findFiles_template listing (List.mem_map_of_mem member)) told

structure Call where
  dir : Text
  old : Text
  new : Text
  recursive : Bool

namespace Call

def run (c : Call) : FileAction RenameReport := inDir c.dir c.old c.new c.recursive

/-- The call changes what a file holds, or tells that it changed the file. -/
def Modifies (c : Call) (t : FileTree) (f : Text) : Prop :=
  (t.isFile f = true ∧ ¬t.Keeps (c.run t).2 f) ∨
    ∃ report g, (c.run t).1 = .done report ∧ g ∈ report.modified ∧ t.target? g = t.target? f

theorem steps (c : Call) (t : FileTree) : Steps t (c.run t).2 := inDir_steps rfl

theorem Modifies.template {c : Call} (modifies : c.Modifies t f) :
    ∃ g place, Path.isTemplate g = true ∧ t.target? g = some place ∧ t.target? f = some place ∧
      ((c.run t).2.content? place ≠ t.content? place ∨
        (c.run t).2.has (g ++ backupSuffix) = true) := by
  rcases modifies with ⟨file, changed⟩ | ⟨report, g, done, told, same⟩
  · obtain ⟨place, held, target, content⟩ := isFile_iff.mp file
    have other : (c.run t).2.content? place ≠ t.content? place := by
      intro equal
      refine changed fun place' target' => ?_
      obtain rfl := Option.some.inj (target.symm.trans target')
      exact equal
    obtain ⟨g, template, there⟩ := (c.steps t).changed (by rw [content]; rfl) other
    exact ⟨g, place, template, there, target, Or.inl other⟩
  · obtain ⟨template, leads, present⟩ := inDir_backed (Prod.ext done rfl) told
    obtain ⟨place, target⟩ := Option.isSome_iff_exists.mp leads
    exact ⟨g, place, template, target, same.symm.trans target, Or.inr present⟩

theorem Modifies.saves {c : Call} (modifies : c.Modifies u f) (steps : Steps t u)
    (absent : t.has (f ++ backupSuffix) = false) :
    ∃ original, t.readText f = .done original ∧
      (c.run u).2.readText (f ++ backupSuffix) = .done original := by
  obtain ⟨g, place, template, target, target', effect⟩ := modifies.template
  -- the template may be told on another path than the one asked about
  have start : t.target? g = some place := (steps.extends.target g).symm.trans target
  have start' : t.target? f = some place := (steps.extends.target f).symm.trans target'
  have beside : ∀ {v : FileTree}, t.Extends v →
      v.find (f ++ backupSuffix) = v.find (g ++ backupSuffix) := fun later =>
    find_beside ((later.target f).trans start') ((later.target g).trans start) (by decide) (by decide)
  have none : t.has (g ++ backupSuffix) = false :=
    (has_congr (beside (extends_refl t)).symm).trans absent
  have whole : Steps t (c.run u).2 := steps.trans (c.steps u)
  rcases whole.saved template start none with ⟨still, kept⟩ | ⟨original, reads, backup⟩
  · exfalso
    rcases effect with changed | present
    · rcases steps.saved template start none with ⟨-, before⟩ | ⟨original, -, backup⟩
      · exact changed ((kept place start).trans (before place start).symm)
      · have present := has_of_readText backup
        rw [← has_congr ((c.steps u).backup_kept present), still] at present
        cases present
    · rw [still] at present
      cases present
  · obtain ⟨place', there, content⟩ := readText_iff.mp reads
    obtain rfl := Option.some.inj (start.symm.trans there)
    exact ⟨original, readText_iff.mpr ⟨place, start', content⟩,
      readText_congr (beside whole.extends) backup⟩

end Call

/-- The files after some calls, whatever becomes of each of them. -/
def after (calls : List Call) (t : FileTree) : FileTree := calls.foldl (fun t c => (c.run t).2) t

theorem after_append (calls more : List Call) (t : FileTree) :
    after (calls ++ more) t = after more (after calls t) := List.foldl_append

theorem after_steps (calls : List Call) (t : FileTree) : Steps t (after calls t) := by
  induction calls generalizing t with
  | nil => exact .refl
  | cons c calls ih => exact (c.steps t).trans (ih _)

/-- A file that one of many calls modifies has a backup from then on, which holds what the file held before
all of them, unless the backup is older; and no call changes a backup that is there. -/
theorem backups_hold_originals (t : FileTree) (earlier later : List Call) :
    (∀ (call : Call) (f : Text), t.has (f ++ backupSuffix) = false →
      call.Modifies (after earlier t) f →
      ∃ original, t.readText f = .done original ∧
        (after (earlier ++ call :: later) t).readText (f ++ backupSuffix) = .done original) ∧
    ∀ f : Text, (after earlier t).has (f ++ backupSuffix) = true →
      (after (earlier ++ later) t).find (f ++ backupSuffix) =
        (after earlier t).find (f ++ backupSuffix) := by
  refine ⟨fun call f absent modifies => ?_, fun f present => ?_⟩
  · obtain ⟨original, reads, backup⟩ := modifies.saves (after_steps earlier t) absent
    refine ⟨original, reads, ?_⟩
    rw [after_append]
    exact readText_congr ((after_steps later _).backup_kept (has_of_readText backup)) backup
  · rw [after_append]
    exact (after_steps later _).backup_kept present

def noteText : Text := "<p class=\"a\">x</p>"

def note : FileTree where
  files := [(["Note.razor"], .text noteText)]

def callsOnNote : List Call := [⟨".", "a", "b", true⟩, ⟨".", "b", "c", false⟩]

/-- The second of two calls, which finds the renamed note, leaves the backup of the first one. -/
theorem note_keeps_original :
    Call.Modifies ⟨".", "b", "c", false⟩ (after [⟨".", "a", "b", true⟩] note) "Note.razor" ∧
      (after callsOnNote note).readText "Note.razor.bak" = .done noteText ∧
      (after callsOnNote note).find "Note.razor.bak" =
        (after [⟨".", "a", "b", true⟩] note).find "Note.razor.bak" := by
  have modifies :
      Call.Modifies ⟨".", "b", "c", false⟩ (after [⟨".", "a", "b", true⟩] note) "Note.razor" := by
    refine Or.inl ⟨by decide +kernel, fun kept => ?_⟩
    have same := kept ["Note.razor"] (by decide +kernel)
    revert same
    decide +kernel
  obtain ⟨holds, -⟩ := backups_hold_originals note [⟨".", "a", "b", true⟩] []
  obtain ⟨-, stays⟩ := backups_hold_originals note [⟨".", "a", "b", true⟩] [⟨".", "b", "c", false⟩]
  obtain ⟨original, reads, backup⟩ := holds _ "Note.razor" (by decide +kernel) modifies
  have first : note.readText "Note.razor" = .done noteText := by decide +kernel
  obtain rfl : noteText = original := Outcome.done.inj (first.symm.trans reads)
  exact ⟨modifies, backup, stays "Note.razor" (by decide +kernel)⟩

end TemplateMarkup.Rename
