import TemplateMarkup.Proofs.FileTree.Batches
import TemplateMarkup.Proofs.Split.Files

/-!
Batches of templates to split. The files beside one template are not those of another one, so what
becomes of a template does not depend on the others; a batch always comes to its end.
-/
namespace TemplateMarkup.Split

open FileTree FileAction

variable {t u : FileTree} {path template message : Text} {place : Place}

theorem suffixes_proper : Suffixes suffixes where
  plain := by decide
  given := by decide
  apart := by decide
  ends := by decide

def Good (t : FileTree) (path : Text) : Prop := ∃ place template, Ready t path place template

def Listed (t : FileTree) (path : Text) : Prop :=
  Path.isTemplate path = true ∧ t.find (Path.companionStylesheet path) ≠ .error .nameTooLong

theorem good_iff : Good t path ↔ ∃ message u, file path t = (.done message, u) := by
  constructor
  · rintro ⟨place, template, ready⟩
    exact ⟨_, ready.file_done⟩
  · rintro ⟨message, u, split⟩
    obtain ⟨place, template, ready, -⟩ := file_done_iff.mp split
    exact ⟨place, template, ready⟩

/-- A template of a batch is split, or it is told why not. -/
theorem batchItem_cases (path : Text) (t : FileTree) :
    (∃ message u, file path t = (.done message, u) ∧ batchItem path t = (.done ⟨path, .ok⟩, u)) ∨
      ∃ e u status, file path t = (.failed e, u) ∧ status.isOk = false ∧
        batchItem path t = (.done ⟨path, status⟩, u) := by
  unfold batchItem
  rw [look_bind]
  cases isFile : t.isFile path with
  | false =>
    refine Or.inr ⟨.fileNotFound path, t, .skipped "Not Found", ?_, rfl, rfl⟩
    unfold file
    rw [look_bind, isFile]
    rfl
  | true =>
    rw [if_neg (by decide), bind_apply, attempt]
    rcases run : file path t with ⟨message | e | _, u⟩
    · exact Or.inl ⟨message, u, rfl, rfl⟩
    · exact Or.inr ⟨e, u, .failed e.message, rfl, rfl, rfl⟩
    · rw [file_eq] at run
      exact absurd (carryOut_brokenOff run) plan_never_brokenOff

theorem Ready.same {other : Text} (ready : Ready t other place template)
    (target : t.target? path = some place) : Ready t path place template := by
  refine ⟨target, ready.content, fun p member => ?_⟩
  obtain ⟨suffix, new, rfl⟩ := List.mem_map.mp member
  obtain ⟨slash, zero⟩ := suffixes_proper.plain suffix (newSuffixes_subset new)
  have found := find_beside target ready.target slash zero
  rw [has, isFile, isDir, target?, found]
  exact ready.new _ (List.mem_map_of_mem new)

theorem newPaths_companions {p : Text} (member : p ∈ newPaths path template) :
    p ∈ companions suffixes path := by
  obtain ⟨suffix, new, rfl⟩ := List.mem_map.mp member
  exact List.mem_cons_of_mem _ (List.mem_map_of_mem (newSuffixes_subset new))

/-- Only a template's own files decide whether it can be split. -/
theorem ready_iff (extended : t.Extends u) (kept : ∀ p ∈ companions suffixes path, t.Keeps u p) :
    Ready u path place template ↔ Ready t path place template := by
  have own : ∀ p ∈ newPaths path template,
      (u.has p = false ∧ (u.target? p).isSome ↔ t.has p = false ∧ (t.target? p).isSome) := by
    intro p member
    rw [extended.has_eq (kept p (newPaths_companions member)), extended.target]
  constructor
  · rintro ⟨target, content, new⟩
    rw [extended.target] at target
    rw [kept path (List.mem_cons_self ..) place target] at content
    exact ⟨target, content, fun p member => (own p member).mp (new p member)⟩
  · rintro ⟨target, content, new⟩
    refine ⟨(extended.target path).trans target, ?_, fun p member => (own p member).mpr (new p member)⟩
    rw [kept path (List.mem_cons_self ..) place target, content]

theorem batchItem_steady : Steady batchItem (·.status.isOk) suffixes Listed Good where
  proper := suffixes_proper
  template listed := listed.1
  listed extended listed := ⟨listed.1, mt (extended.tooLong _).mp listed.2⟩
  told {t u f item} _ run := by
    rcases batchItem_cases f t with ⟨message, v, split, told⟩ | ⟨e, v, status, failed, bad, told⟩
    · obtain ⟨⟨rfl⟩, -⟩ := Prod.mk.inj (told.symm.trans run)
      exact iff_of_true rfl (good_iff.mpr ⟨message, v, split⟩)
    · obtain ⟨⟨rfl⟩, -⟩ := Prod.mk.inj (told.symm.trans run)
      refine iff_of_false (by simp [bad]) fun good => ?_
      obtain ⟨message, w, split⟩ := good_iff.mp good
      rw [failed] at split
      cases split
  undone {t u f item} listed run bad := by
    rcases batchItem_cases f t with ⟨message, v, split, told⟩ | ⟨e, v, status, failed, -, told⟩
    · obtain ⟨⟨rfl⟩, -⟩ := Prod.mk.inj (told.symm.trans run)
      cases bad
    · obtain ⟨-, rfl⟩ := Prod.mk.inj (told.symm.trans run)
      exact file_undone listed.2 failed (by simp)
  writes {t u f item} listed run good := by
    rcases batchItem_cases f t with ⟨message, v, split, told⟩ | ⟨e, v, status, failed, bad, told⟩
    · obtain ⟨-, rfl⟩ := Prod.mk.inj (told.symm.trans run)
      obtain ⟨place, template, ready, -, written⟩ := file_done_iff.mp split
      -- what is left can be split again, since nothing in it goes to other files
      have target := (written.extends.target f).trans ready.target
      have after := ready_of_settled target (content?_of_written ready.target written)
        (Region.markupOf_settled template)
      refine ⟨⟨place, _, after⟩, _, written, fun w member => ?_⟩
      rcases List.mem_append.mp member with new | last
      · exact newPaths_companions (newFiles_path t new)
      · rw [List.mem_singleton.mp last]
        exact List.mem_cons_self ..
    · obtain ⟨⟨rfl⟩, -⟩ := Prod.mk.inj (told.symm.trans run)
      rw [bad] at good
      cases good
  leads := by
    rintro t f ⟨place, template, ready⟩
    rw [ready.target]
    rfl
  same := by
    rintro t f g p first second ⟨place, template, ready⟩
    obtain rfl : p = place := Option.some.inj (second.symm.trans ready.target)
    exact ⟨p, template, ready.same first⟩
  own extended kept := exists_congr fun place => exists_congr fun template => ready_iff extended kept

theorem exists_run (paths : List Text) (t : FileTree) :
    ∃ (items : List BatchItem) (u : FileTree), items.map (·.path) = paths ∧
      Run batchItem t (items.map fun i => (i.path, i)) u := by
  induction paths generalizing t with
  | nil => exact ⟨[], t, rfl, Run.nil⟩
  | cons path paths ih =>
    obtain ⟨status, v, first⟩ : ∃ status v, batchItem path t = (.done ⟨path, status⟩, v) := by
      rcases batchItem_cases path t with ⟨message, v, -, told⟩ | ⟨e, v, status, -, -, told⟩
      · exact ⟨.ok, v, told⟩
      · exact ⟨status, v, told⟩
    obtain ⟨items, u, rfl, later⟩ := ih v
    exact ⟨⟨path, status⟩ :: items, u, rfl, Run.cons first later⟩

theorem batch_run (items : List BatchItem)
    (run : Run batchItem t (items.map fun i => (i.path, i)) u) :
    batch (items.map (·.path)) t = (.done ⟨items⟩, u) := by
  have mapped : (items.map (·.path)).mapM batchItem t = (.done items, u) :=
    mapM_done_iff.mpr ⟨_, by simp, by simp [Function.comp_def], run⟩
  unfold batch
  rw [bind_apply, mapped]
  rfl

/-- A batch goes on where a template cannot be split: that one is kept, and the others are split as they
would be without it. -/
theorem batch_goes_on (paths : List Text) (listed : ∀ p ∈ paths, Listed t p) :
    ∃ items u, batch paths t = (.done ⟨items⟩, u) ∧ items.map (·.path) = paths ∧
      ∀ i ∈ items, i.status.isOk = false →
        t.Keeps u i.path ∧
          batch (paths.filter (· ≠ i.path)) t = (.done ⟨items.filter (·.path ≠ i.path)⟩, u) := by
  obtain ⟨items, u, rfl, run⟩ := exists_run paths t
  have here : ∀ r ∈ items.map fun i => (i.path, i), Listed t r.1 := by
    intro r member
    obtain ⟨i, listedItem, rfl⟩ := List.mem_map.mp member
    exact listed _ (List.mem_map_of_mem listedItem)
  obtain ⟨-, told, kept⟩ := batchItem_steady.run_settled run here
  refine ⟨items, u, batch_run items run, rfl, fun i member failed => ?_⟩
  have own : (i.path, i) ∈ items.map fun i => (i.path, i) := List.mem_map_of_mem member
  have bad : ¬Good t i.path := by
    rw [← told _ own, failed]
    simp
  refine ⟨kept i.path (here _ own) bad, ?_⟩
  have without := batchItem_steady.run_without run here (here _ own) bad
  rw [List.filter_map] at without ⊢
  exact batch_run _ without

end TemplateMarkup.Split
