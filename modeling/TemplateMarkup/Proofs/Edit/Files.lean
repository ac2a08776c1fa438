import TemplateMarkup.Edit.File
import TemplateMarkup.Proofs.FileTree.Batches

/-!
Edits, merges and renamings in files. Each of them reads first and writes last, and the backup comes
before the file. Whether a class can be renamed in a file depends on that file and its backup alone.
-/
namespace TemplateMarkup

open FileTree FileAction

namespace Edit

variable {t u : FileTree} {path : Text} {edits : List Edit}

def plan (path : Text) (edits : List Edit) (t : FileTree) : Outcome (List (Text × Text) × Unit) :=
  (t.readText path).bind fun text =>
    (applyAll text edits).bind fun edited => .done ([(path, edited)], ())

theorem file_eq (path : Text) (edits : List Edit) (t : FileTree) :
    file path edits t = carryOut (plan path edits t) t :=
  observe_carryOut fun text => ofOutcome_carryOut fun edited => by
    simp only [carryOut, writeAll, bind_pure_unit]

theorem plan_done {ws : List (Text × Text)} (planned : plan path edits t = .done (ws, ())) :
    ∃ edited, ws = [(path, edited)] := by
  obtain ⟨text, -, planned⟩ := Outcome.bind_done_iff.mp planned
  obtain ⟨edited, -, ⟨⟩⟩ := Outcome.bind_done_iff.mp planned
  exact ⟨edited, rfl⟩

theorem file_undone {result : Outcome Unit} (run : file path edits t = (result, u))
    (undone : ∀ answer, result ≠ .done answer) : u = t := by
  rw [file_eq] at run
  refine carryOut_undone (fun ws answer planned w member => ?_) run undone
  obtain ⟨edited, rfl⟩ := plan_done planned
  cases member

theorem file_changes (run : file path edits t = (.done (), u)) : t.ChangesOnly u [path] := by
  rw [file_eq, carryOut_done_iff] at run
  obtain ⟨ws, planned, written⟩ := run
  obtain ⟨edited, rfl⟩ := plan_done planned
  exact written.changesOnly

end Edit

namespace MergeOptions

variable {t u : FileTree} {o : MergeOptions} {logic design : Text}

def plan (o : MergeOptions) (logic design : Text) (t : FileTree) :
    Outcome (List (Text × Text) × Nat) :=
  (t.readText logic).bind fun logicText =>
    (t.readText design).bind fun designText =>
      (o.merge logicText designText).bind fun result =>
        .done ([(logic ++ backupSuffix, logicText), (logic, result.content)], result.merged)

theorem mergeFiles_eq (o : MergeOptions) (logic design : Text) (t : FileTree) :
    o.mergeFiles logic design t = carryOut (o.plan logic design t) t :=
  observe_carryOut fun logicText => observe_carryOut fun designText => ofOutcome_carryOut fun result => by
    simp only [carryOut, writeAll, backupOverwrite, bind_assoc, pure_bind]

theorem plan_done {ws : List (Text × Text)} {merged : Nat}
    (planned : o.plan logic design t = .done (ws, merged)) :
    (t.target? logic).isSome ∧
      ∃ backup content, ws = [(logic ++ backupSuffix, backup), (logic, content)] := by
  obtain ⟨logicText, reads, planned⟩ := Outcome.bind_done_iff.mp planned
  obtain ⟨designText, -, planned⟩ := Outcome.bind_done_iff.mp planned
  obtain ⟨result, -, ⟨⟩⟩ := Outcome.bind_done_iff.mp planned
  obtain ⟨place, target, -⟩ := readText_iff.mp reads
  exact ⟨by simp [target], logicText, result.content, rfl⟩

theorem mergeFiles_undone {result : Outcome Nat} (run : o.mergeFiles logic design t = (result, u))
    (undone : ∀ merged, result ≠ .done merged) : u = t := by
  rw [mergeFiles_eq] at run
  refine carryOut_undone (fun ws merged planned w member => ?_) run undone
  obtain ⟨target, backup, content, rfl⟩ := plan_done planned
  rw [List.mem_singleton.mp member]
  exact target

theorem mergeFiles_changes {merged : Nat} (run : o.mergeFiles logic design t = (.done merged, u)) :
    t.ChangesOnly u [logic, logic ++ backupSuffix] := by
  rw [mergeFiles_eq, carryOut_done_iff] at run
  obtain ⟨ws, planned, written⟩ := run
  obtain ⟨-, backup, content, rfl⟩ := plan_done planned
  refine written.changesOnly.mono fun p member => ?_
  simpa [or_comm] using member

end MergeOptions

namespace Rename

variable {t u : FileTree} {old new path : Text} {count : Nat}

/-- What a renaming writes: the backup, unless there is one already, and the file. -/
def writes (t : FileTree) (path text renamed : Text) : List (Text × Text) :=
  (if t.has (path ++ backupSuffix) then [] else [(path ++ backupSuffix, text)]) ++ [(path, renamed)]

def plan (old new path : Text) (t : FileTree) : Outcome (List (Text × Text) × Nat) :=
  (t.readText path).bind fun text =>
    (Outcome.ofOption (Edit.renameClass? text old new)).bind fun renamed =>
      .done (if 0 < renamed.2 then writes t path text renamed.1 else [], renamed.2)

theorem file_eq (old new path : Text) (t : FileTree) :
    file old new path t = carryOut (plan old new path t) t := by
  refine observe_carryOut fun text => ofOutcome_carryOut fun renamed => ?_
  by_cases some : 0 < renamed.2
  · simp only [some, if_true, backupOnce, bind_assoc, look_bind, writes, carryOut]
    cases t.has (path ++ backupSuffix) <;> simp [writeAll]
  · simp only [some, if_false]
    rfl

theorem plan_done_iff {ws : List (Text × Text)} : plan old new path t = .done (ws, count) ↔
    ∃ text renamed, t.readText path = .done text ∧
      Edit.renameClass? text old new = some (renamed, count) ∧
      ws = if 0 < count then writes t path text renamed else [] := by
  unfold plan
  rw [Outcome.bind_done_iff]
  refine exists_congr fun text => ?_
  cases Edit.renameClass? text old new with
  | none => simp [Outcome.ofOption, Outcome.bind]
  | some renamed =>
    obtain ⟨renamed, n⟩ := renamed
    simp only [Outcome.ofOption, Outcome.bind, Outcome.done.injEq, Prod.mk.injEq, Option.some.injEq]
    constructor
    · rintro ⟨reads, rfl, rfl⟩
      exact ⟨renamed, reads, ⟨rfl, rfl⟩, rfl⟩
    · rintro ⟨_, reads, ⟨rfl, rfl⟩, rfl⟩
      exact ⟨reads, rfl, rfl⟩

theorem file_done_iff : file old new path t = (.done count, u) ↔
    ∃ text renamed, t.readText path = .done text ∧
      Edit.renameClass? text old new = some (renamed, count) ∧
      Written t (if 0 < count then writes t path text renamed else []) u := by
  rw [file_eq, carryOut_done_iff]
  constructor
  · rintro ⟨ws, planned, written⟩
    obtain ⟨text, renamed, reads, renames, rfl⟩ := plan_done_iff.mp planned
    exact ⟨text, renamed, reads, renames, written⟩
  · rintro ⟨text, renamed, reads, renames, written⟩
    exact ⟨_, plan_done_iff.mpr ⟨text, renamed, reads, renames, rfl⟩, written⟩

def suffixes : List Text := [backupSuffix]

theorem suffixes_proper : Suffixes suffixes where
  plain := by decide
  given := by decide
  apart := by decide
  ends := by decide

theorem writes_companions {text renamed : Text} {w : Text × Text}
    (member : w ∈ writes t path text renamed) : w.1 ∈ companions suffixes path := by
  rcases List.mem_append.mp member with backup | file
  · split at backup
    · cases backup
    · rw [List.mem_singleton.mp backup]
      exact List.mem_cons_of_mem _ (List.mem_singleton_self _)
  · rw [List.mem_singleton.mp file]
    exact List.mem_cons_self ..

theorem file_undone {result : Outcome Nat} (run : file old new path t = (result, u))
    (undone : ∀ count, result ≠ .done count) : u = t := by
  rw [file_eq] at run
  refine carryOut_undone (fun ws count planned w member => ?_) run undone
  obtain ⟨text, renamed, reads, -, rfl⟩ := plan_done_iff.mp planned
  obtain ⟨place, target, -⟩ := readText_iff.mp reads
  have last : w = (path, renamed) := by
    unfold writes at member
    split at member
    · split at member
      · cases member
      · exact List.mem_singleton.mp member
    · cases member
  rw [last, target]
  rfl

/-- A file in which a class can be renamed: a text, with room for the backup if it is needed. -/
structure Ready (old new : Text) (t : FileTree) (path : Text) (place : Place) (text : Text) : Prop where
  target : t.target? path = some place
  content : t.content? place = some (.text text)
  backup : ∀ renamed count, Edit.renameClass? text old new = some (renamed, count) → 0 < count →
    t.find (path ++ backupSuffix) ≠ .error .nameTooLong

def Good (old new : Text) (t : FileTree) (path : Text) : Prop :=
  ∃ place text, Ready old new t path place text

theorem backup_found {text renamed : Text}
    (written : Written t (writes t path text renamed) u) :
    t.find (path ++ backupSuffix) ≠ .error .nameTooLong := by
  refine find_ok ?_ .nameTooLong
  by_cases has : t.has (path ++ backupSuffix) = true
  · exact Or.inl has
  · refine Or.inr (written.leads (path ++ backupSuffix, text) ?_)
    rw [writes, if_neg has]
    exact List.mem_cons_self ..

theorem good_of_done (run : file old new path t = (.done count, u)) : Good old new t path := by
  obtain ⟨text, renamed, reads, renames, written⟩ := file_done_iff.mp run
  obtain ⟨place, target, content⟩ := readText_iff.mp reads
  refine ⟨place, text, target, content, fun other n again some => ?_⟩
  obtain ⟨-, rfl⟩ := Prod.mk.inj (Option.some.inj (renames.symm.trans again))
  rw [if_pos some] at written
  exact backup_found written

theorem Good.not_failed (good : Good old new t path) {e : Error} :
    file old new path t ≠ (.failed e, u) := by
  obtain ⟨place, text, ready⟩ := good
  have reads := readText_iff.mpr ⟨place, ready.target, ready.content⟩
  intro failed
  cases renames : Edit.renameClass? text old new with
  | none =>
    rw [file_eq, plan, reads] at failed
    simp only [Outcome.bind, renames, Outcome.ofOption] at failed
    cases failed
  | some renamed =>
    obtain ⟨renamed, count⟩ := renamed
    have lead : ∀ w ∈ if 0 < count then writes t path text renamed else [],
        (t.target? w.1).isSome := by
      intro w member
      split at member
      · rename_i some
        rcases List.mem_append.mp member with backup | file
        · split at backup
          · cases backup
          · rename_i absent
            rw [List.mem_singleton.mp backup]
            exact target_beside_isSome ready.target (by decide) (by decide)
              (Bool.not_eq_true _ ▸ absent) (ready.backup renamed count renames some)
        · rw [List.mem_singleton.mp file, ready.target]
          rfl
      · cases member
    obtain ⟨v, written⟩ := exists_written _ lead
    rw [file_done_iff.mpr ⟨text, renamed, reads, renames, written⟩] at failed
    cases failed

theorem file_steady (old new : Text) :
    Steady (fun f => (file old new f).attempt) (·.isOk) suffixes (fun _ f => Path.isTemplate f = true)
      (Good old new) where
  proper := suffixes_proper
  template listed := listed
  listed _ listed := listed
  told {t u f b} _ run := by
    rcases attempt_cases run with ⟨count, rfl, done⟩ | ⟨e, rfl, failed⟩
    · exact iff_of_true rfl (good_of_done done)
    · exact iff_of_false (by simp [Except.isOk, Except.toBool]) fun good => good.not_failed failed
  undone {t u f b} _ run bad := by
    rcases attempt_cases run with ⟨count, rfl, done⟩ | ⟨e, rfl, failed⟩
    · cases bad
    · exact file_undone failed (by simp)
  writes {t u f b} _ run good := by
    rcases attempt_cases run with ⟨count, rfl, done⟩ | ⟨e, rfl, failed⟩
    · have before := good_of_done done
      obtain ⟨text, renamed, reads, -, written⟩ := file_done_iff.mp done
      refine ⟨?_, _, written, fun w member => ?_⟩
      · split at written
        · obtain ⟨place, target, -⟩ := readText_iff.mp reads
          obtain ⟨v, here, -, same, rfl⟩ := written.last
          obtain rfl : place = here := Option.some.inj (target.symm.trans same)
          -- whatever the renamed text calls for next, its backup is there
          refine ⟨place, renamed, (written.extends.target f).trans target, ?_, fun _ _ _ _ => ?_⟩
          · rw [content?_put, if_pos rfl]
          · exact mt (written.extends.tooLong _).mp (backup_found written)
        · cases written
          exact before
      · split at member
        · exact writes_companions member
        · cases member
    · cases good
  leads := by
    rintro t f ⟨place, text, ready⟩
    rw [ready.target]
    rfl
  same := by
    rintro t f g p first second ⟨place, text, ready⟩
    obtain rfl : p = place := Option.some.inj (second.symm.trans ready.target)
    have found := find_beside first second (by decide : '/' ∉ backupSuffix) (by decide)
    exact ⟨p, text, first, ready.content, found ▸ ready.backup⟩
  own {t u f} extended kept := by
    refine exists_congr fun place => exists_congr fun text => ?_
    constructor
    · rintro ⟨target, content, backup⟩
      rw [extended.target] at target
      rw [kept f (List.mem_cons_self ..) place target] at content
      exact ⟨target, content, fun r n renames some => mt (extended.tooLong _).mpr (backup r n renames some)⟩
    · rintro ⟨target, content, backup⟩
      refine ⟨(extended.target f).trans target, ?_,
        fun r n renames some => mt (extended.tooLong _).mp (backup r n renames some)⟩
      rw [kept f (List.mem_cons_self ..) place target, content]

end Rename

end TemplateMarkup
