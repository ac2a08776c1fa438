import TemplateMarkup.Proofs.Edit.Batches
import TemplateMarkup.Proofs.Split.Batches

/-!
What operations on files leave alone. An operation that fails has changed nothing, and one that succeeds
has changed its own files only; in a batch this holds for each file.
-/
namespace TemplateMarkup

open FileTree FileAction

/-- An action that fails changes nothing; one that gives an answer changes only the files that some
paths lead to. -/
structure FileAction.Contained {α : Type} (x : FileAction α) (t : FileTree) (own : α → List Text) :
    Prop where
  failed : ∀ e u, x t = (.failed e, u) → u = t
  done : ∀ answer u, x t = (.done answer, u) → t.ChangesOnly u (own answer)

/-- Edits, merges, splits and renamings are contained in their own files, and batches of splits and
renamings in those of the files that do not fail. -/
theorem operations_contained (t : FileTree) :
    (∀ path edits, (Edit.file path edits).Contained t fun _ => [path]) ∧
    (∀ (o : MergeOptions) logic design,
      (o.mergeFiles logic design).Contained t fun _ => [logic, logic ++ backupSuffix]) ∧
    (∀ path, t.PlainWrites (Path.companionStylesheet path) →
      (Split.file path).Contained t fun _ =>
        path :: [Path.codeBehind path, Path.companionStylesheet path].filter fun p => !t.has p) ∧
    (∀ dir old new recursive,
      (Rename.inDir dir old new recursive).Contained t fun report =>
        report.modified.flatMap fun f => [f, f ++ backupSuffix]) ∧
    (∀ dir old new recursive report u, Rename.inDir dir old new recursive t = (.done report, u) →
      ∃ found, t.findFiles dir [templateExtension] recursive = .ok found ∧
        Rename.files old new {} found t = (.done report, u) ∧
        ∀ e ∈ report.errors, t.Keeps u e.1 ∧
          Rename.files old new {} (found.filter (· ≠ e.1)) t =
            (.done
              { report with
                processed := (found.filter (· ≠ e.1)).length
                errors := report.errors.filter (·.1 ≠ e.1) }, u)) ∧
    ∀ paths : List Text, (∀ p ∈ paths, Path.isTemplate p = true) →
      (∀ p ∈ paths, t.PlainWrites (Path.companionStylesheet p)) →
      ∃ items u, Split.batch paths t = (.done ⟨items⟩, u) ∧ items.map (·.path) = paths ∧
        ∀ i ∈ items, i.status.isOk = false →
          t.Keeps u i.path ∧
            Split.batch (paths.filter (· ≠ i.path)) t =
              (.done ⟨items.filter (·.path ≠ i.path)⟩, u) := by
  refine ⟨fun path edits => ⟨?_, ?_⟩, fun o logic design => ⟨?_, ?_⟩, fun path plain => ⟨?_, ?_⟩,
    fun dir old new recursive => ⟨?_, ?_⟩, ?_, fun paths templates plain => ?_⟩
  · exact fun e u run => Edit.file_undone run (by simp)
  · exact fun _ u run => Edit.file_changes run
  · exact fun e u run => MergeOptions.mergeFiles_undone run (by simp)
  · exact fun _ u run => MergeOptions.mergeFiles_changes run
  · exact fun e u run => Split.file_undone plain.short run (by simp)
  · exact fun _ u run => Split.file_changes run
  · exact fun e u run => Rename.inDir_failed run
  · exact fun report u run => (Rename.inDir_done run).1
  · exact fun dir old new recursive report u run => (Rename.inDir_done run).2
  · exact Split.batch_goes_on paths fun p member => ⟨templates p member, (plain p member).short⟩

def styledText : Text := "<p></p><style>p \x7b\x7d</style>"

/-- Two templates with styles; for one of them there is a stylesheet already. -/
def twoCards : FileTree where
  files :=
    [(["A.razor"], .text styledText), (["A.razor.css"], .text []), (["B.razor"], .text styledText)]

def twoCardsLater : FileTree where
  files :=
    [(["A.razor"], .text styledText), (["A.razor.css"], .text []), (["B.razor"], .text "<p></p>"),
      (["B.razor.css"], .text "p \x7b\x7d")]

theorem twoCards_plain {p : Text} (member : p ∈ (["A.razor", "B.razor"] : List Text)) :
    twoCards.PlainWrites (Path.companionStylesheet p) := by
  intro content fault failed
  have leads : ∀ p ∈ (["A.razor", "B.razor"] : List Text),
      (twoCards.target? (Path.companionStylesheet p)).isSome := by decide +kernel
  obtain ⟨place, target⟩ := Option.isSome_iff_exists.mp (leads p member)
  obtain ⟨-, ⟨c, -, found⟩ | ⟨-, found⟩⟩ := find_of_target target <;>
    · rw [FileTree.write, found] at failed
      cases failed

def refusedCard : BatchItem :=
  ⟨"A.razor", .failed "Refusing to overwrite existing file: A.razor.css"⟩

/-- The first card is not split, the other one is. -/
theorem twoCards_contained :
    Split.batch ["A.razor", "B.razor"] twoCards =
        (.done ⟨[refusedCard, ⟨"B.razor", .ok⟩]⟩, twoCardsLater) ∧
      twoCards.Keeps twoCardsLater "A.razor" ∧
      Split.batch ["B.razor"] twoCards = (.done ⟨[⟨"B.razor", .ok⟩]⟩, twoCardsLater) := by
  have first : Split.batchItem "A.razor" twoCards = (.done refusedCard, twoCards) := by decide +kernel
  have second : Split.batchItem "B.razor" twoCards = (.done ⟨"B.razor", .ok⟩, twoCardsLater) := by
    decide +kernel
  have whole := Split.batch_run [refusedCard, ⟨"B.razor", .ok⟩]
    (Run.cons first (Run.cons second Run.nil))
  obtain ⟨items, u, batch, -, goesOn⟩ := (operations_contained twoCards).2.2.2.2.2
    ["A.razor", "B.razor"] (by decide) fun p member => twoCards_plain member
  obtain ⟨⟨⟨rfl⟩⟩, rfl⟩ := Prod.mk.inj (whole.symm.trans batch)
  obtain ⟨kept, without⟩ := goesOn refusedCard (List.mem_cons_self ..) rfl
  exact ⟨whole, kept, without⟩

end TemplateMarkup
