import Mathlib.Data.List.Basic
import TemplateMarkup.Config
import TemplateMarkup.Proofs.FileTree.Search
import TemplateMarkup.Proofs.Glob

/-!
The templates of a project by default. A search without globs tells from their own names which directories
to go into; the globs that a configuration excludes by default are matched against paths below the root of
the search. Both ways shut the same directories, because such a path is excluded just when one of its names
is hidden or that of build output.
-/
namespace TemplateMarkup

/-- A name that a search without globs goes below. -/
def FileSearch.opens (name : Text) : Bool := name.head? != some '.' && !outputDirs.contains name

namespace Glob

/-- The globs that leave out hidden names and those of build output. -/
def openOnly : List Glob :=
  (FileSearch.outputDirs.flatMap fun n => [below n [], below n [.inside]]) ++
    [below ['.'] [.star], below ['.'] [.star, .inside]]

theorem outputDirs_isMatch_iff {path : Text} :
    ((FileSearch.outputDirs.flatMap fun n => [below n [], below n [.inside]]).any
        fun g => g.isMatch path) = true ↔ ∃ n ∈ FileSearch.outputDirs, n ∈ Path.pieces path := by
  rw [List.any_flatMap, List.any_eq_true]
  refine exists_congr fun n => and_congr_right fun member => ?_
  have given : ∀ n ∈ FileSearch.outputDirs, n ≠ [] := by decide
  have ascii : ∀ n ∈ FileSearch.outputDirs, n.all (·.toNat < 0x80) = true := by decide
  have plain : ∀ n ∈ FileSearch.outputDirs, '/' ∉ n := by decide
  have named : ∀ n ∈ FileSearch.outputDirs, (below n []).endsName = false := by decide
  rw [List.any_cons, List.any_cons, List.any_nil, Bool.or_false]
  exact below_name_iff (given n member) (by simpa using ascii n member) (plain n member)
    (named n member)

theorem dots_isMatch_iff {path : Text} :
    ([below ['.'] [.star], below ['.'] [.star, .inside]].any fun g => g.isMatch path) = true ↔
      ∃ piece ∈ Path.pieces path, piece.head? = some '.' := by
  rw [List.any_cons, List.any_cons, List.any_nil, Bool.or_false, Bool.or_eq_true, ← below_dot_iff]
  exact ⟨fun hit => hit.elim id below_dot_inside, Or.inl⟩

end Glob

namespace PathMatcher

def openOnly : PathMatcher := { excluded := Glob.openOnly }

theorem ofLists_default :
    ofLists ({} : Config).included ({} : Config).excluded = .ok openOnly := rfl

theorem openOnly_entersDir (path : Text) :
    openOnly.entersDir path = (Path.pieces path).all FileSearch.opens := by
  have shut : (Glob.openOnly.any fun g => g.isMatch path) = true ↔
      ∃ piece ∈ Path.pieces path, FileSearch.opens piece = false := by
    rw [Glob.openOnly, List.any_append, Bool.or_eq_true, Glob.outputDirs_isMatch_iff,
      Glob.dots_isMatch_iff]
    constructor
    · rintro (⟨n, output, member⟩ | ⟨piece, member, dotted⟩)
      · exact ⟨n, member, by simp [FileSearch.opens, output]⟩
      · exact ⟨piece, member, by simp [FileSearch.opens, dotted]⟩
    · rintro ⟨piece, member, shut⟩
      rw [FileSearch.opens, Bool.and_eq_false_iff] at shut
      rcases shut with dotted | output
      · exact Or.inr ⟨piece, member, by simpa using dotted⟩
      · exact Or.inl ⟨piece, by simpa using output, member⟩
  rw [entersDir, openOnly, Bool.eq_iff_iff, Bool.not_eq_true', ← Bool.not_eq_true, shut,
    List.all_eq_true]
  simp

theorem openOnly_takesFile (path : Text) :
    openOnly.takesFile path = (Path.pieces path).all FileSearch.opens := by
  rw [takesFile, openOnly_entersDir, show openOnly.included = none from rfl, Option.all_none,
    Bool.and_true]

end PathMatcher

def Path.isHidden (path : Text) : Bool := (fileName? path).any fun n => n.head? == some '.'

namespace FileSearch

open TemplateMarkup.Path

variable {extensions : List Text} {recursive : Bool} {t : FileTree} (regular : t.Regular)
  {root dir n : Text} {place : Place} {depth : Nat} {ancestors : List Text}

theorem extension?_outputDirs : ∀ n ∈ outputDirs, extension? n = none := by decide

section Descends

variable (descends : Descends root dir ancestors) (opened : ancestors.all opens = true)
include descends opened

theorem pieces_opened (name : IsName n) :
    (pieces (relativeTo root (join dir n))).all opens = opens n := by
  rw [(descends.join name).pieces_relative (by simp), List.all_append, opened, Bool.true_and,
    List.all_cons, List.all_nil, Bool.and_true]

theorem entersDir_openOnly (name : IsName n) :
    entersDir { extensions, recursive, matcher := some .openOnly } n (relativeTo root (join dir n)) =
      entersDir { extensions, recursive } n (relativeTo root (join dir n)) := by
  rw [entersDir, entersDir]
  dsimp only
  rw [PathMatcher.openOnly_entersDir, pieces_opened descends opened name]
  rfl

theorem taken?_openOnly (name : IsName n) :
    taken? { extensions, recursive, matcher := some .openOnly } root dir n =
      (taken? { extensions, recursive } root dir n).filter fun p => !isHidden p := by
  have file : fileName? (join dir n) = some n := by
    rw [fileName?, parts_join descends.given name, List.getLast?_concat]
  rw [taken?, taken?, takesFile, takesFile]
  dsimp only
  rw [Option.all_some, Option.all_none, PathMatcher.openOnly_takesFile,
    pieces_opened descends opened name]
  cases extension : extension? n with
  | none => rfl
  | some e =>
    -- the globs would shut a file with the name of a directory of build output too
    have plain : outputDirs.contains n = false := by
      refine Bool.eq_false_iff.mpr fun output => ?_
      rw [extension?_outputDirs n (List.contains_iff_mem.mp output)] at extension
      cases extension
    have shown : opens n = !isHidden (join dir n) := by
      rw [opens, plain, Bool.not_false, Bool.and_true, isHidden, file]
      rfl
    rw [Option.any_some, shown]
    cases extensions.any fun x => Text.equalsFold x e with
    | false => rfl
    | true => cases hidden : isHidden (join dir n) <;> simp [Option.filter, hidden]

end Descends

include regular in
/-- Step by step both searches go into the same directories, and they differ by hidden files only. -/
theorem collect_openOnly (descends : Descends root dir ancestors)
    (opened : ancestors.all opens = true) :
    collect { extensions, recursive, matcher := some .openOnly } t root depth dir place =
      (collect { extensions, recursive } t root depth dir place).filter fun p => !isHidden p := by
  induction depth generalizing dir place ancestors with
  | zero => rfl
  | succ depth ih =>
    rw [collect_succ, collect_succ, List.filter_append, List.filter_filterMap, List.filter_flatMap]
    congr 1
    · exact List.filterMap_congr fun n listed =>
        taken?_openOnly descends opened (regular.isName_file listed)
    · refine List.flatMap_congr fun d listed => ?_
      have name := regular.isName_dir listed
      rw [collectBelow, collectBelow, entersDir_openOnly descends opened name]
      split
      · rename_i enters
        have opens : opens d = true := by
          rw [entersDir, Bool.and_eq_true] at enters
          exact enters.2
        exact ih (descends.join name) (by simp [opened, opens])
      · rfl

theorem filesIn_openOnly (regular : t.Regular) :
    filesIn { extensions, recursive, matcher := some .openOnly } t dir =
      (filesIn { extensions, recursive } t dir).filter fun p => !isHidden p := by
  unfold filesIn
  split
  · rename_i place leads
    have start := Descends.start (given_of_dirPlace? leads)
    rw [collect_openOnly regular start rfl, sort_filter (collect_distinct regular start)]
  · rfl

end FileSearch

namespace Config

theorem templateFiles_eq (t : FileTree) (dir : Text) : ({} : Config).templateFiles t dir =
    (t.requireDir dir).map fun _ =>
      FileSearch.filesIn { extensions := ["razor".toList], matcher := some .openOnly } t dir := by
  rw [templateFiles, PathMatcher.ofLists_default]
  cases t.requireDir dir <;> rfl

/-- By default the templates of a directory are the files that a search for their extension finds, without
the hidden ones. Both ways list them by the order of paths, each once. -/
theorem templateFiles_default (t : FileTree) (regular : t.Regular) (dir : Text) :
    ({} : Config).templateFiles t dir =
        (t.findFiles dir ["razor".toList] true).map (List.filter fun path => !Path.isHidden path) ∧
      ∀ files, t.findFiles dir ["razor".toList] true = .ok files ∨
          ({} : Config).templateFiles t dir = .ok files →
        files.Pairwise fun p q => Path.ltParts (Path.parts p) (Path.parts q) = true := by
  have search : t.findFiles dir ["razor".toList] true = (t.requireDir dir).map fun _ =>
      FileSearch.filesIn { extensions := ["razor".toList] } t dir := by
    rw [FileTree.findFiles]
    cases t.requireDir dir <;> rfl
  rw [templateFiles_eq, search]
  cases t.requireDir dir with
  | error e => exact ⟨rfl, fun files listed => listed.elim (fun h => nomatch h) fun h => nomatch h⟩
  | ok _ =>
    refine ⟨congrArg Except.ok (FileSearch.filesIn_openOnly regular), ?_⟩
    rintro files (found | found)
    · rw [← Except.ok.inj found]
      exact FileSearch.filesIn_ascending regular
    · rw [← Except.ok.inj found]
      exact FileSearch.filesIn_ascending regular

def siteTree : FileTree where
  dirs := [["pages".toList], ["bin".toList], ["pages".toList, ".cache".toList]]
  files :=
    [(["pages".toList, "form.razor".toList], .text "<p/>"),
      (["pages".toList, ".draft.razor".toList], .text "<p/>"),
      (["pages".toList, ".cache".toList, "form.razor".toList], .text "<p/>"),
      (["bin".toList, "form.razor".toList], .text "<p/>"),
      (["App.Razor".toList], .text "<p/>"), (["notes.md".toList], .text "")]

theorem siteTree_templates :
    siteTree.Regular ∧
      siteTree.findFiles "." ["razor".toList] true =
        .ok ["./App.Razor".toList, "./pages/.draft.razor".toList, "./pages/form.razor".toList] ∧
      ({} : Config).templateFiles siteTree "." =
        .ok ["./App.Razor".toList, "./pages/form.razor".toList] := by
  have regular : siteTree.Regular := ⟨by decide, by decide, by decide, by decide⟩
  have collected : FileSearch.collect { extensions := ["razor".toList] } siteTree "." 4 "." [] =
      ["./App.Razor".toList, "./pages/form.razor".toList, "./pages/.draft.razor".toList] := by
    decide +kernel
  have found : siteTree.findFiles "." ["razor".toList] true =
      .ok ["./App.Razor".toList, "./pages/.draft.razor".toList, "./pages/form.razor".toList] :=
    congrArg Except.ok ((congrArg Path.sort collected).trans (Path.sort_eq (by decide) (by decide)))
  refine ⟨regular, found, ?_⟩
  rw [(templateFiles_default siteTree regular ".").1, found]
  rfl

end Config

end TemplateMarkup
