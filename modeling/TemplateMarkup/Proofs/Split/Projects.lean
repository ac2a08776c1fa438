import TemplateMarkup.Proofs.Split.Batches

/-!
Projects beside templates. The path of a template without its last name leads to the directory the
template is in, and a file that is written beside a template is no project file; so the namespace of a
template is the same whatever has been split before.
-/
namespace TemplateMarkup

namespace FileTree

variable {t u : FileTree} {path : Text} {place : Place}

theorem step_idle {start next : Found} {piece : Text} (idle : piece = [] ∨ piece = ['.'])
    (stepped : t.step start piece = .ok next) : next = start := by
  cases start with
  | file other c => cases stepped
  | vacant other => cases stepped
  | above =>
    rw [step, if_pos (idle.imp_right Or.inl)] at stepped
    exact (Except.ok.inj stepped).symm
  | dir other =>
    rw [step, if_pos idle] at stepped
    exact (Except.ok.inj stepped).symm

/-- Pieces that count for nothing can be left out on the way to a directory. -/
theorem foldlM_parts (pieces : List Text) {start : Found} {dir : Place}
    (walk : pieces.foldlM t.step start = .ok (.dir dir)) :
    ((pieces.filterMap Path.partOf?).map Path.Part.text).foldlM t.step start = .ok (.dir dir) := by
  induction pieces generalizing start with
  | nil => exact walk
  | cons piece pieces ih =>
    rw [List.foldlM_cons] at walk
    cases stepped : t.step start piece with
    | error fault =>
      rw [stepped] at walk
      cases walk
    | ok next =>
      rw [stepped] at walk
      have rest := ih walk
      cases part : Path.partOf? piece with
      | none =>
        rw [step_idle (Path.partOf?_eq_none_iff.mp part) stepped] at rest
        rw [List.filterMap_cons_none part]
        exact rest
      | some counted =>
        rw [List.filterMap_cons_some part, List.map_cons, (Path.text_of_part part).2,
          List.foldlM_cons, stepped]
        exact rest

theorem Walks.parts {before : List Text} {dir : Place} {name : Text}
    (walks : t.Walks path before dir name) :
    ((before.filterMap Path.partOf?).map Path.Part.text).foldlM t.step (t.start path) = .ok (.dir dir) :=
  foldlM_parts before walks.through

theorem Walks.mem_parts {before : List Text} {dir : Place} {name : Text} {part : Path.Part}
    (walks : t.Walks path before dir name) (member : part ∈ before.filterMap Path.partOf?) :
    part ≠ .root ∧ part.text ≠ [] ∧ '/' ∉ part.text ∧ '\x00' ∉ part.text := by
  obtain ⟨piece, listed, counts⟩ := List.mem_filterMap.mp member
  obtain ⟨inner, text⟩ := Path.text_of_part counts
  have inside : piece ∈ Path.pieces path := by
    rw [walks.whole]
    exact List.mem_append_left _ listed
  rw [text]
  refine ⟨inner, ?_, fun slash => (Path.mem_pieces inside slash).2 rfl,
    fun zero => walks.clean (Path.mem_pieces inside zero).1⟩
  rintro rfl
  cases counts

end FileTree

def Path.dirOf (path : Text) : Text :=
  let parent := (parent? path).getD []
  if parent.isEmpty then ['.'] else parent

namespace FileTree

variable {t u : FileTree} {path : Text} {place : Place}

/-- The parts that a path is joined from are neither empty nor broken. -/
def Solid (texts : List Text) : Prop := ∀ p ∈ texts, p ≠ [] ∧ '/' ∉ p ∧ '\x00' ∉ p

theorem Solid.pieces {texts : List Text} (solid : Solid texts) (given : texts ≠ []) :
    Path.pieces (Text.joinWith ['/'] texts) = texts :=
  Path.pieces_joinWith given fun p member => (solid p member).2.1

theorem Solid.clean {texts : List Text} (solid : Solid texts) : '\x00' ∉ Text.joinWith ['/'] texts := by
  intro zero
  rcases Path.mem_joinWith zero with slash | ⟨p, member, inside⟩
  · revert slash
    decide
  · exact (solid p member).2.2 inside

/-- A path that is joined from parts starts with the first of them. -/
theorem Solid.relative {texts : List Text} (solid : Solid texts) (given : texts ≠ []) :
    Text.joinWith ['/'] texts ≠ [] ∧ Path.isAbsolute (Text.joinWith ['/'] texts) = false := by
  have pieces := solid.pieces given
  obtain ⟨first, rest, rfl⟩ := List.exists_cons_of_ne_nil given
  have filled := (solid first (List.mem_cons_self ..)).1
  cases whole : Text.joinWith ['/'] (first :: rest) with
  | nil =>
    rw [whole] at pieces
    exact absurd (List.cons.inj pieces).1.symm filled
  | cons c p =>
    refine ⟨List.cons_ne_nil _ _, ?_⟩
    cases absolute : Path.isAbsolute (c :: p) with
    | false => rfl
    | true =>
      obtain rfl : c = '/' := by simpa [Path.isAbsolute] using absolute
      have split := Path.pieces_slash [] p
      rw [List.nil_append, ← whole, pieces] at split
      exact absurd (List.cons.inj split).1 filled

/-- Parts that are joined are followed one after another. -/
theorem find_joinWith {texts : List Text} (given : texts ≠ []) (solid : Solid texts) :
    t.find (Text.joinWith ['/'] texts) = texts.foldlM t.step (.dir (t.workingDir?.getD [])) := by
  obtain ⟨filled, relative⟩ := solid.relative given
  rw [find, if_neg (by simpa using filled), if_neg (by simpa using solid.clean), solid.pieces given, start,
    relative]
  rfl

theorem step_root_nil (t : FileTree) : t.step t.root [] = .ok t.root := by
  rcases root_cases t with top | top <;> simp [top, step]

/-- After a slash they are followed from the top. -/
theorem find_rooted {texts : List Text} (solid : Solid texts) :
    t.find ('/' :: Text.joinWith ['/'] texts) = texts.foldlM t.step t.root := by
  have clean : ¬('/' :: Text.joinWith ['/'] texts).contains '\x00' = true := by
    simpa using solid.clean
  have pieces := Path.pieces_slash [] (Text.joinWith ['/'] texts)
  rw [List.nil_append] at pieces
  rw [find, if_neg (by simp), if_neg clean, pieces]
  show ([] :: Path.pieces (Text.joinWith ['/'] texts)).foldlM t.step t.root = _
  rw [List.foldlM_cons, step_root_nil]
  show (Path.pieces (Text.joinWith ['/'] texts)).foldlM t.step t.root = _
  by_cases given : texts = []
  · rw [given]
    show [[]].foldlM t.step t.root = .ok t.root
    rw [List.foldlM_cons, step_root_nil]
    rfl
  · rw [solid.pieces given]

theorem find_dirOf (target : t.target? path = some place) :
    ∃ dir name, place = dir ++ [name] ∧ t.find (Path.dirOf path) = .ok (.dir dir) := by
  obtain ⟨before, dir, name, here, walks⟩ := exists_walks target
  refine ⟨dir, name, here, ?_⟩
  have part : Path.partOf? name = some (.name name) := by simp [Path.partOf?, walks.solid]
  have parts := walks.parts
  have solid : Solid ((before.filterMap Path.partOf?).map Path.Part.text) := by
    intro p member
    obtain ⟨part, listed, rfl⟩ := List.mem_map.mp member
    exact (walks.mem_parts listed).2
  unfold Path.dirOf
  rw [Path.parent?_eq walks.whole part, Path.partsBefore, Path.lead]
  rw [start] at parts
  dsimp only [Option.getD_some]
  cases absolute : Path.isAbsolute path with
  | true =>
    rw [absolute] at parts
    exact (find_rooted solid).trans parts
  | false =>
    rw [absolute] at parts
    -- a dot at the start of a path stays where it is
    have led : ∃ texts, Solid texts ∧ texts.foldlM t.step (.dir (t.workingDir?.getD [])) = .ok (.dir dir) ∧
        Path.ofParts ((if (Path.pieces path).head? = some ['.'] then [Path.Part.current] else []) ++
          before.filterMap Path.partOf?) = Text.joinWith ['/'] texts := by
      split
      · refine ⟨['.'] :: (before.filterMap Path.partOf?).map Path.Part.text, ?_, parts, ?_⟩
        · exact List.forall_mem_cons.mpr ⟨by decide, solid⟩
        · rfl
      · exact ⟨_, solid, parts, Path.ofParts_eq fun p member => (walks.mem_parts member).1⟩
    obtain ⟨texts, solid, through, joined⟩ := led
    rw [if_neg Bool.false_ne_true, joined]
    by_cases given : texts = []
    · rw [given] at through ⊢
      obtain ⟨⟨rfl⟩⟩ := through
      rfl
    · rw [if_neg (by simpa using (solid.relative given).1), find_joinWith given solid]
      exact through

end FileTree

namespace Project

open FileTree FileAction

variable {t u : FileTree} {path : Text} {place : Place}

def isProject (name : Text) : Bool := (Path.extension? name).any (Text.equalsFold extension)

theorem companion_not_project {dir : Place} {name x : Text} (template : Path.isTemplate path = true)
    (target : t.target? path = some place) (member : x ∈ companions Split.suffixes path)
    (there : t.target? x = some (dir ++ [name])) : isProject name = false := by
  cases project : isProject name with
  | false => rfl
  | true =>
    obtain ⟨dir', first, rfl, leads⟩ := exists_leads target
    obtain ⟨_, second, same, others⟩ := exists_leads there
    obtain rfl : name = second := List.singleton_inj.mp (List.append_inj' same rfl).2
    obtain ⟨s, listed, same⟩ := leads.target_companion Split.suffixes_proper member there
    obtain rfl : name = first ++ s := List.singleton_inj.mp (List.append_inj' same rfl).2
    have ends := Path.extension_ends (by decide) project (Path.isName_of_fileName? others.fileName).fileName?
    rcases listed with rfl | listed
    · obtain ⟨c, last, lower⟩ := Path.isTemplate_ends template leads.fileName
      rw [List.append_nil, last, Option.map_some, lower] at ends
      exact absurd ends (by decide)
    · have last : (first ++ s).getLast?.map Char.toLower = s.getLast?.map Char.toLower := by
        rw [List.getLast?_append, List.getLast?_eq_some_getLast (Split.suffixes_proper.given s listed)]
        rfl
      have other : ∀ s ∈ Split.suffixes,
          s.getLast?.map Char.toLower ≠ extension.getLast?.map Char.toLower := by decide
      exact absurd (last.symm.trans ends) (other s listed)

theorem nameIn?_concat (dir other : Place) (name : Text) :
    nameIn? other (dir ++ [name]) = if dir = other then some name else none := by
  simp [nameIn?]

theorem fileIn?_put {dir : Place} {name : Text} (content : Content) (other : isProject name = false)
    (p : Place) : fileIn? (t.put (dir ++ [name]) content) p = fileIn? t p := by
  have names : ((t.put (dir ++ [name]) content).fileNames p).filter isProject =
      (t.fileNames p).filter isProject := by
    unfold FileTree.put FileTree.fileNames
    split
    · dsimp only
      rw [List.filterMap_map]
      have keys : ((fun f : Place × Content => nameIn? p f.1) ∘ fun f =>
          if f.1 == dir ++ [name] then (dir ++ [name], content) else f) = fun f => nameIn? p f.1 := by
        funext f
        simp only [Function.comp_apply]
        split
        · rename_i here
          rw [beq_iff_eq.mp here]
        · rfl
      rw [keys]
    · dsimp only
      rw [List.filterMap_append, List.filter_append, List.filterMap_cons, nameIn?_concat]
      by_cases same : dir = p
      · simp [same, other]
      · simp [same]
  unfold fileIn?
  exact congrArg (fun names => (names.mergeSort Text.le).head?) names

/-- What is written beside templates leaves the projects as they are. -/
theorem fileIn?_written {ws : List (Text × Text)} (written : Written t ws u)
    (others : ∀ w ∈ ws, ∀ dir name, t.target? w.1 = some (dir ++ [name]) → isProject name = false)
    (p : Place) : fileIn? u p = fileIn? t p := by
  induction written with
  | nil => rfl
  | @cons t u place path content ws target later ih =>
    have same := (put_extends (target_free target) (.text content)).target
    obtain ⟨dir, name, rfl, -⟩ := exists_leads target
    rw [ih, fileIn?_put _ (others _ (List.mem_cons_self ..) dir name target)]
    intro w member dir' name' there
    rw [same] at there
    exact others w (List.mem_cons_of_mem _ member) dir' name' there

end Project

theorem Namespace.resolve_congr {t u : FileTree} {path : Text} {place : Place} (template : Text)
    (target : t.target? path = some place) (same : u.target? path = some place)
    (top : u.workingDir? = t.workingDir?) (projects : ∀ p, Project.fileIn? u p = Project.fileIn? t p) :
    Namespace.resolve u template path = Namespace.resolve t template path := by
  obtain ⟨dir, name, rfl, here⟩ := FileTree.find_dirOf target
  obtain ⟨dir', name', places, there⟩ := FileTree.find_dirOf same
  obtain rfl : dir = dir' := (List.append_inj' places rfl).1
  have above : Project.above? u dir = Project.above? t dir := by
    unfold Project.above? Project.atDepth? Project.pathTo
    simp only [projects, top]
  have project : Project.namespace? u (Path.dirOf path) = Project.namespace? t (Path.dirOf path) := by
    rw [Project.namespace?, Project.namespace?, Project.find?, Project.find?, here, there]
    dsimp only
    rw [above]
  unfold Path.dirOf at project
  unfold Namespace.resolve
  dsimp only at project ⊢
  rw [project]

end TemplateMarkup
