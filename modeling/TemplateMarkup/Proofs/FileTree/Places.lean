import TemplateMarkup.FileTree.Action
import TemplateMarkup.Proofs.Paths

/-!
Where paths lead. A path that leads to a file, or to a vacant place, does so by its last name; the
same path with a suffix leads to a neighbour. Putting content at a place changes what is found there
and nothing else: every path leads where it led before.
-/
namespace TemplateMarkup

def Found.put (place : Place) (content : Content) : Found → Found
  | .file other c => if other = place then .file place content else .file other c
  | .vacant other => if other = place then .file place content else .vacant other
  | found => found

namespace FileTree

variable {t : FileTree} {place : Place} {path : Text}

def target? (t : FileTree) (path : Text) : Option Place :=
  match t.find path with
  | .ok (.file place _) | .ok (.vacant place) => some place
  | _ => none

theorem content?_put (t : FileTree) (place other : Place) (content : Content) :
    (t.put place content).content? other = if other = place then some content else t.content? other := by
  unfold put content?
  split
  · rename_i known
    have keys : ∀ f : Place × Content,
        ((if f.1 == place then (place, content) else f).1 == other) = (f.1 == other) := by
      intro f
      split
      · rename_i here
        rw [beq_iff_eq.mp here]
      · rfl
    dsimp only
    rw [List.find?_map, Function.comp_def]
    simp only [keys]
    cases found : t.files.find? fun f => f.1 == other with
    | none =>
      have absent : other ≠ place := by
        rintro rfl
        obtain ⟨f, member, here⟩ := List.any_eq_true.mp known
        exact List.find?_eq_none.mp found f member here
      simp [absent]
    | some f =>
      have key : f.1 = other := by simpa using List.find?_some found
      by_cases same : other = place <;> simp [key, same]
  · rename_i new
    dsimp only
    rw [List.find?_append]
    by_cases same : other = place
    · have none : t.files.find? (fun f => f.1 == place) = none := by
        rw [List.find?_eq_none]
        intro f member here
        exact new (List.any_eq_true.mpr ⟨f, member, here⟩)
      simp [same, none]
    · simp [same, Ne.symm same]

theorem put_put (t : FileTree) (place : Place) (content : Content) :
    (t.put place content).put place content = t.put place content := by
  have any : ((t.put place content).files.any fun f => f.1 == place) = true := by
    unfold put
    split
    · rename_i known
      obtain ⟨f, member, here⟩ := List.any_eq_true.mp known
      refine List.any_eq_true.mpr ⟨_, List.mem_map_of_mem member, ?_⟩
      rw [if_pos here]
      exact beq_self_eq_true place
    · simp
  have kept : ∀ f ∈ (t.put place content).files,
      (if f.1 == place then (place, content) else f) = f := by
    intro f member
    unfold put at member
    split at member
    · obtain ⟨g, -, rfl⟩ := List.mem_map.mp member
      by_cases here : (g.1 == place) = true <;> simp [here]
    · rename_i new
      rcases List.mem_append.mp member with old | last
      · have other : ¬(f.1 == place) = true := fun here => new (List.any_eq_true.mpr ⟨f, old, here⟩)
        rw [if_neg other]
      · rw [List.mem_singleton.mp last]
        simp
  rw [put, if_pos any, List.map_congr_left kept, List.map_id']

theorem isDirPlace_put (t : FileTree) (place other : Place) (content : Content) :
    (t.put place content).isDirPlace other = t.isDirPlace other := by
  unfold put
  split <;> rfl

theorem lookup_put (free : t.isDirPlace place = false) (content : Content) (other : Place) :
    (t.put place content).lookup other = (t.lookup other).put place content := by
  unfold lookup
  rw [isDirPlace_put, content?_put]
  by_cases dir : t.isDirPlace other = true
  · rw [if_pos dir, if_pos dir]
    rfl
  · rw [if_neg dir, if_neg dir]
    by_cases same : other = place
    · subst same
      cases t.content? other <;> simp [Found.put]
    · cases t.content? other <;> simp [Found.put, same]

theorem workingDir?_put (t : FileTree) (place : Place) (content : Content) :
    (t.put place content).workingDir? = t.workingDir? := by
  unfold put
  split <;> rfl

theorem root_put (t : FileTree) (place : Place) (content : Content) :
    (t.put place content).root = t.root.put place content := by
  rw [root, workingDir?_put, root]
  split <;> rfl

theorem start_put (t : FileTree) (place : Place) (content : Content) (path : Text) :
    (t.put place content).start path = (t.start path).put place content := by
  rw [start, root_put, workingDir?_put, start]
  split <;> rfl

/-- What is found along a path before and after content is put at a place. -/
inductive Follows (place : Place) (content : Content) :
    Except FileFault Found → Except FileFault Found → Prop where
  | ok (found : Found) : Follows place content (.ok found) (.ok (found.put place content))
  | error {fault after : FileFault} (same : after = .nameTooLong ↔ fault = .nameTooLong) :
      Follows place content (.error fault) (.error after)

theorem step_put (free : t.isDirPlace place = false) (content : Content) (found : Found)
    (piece : Text) :
    Follows place content (t.step found piece)
      ((t.put place content).step (found.put place content) piece) := by
  cases found with
  | file other c =>
    rw [Found.put]
    split <;> exact Follows.error (by simp)
  | vacant other =>
    rw [Found.put]
    split <;> exact Follows.error (by simp)
  | above =>
    simp only [Found.put, step]
    split
    · exact Follows.ok .above
    · exact Follows.error Iff.rfl
  | dir other =>
    simp only [Found.put, step]
    split
    · exact Follows.ok (.dir other)
    · split
      · split
        · rw [root_put]
          exact Follows.ok t.root
        · exact Follows.ok (.dir other.dropLast)
      · split
        · exact Follows.error Iff.rfl
        · rw [lookup_put free content]
          exact Follows.ok _

theorem foldlM_put (free : t.isDirPlace place = false) (content : Content) (pieces : List Text)
    (found : Found) :
    Follows place content (pieces.foldlM t.step found)
      (pieces.foldlM (t.put place content).step (found.put place content)) := by
  induction pieces generalizing found with
  | nil => exact Follows.ok found
  | cons piece pieces ih =>
    have first := step_put free content found piece
    rw [List.foldlM_cons, List.foldlM_cons]
    generalize t.step found piece = before at first
    generalize (t.put place content).step (found.put place content) piece = after at first
    cases first with
    | ok next => exact ih next
    | error same => exact Follows.error same

/-- Putting content at a place changes what paths find at that place only. -/
theorem find_put (free : t.isDirPlace place = false) (content : Content) (path : Text) :
    Follows place content (t.find path) ((t.put place content).find path) := by
  unfold find
  split
  · exact Follows.error Iff.rfl
  · split
    · exact Follows.error Iff.rfl
    · rw [start_put]
      exact foldlM_put free content (Path.pieces path) (t.start path)

/-- A path leads through a directory, and from there by a name that is its last piece; with a suffix it
leads to a neighbour. -/
structure Leads (t : FileTree) (path : Text) (dir : Place) (name : Text) : Prop where
  fileName : Path.fileName? path = some name
  free : t.isDirPlace (dir ++ [name]) = false
  found : t.find path = .ok (t.lookup (dir ++ [name]))
  beside : ∀ suffix : Text, '/' ∉ suffix → '\x00' ∉ suffix →
    t.find (path ++ suffix) =
      if maxName < Text.bytes (name ++ suffix) then .error .nameTooLong
      else .ok (t.lookup (dir ++ [name ++ suffix]))

theorem lookup_cases (t : FileTree) (place : Place) :
    (t.isDirPlace place = true ∧ t.lookup place = .dir place) ∨
      (t.isDirPlace place = false ∧
        ((∃ c, t.content? place = some c ∧ t.lookup place = .file place c) ∨
          (t.content? place = none ∧ t.lookup place = .vacant place))) := by
  unfold lookup
  cases dir : t.isDirPlace place with
  | true => simp
  | false => cases t.content? place <;> simp

theorem root_cases (t : FileTree) : t.root = .dir [] ∨ t.root = .above := by
  unfold root
  cases t.workingDir?.isSome <;> simp

/-- A piece that leads to a file or a vacant place is a name in a directory. -/
theorem step_place {found next : Found} {piece : Text} (stepped : t.step found piece = .ok next)
    (reached : (∃ c, next = .file place c) ∨ next = .vacant place) :
    ∃ dir, found = .dir dir ∧ piece ≠ [] ∧ piece ≠ ['.'] ∧ piece ≠ ['.', '.'] ∧
      place = dir ++ [piece] ∧ next = t.lookup place ∧ t.isDirPlace place = false := by
  cases found with
  | file other c => cases stepped
  | vacant other => cases stepped
  | above =>
    rw [step] at stepped
    split at stepped
    · obtain rfl := Except.ok.inj stepped
      simp at reached
    · cases stepped
  | dir dir =>
    rw [step] at stepped
    split at stepped
    · obtain rfl := Except.ok.inj stepped
      simp at reached
    · rename_i solid
      split at stepped
      · split at stepped
        · obtain rfl := Except.ok.inj stepped
          rcases root_cases t with top | top <;> simp [top] at reached
        · obtain rfl := Except.ok.inj stepped
          simp at reached
      · rename_i down
        split at stepped
        · cases stepped
        · have same := Except.ok.inj stepped
          have here : place = dir ++ [piece] ∧ t.isDirPlace (dir ++ [piece]) = false := by
            rcases lookup_cases t (dir ++ [piece]) with ⟨-, isDir⟩ | ⟨free, ⟨c, -, isFile⟩ | ⟨-, vacant⟩⟩
            · rw [← same, isDir] at reached
              simp at reached
            · rw [← same, isFile] at reached
              simp at reached
              exact ⟨reached.symm, free⟩
            · rw [← same, vacant] at reached
              simp at reached
              exact ⟨reached.symm, free⟩
          rw [not_or] at solid
          exact ⟨dir, rfl, solid.1, solid.2, down, here.1, by rw [here.1, same], here.1 ▸ here.2⟩

theorem step_name (dir : Place) {piece : Text} (solid : piece ≠ [] ∧ piece ≠ ['.'] ∧ piece ≠ ['.', '.']) :
    t.step (.dir dir) piece =
      if maxName < Text.bytes piece then .error .nameTooLong else .ok (t.lookup (dir ++ [piece])) := by
  simp [step, solid]

theorem solid_append {piece : Text} (suffix : Text)
    (solid : piece ≠ [] ∧ piece ≠ ['.'] ∧ piece ≠ ['.', '.']) :
    piece ++ suffix ≠ [] ∧ piece ++ suffix ≠ ['.'] ∧ piece ++ suffix ≠ ['.', '.'] := by
  obtain ⟨first, rest, rfl⟩ := List.exists_cons_of_ne_nil solid.1
  cases rest with
  | nil => cases suffix <;> simp_all
  | cons second rest => cases rest <;> cases suffix <;> simp_all

theorem foldlM_concat (t : FileTree) (before : List Text) (last : Text) (start : Found) :
    (before ++ [last]).foldlM t.step start =
      (before.foldlM t.step start).bind fun found => t.step found last := by
  rw [List.foldlM_append]
  cases before.foldlM t.step start with
  | error fault => rfl
  | ok found =>
    show (t.step found last).bind (fun next => .ok next) = t.step found last
    cases t.step found last <;> rfl

/-- A path to a file or a vacant place goes through a directory, and from there by its last piece. -/
structure Walks (t : FileTree) (path : Text) (before : List Text) (dir : Place) (name : Text) : Prop where
  filled : path ≠ []
  clean : '\x00' ∉ path
  whole : Path.pieces path = before ++ [name]
  solid : name ≠ [] ∧ name ≠ ['.'] ∧ name ≠ ['.', '.']
  through : before.foldlM t.step (t.start path) = .ok (.dir dir)
  free : t.isDirPlace (dir ++ [name]) = false
  found : t.find path = .ok (t.lookup (dir ++ [name]))

theorem exists_walks (target : t.target? path = some place) :
    ∃ before dir name, place = dir ++ [name] ∧ t.Walks path before dir name := by
  obtain ⟨before, name, whole, -⟩ := Path.pieces_append path [] (by simp)
  obtain ⟨next, found, reached⟩ : ∃ next, t.find path = .ok next ∧
      ((∃ c, next = .file place c) ∨ next = .vacant place) := by
    unfold target? at target
    split at target
    · rename_i found
      obtain rfl := Option.some.inj target
      exact ⟨_, found, Or.inl ⟨_, rfl⟩⟩
    · rename_i found
      obtain rfl := Option.some.inj target
      exact ⟨_, found, Or.inr rfl⟩
    · cases target
  have walked := found
  unfold find at walked
  split at walked
  · cases walked
  rename_i filled
  split at walked
  · cases walked
  rename_i clean
  rw [whole, foldlM_concat] at walked
  cases walk : before.foldlM t.step (t.start path) with
  | error fault =>
    rw [walk] at walked
    cases walked
  | ok state =>
    rw [walk] at walked
    obtain ⟨dir, rfl, given, dot, dots, rfl, here, free⟩ := step_place walked reached
    exact ⟨before, dir, name, rfl, by simpa using filled, by simpa using clean, whole,
      ⟨given, dot, dots⟩, walk, free, here ▸ found⟩

theorem Walks.leads {before : List Text} {dir : Place} {name : Text}
    (walks : t.Walks path before dir name) : t.Leads path dir name := by
  obtain ⟨filled, clean, whole, solid, walk, free, found⟩ := walks
  refine ⟨?_, free, found, ?_⟩
  · exact Path.fileName?_of_pieces whole (by simp [Path.partOf?, solid])
  · intro suffix slash zero
    obtain ⟨front, last, same, longer⟩ := Path.pieces_append path suffix slash
    obtain ⟨rfl, lasts⟩ := List.append_inj' (whole.symm.trans same) rfl
    obtain rfl := List.singleton_inj.mp lasts
    -- the suffix changes neither where the path starts nor what it goes through
    have start : t.start (path ++ suffix) = t.start path := by
      obtain ⟨c, rest, rfl⟩ := List.exists_cons_of_ne_nil filled
      rfl
    have clean : ¬(path ++ suffix).contains '\x00' = true := by
      simp only [List.contains_iff_mem, List.mem_append, not_or]
      exact ⟨clean, zero⟩
    have filled : ¬(path ++ suffix).isEmpty = true := by simp [filled]
    rw [find, if_neg filled, if_neg clean, start, longer, foldlM_concat, walk]
    exact step_name dir (solid_append suffix solid)

theorem exists_leads (target : t.target? path = some place) :
    ∃ dir name, place = dir ++ [name] ∧ t.Leads path dir name := by
  obtain ⟨before, dir, name, here, walks⟩ := exists_walks target
  exact ⟨dir, name, here, walks.leads⟩

theorem find_of_target (target : t.target? path = some place) :
    t.isDirPlace place = false ∧
      ((∃ c, t.content? place = some c ∧ t.find path = .ok (.file place c)) ∨
        (t.content? place = none ∧ t.find path = .ok (.vacant place))) := by
  obtain ⟨dir, name, rfl, leads⟩ := exists_leads target
  have here := lookup_cases t (dir ++ [name])
  rw [leads.free] at here
  rw [leads.found]
  refine ⟨leads.free, ?_⟩
  simpa using here

theorem target_free (target : t.target? path = some place) : t.isDirPlace place = false :=
  (find_of_target target).1

theorem isFile_iff : t.isFile path = true ↔
    ∃ place c, t.target? path = some place ∧ t.content? place = some c := by
  constructor
  · intro file
    unfold isFile at file
    split at file
    · rename_i place c found
      have target : t.target? path = some place := by rw [target?, found]
      refine ⟨place, c, target, ?_⟩
      obtain ⟨-, ⟨c, content, same⟩ | ⟨-, vacant⟩⟩ := find_of_target target
      · rw [found] at same
        obtain ⟨-, rfl⟩ := Found.file.inj (Except.ok.inj same)
        exact content
      · rw [found] at vacant
        cases vacant
    · cases file
  · rintro ⟨place, c, target, content⟩
    obtain ⟨-, ⟨c, -, found⟩ | ⟨none, -⟩⟩ := find_of_target target
    · rw [isFile, found]
    · rw [content] at none
      cases none

theorem Leads.target_beside {dir : Place} {name suffix : Text} (leads : t.Leads path dir name)
    (slash : '/' ∉ suffix) (zero : '\x00' ∉ suffix)
    (target : t.target? (path ++ suffix) = some place) : place = dir ++ [name ++ suffix] := by
  rw [target?, leads.beside suffix slash zero] at target
  by_cases long : maxName < Text.bytes (name ++ suffix)
  · rw [if_pos long] at target
    cases target
  · rw [if_neg long] at target
    rcases lookup_cases t (dir ++ [name ++ suffix]) with ⟨-, isDir⟩ | ⟨-, ⟨c, -, isFile⟩ | ⟨-, vacant⟩⟩
    · rw [isDir] at target
      cases target
    · rw [isFile] at target
      exact (Option.some.inj target).symm
    · rw [vacant] at target
      exact (Option.some.inj target).symm

/-- Neighbours with different names are at different places. -/
theorem target_beside_inj {first second : Text} {other : Place} (target : t.target? path = some place)
    (plain : '/' ∉ first ∧ '\x00' ∉ first) (plain' : '/' ∉ second ∧ '\x00' ∉ second)
    (one : t.target? (path ++ first) = some other) (two : t.target? (path ++ second) = some other) :
    first = second := by
  obtain ⟨dir, name, rfl, leads⟩ := exists_leads target
  have same := (leads.target_beside plain.1 plain.2 one).symm.trans
    (leads.target_beside plain'.1 plain'.2 two)
  exact List.append_cancel_left (List.singleton_inj.mp (List.append_cancel_left same))

theorem target_beside_ne {suffix : Text} (target : t.target? path = some place) (given : suffix ≠ [])
    (plain : '/' ∉ suffix ∧ '\x00' ∉ suffix) : t.target? (path ++ suffix) ≠ some place := by
  intro same
  have self : t.target? (path ++ []) = some place := by rwa [List.append_nil]
  exact given (target_beside_inj target plain (by simp) same self)

/-- Where no neighbour is, there is a place for one, unless its name is too long. -/
theorem target_beside_isSome {suffix : Text} (target : t.target? path = some place)
    (slash : '/' ∉ suffix) (zero : '\x00' ∉ suffix) (absent : t.has (path ++ suffix) = false)
    (short : t.find (path ++ suffix) ≠ .error .nameTooLong) : (t.target? (path ++ suffix)).isSome := by
  obtain ⟨dir, name, rfl, leads⟩ := exists_leads target
  have found := leads.beside suffix slash zero
  by_cases long : maxName < Text.bytes (name ++ suffix)
  · rw [if_pos long] at found
    exact absurd found short
  · rw [if_neg long] at found
    rcases lookup_cases t (dir ++ [name ++ suffix]) with ⟨-, here⟩ | ⟨-, ⟨c, -, here⟩ | ⟨-, here⟩⟩
    · rw [has, isDir, found, here] at absent
      simp at absent
    · rw [has, isFile, found, here] at absent
      simp at absent
    · rw [target?, found, here]
      rfl

theorem find_beside {other suffix : Text} (first : t.target? path = some place)
    (second : t.target? other = some place) (slash : '/' ∉ suffix) (zero : '\x00' ∉ suffix) :
    t.find (path ++ suffix) = t.find (other ++ suffix) := by
  obtain ⟨dir, name, rfl, leads⟩ := exists_leads first
  obtain ⟨dir, name, same, others⟩ := exists_leads second
  obtain ⟨rfl, names⟩ := List.append_inj' same rfl
  obtain rfl := List.singleton_inj.mp names
  rw [leads.beside suffix slash zero, others.beside suffix slash zero]

end FileTree

end TemplateMarkup
