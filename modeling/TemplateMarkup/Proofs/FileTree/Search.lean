import TemplateMarkup.FileTree.Search
import TemplateMarkup.Proofs.Order
import TemplateMarkup.Proofs.Paths

/-!
What searches find. A search goes down by names, and what it finds in a directory lies below it. In a tree
that lists each place once, no path is found twice, so that what is found ascends.
-/
namespace TemplateMarkup

namespace Path

theorem dropParts?_append (ps qs : List Part) : dropParts? (ps ++ qs) ps = some qs := by
  induction ps with
  | nil => cases qs <;> rfl
  | cons p ps ih => rw [List.cons_append, dropParts?, if_pos rfl, ih]

structure Descends (root dir : Text) (names : List Text) : Prop where
  given : dir ≠ []
  proper : ∀ n ∈ names, IsName n
  parts : parts dir = Path.parts root ++ names.map .name

namespace Descends

variable {root dir : Text} {names : List Text}

theorem start (given : root ≠ []) : Descends root root [] where
  given := given
  proper := by simp
  parts := (List.append_nil _).symm

theorem join (descends : Descends root dir names) {n : Text} (name : IsName n) :
    Descends root (join dir n) (names ++ [n]) where
  given empty := by
    have parts := parts_join descends.given name
    rw [empty] at parts
    simp [Path.parts, pieces, isAbsolute, partOf?] at parts
  proper m member := by
    rcases List.mem_append.mp member with above | same
    · exact descends.proper m above
    · exact List.mem_singleton.mp same ▸ name
  parts := by
    rw [parts_join descends.given name, descends.parts, List.map_append, List.append_assoc]
    rfl

theorem pieces_relative (descends : Descends root dir names) (below : names ≠ []) :
    pieces (relativeTo root dir) = names := by
  have inner : ∀ p ∈ names.map Part.name, p ≠ .root := by
    intro p member
    obtain ⟨n, -, rfl⟩ := List.mem_map.mp member
    simp
  have relative : relativeTo root dir = Text.joinWith ['/'] names := by
    rw [relativeTo, descends.parts, dropParts?_append]
    dsimp only
    rw [ofParts_eq inner, List.map_map]
    exact congrArg _ (List.map_id names)
  rw [relative]
  exact pieces_joinWith below fun n member => (descends.proper n member).plain

end Descends

end Path

namespace FileTree

/-- A tree with proper names, in which no place is listed twice. -/
structure Regular (t : FileTree) : Prop where
  dirNames : ∀ place ∈ t.dirs, ∀ n ∈ place, Path.IsName n
  fileNames : ∀ f ∈ t.files, ∀ n ∈ f.1, Path.IsName n
  dirsOnce : t.dirs.Nodup
  filesOnce : (t.files.map (·.1)).Nodup

theorem nameIn?_eq_some_iff {place other : Place} {n : Text} :
    nameIn? place other = some n ↔ other = place ++ [n] := by
  unfold nameIn?
  constructor
  · intro named
    split at named
    · rename_i inside
      rw [Bool.and_eq_true, beq_iff_eq] at inside
      obtain ⟨start, rfl⟩ := List.getLast?_eq_some_iff.mp named
      rw [List.dropLast_concat] at inside
      rw [inside.2]
    · cases named
  · rintro rfl
    simp

theorem names_nodup {places : List Place} (once : places.Nodup) (place : Place) :
    (places.filterMap (nameIn? place)).Nodup := by
  refine List.pairwise_filterMap.mpr (once.imp fun {p q} other m named n named' same => other ?_)
  rw [nameIn?_eq_some_iff.mp named, nameIn?_eq_some_iff.mp named', same]

namespace Regular

variable {t : FileTree} (regular : t.Regular) {place : Place} {n : Text}
include regular

theorem isName_dir (member : n ∈ t.dirNames place) : Path.IsName n := by
  obtain ⟨other, listed, named⟩ := List.mem_filterMap.mp member
  refine regular.dirNames other listed n ?_
  rw [nameIn?_eq_some_iff.mp named]
  simp

theorem isName_file (member : n ∈ t.fileNames place) : Path.IsName n := by
  obtain ⟨f, listed, named⟩ := List.mem_filterMap.mp member
  refine regular.fileNames f listed n ?_
  rw [nameIn?_eq_some_iff.mp named]
  simp

theorem dirNames_nodup : (t.dirNames place).Nodup := names_nodup regular.dirsOnce place

theorem fileNames_nodup : (t.fileNames place).Nodup := by
  have nodup := names_nodup regular.filesOnce place
  rw [List.filterMap_map] at nodup
  exact nodup

end Regular

end FileTree

namespace FileSearch

open TemplateMarkup.Path

/-- The file of a name, if the search takes it. -/
def taken? (s : FileSearch) (root dir n : Text) : Option Text :=
  if s.takesFile n (relativeTo root (join dir n)) then some (join dir n) else none

def collectBelow (s : FileSearch) (t : FileTree) (root : Text) (depth : Nat) (dir : Text) (place : Place)
    (d : Text) : List Text :=
  if s.entersDir d (relativeTo root (join dir d)) then
    s.collect t root depth (join dir d) (place ++ [d])
  else []

variable {s : FileSearch} {t : FileTree} {root dir p n d : Text} {place : Place} {depth : Nat}
  {ancestors : List Text}

theorem collect_succ : s.collect t root (depth + 1) dir place =
    (t.fileNames place).filterMap (s.taken? root dir) ++
      (t.dirNames place).flatMap (s.collectBelow t root depth dir place) := rfl

theorem taken?_eq_some_iff : s.taken? root dir n = some p ↔
    s.takesFile n (relativeTo root (join dir n)) = true ∧ join dir n = p := by
  simp [taken?]

theorem mem_collectBelow : p ∈ s.collectBelow t root depth dir place d ↔
    s.entersDir d (relativeTo root (join dir d)) = true ∧
      p ∈ s.collect t root depth (join dir d) (place ++ [d]) := by
  simp [collectBelow]

theorem mem_filesIn {found : Text} : found ∈ s.filesIn t dir ↔
    ∃ place, t.dirPlace? dir = some place ∧
      found ∈ s.collect t dir (t.dirs.length + 1) dir place := by
  unfold filesIn
  cases t.dirPlace? dir with
  | none => simp
  | some place => simp [(sort_perm _).mem_iff]

theorem given_of_dirPlace? (leads : t.dirPlace? dir = some place) : dir ≠ [] := by
  rintro rfl
  cases leads

section Regular

variable (regular : t.Regular) (descends : Descends root dir ancestors)
include regular descends

theorem taken?_parts (listed : n ∈ t.fileNames place) (taken : s.taken? root dir n = some p) :
    parts p = parts dir ++ [.name n] := by
  rw [← (taken?_eq_some_iff.mp taken).2]
  exact parts_join descends.given (regular.isName_file listed)

theorem collect_parts (found : p ∈ s.collect t root depth dir place) :
    ∃ n rest, parts p = parts dir ++ .name n :: rest := by
  induction depth generalizing dir place ancestors with
  | zero => cases found
  | succ depth ih =>
    rcases List.mem_append.mp (collect_succ ▸ found) with file | below
    · obtain ⟨n, listed, taken⟩ := List.mem_filterMap.mp file
      exact ⟨n, [], taken?_parts regular descends listed taken⟩
    · obtain ⟨d, listed, below⟩ := List.mem_flatMap.mp below
      have name := regular.isName_dir listed
      obtain ⟨n, rest, parts⟩ := ih (descends.join name) (mem_collectBelow.mp below).2
      rw [parts_join descends.given name, List.append_assoc] at parts
      exact ⟨d, .name n :: rest, parts⟩

theorem collect_descends (found : p ∈ s.collect t root depth dir place) :
    ∃ names, names ≠ [] ∧ Descends root p names := by
  induction depth generalizing dir place ancestors with
  | zero => cases found
  | succ depth ih =>
    rcases List.mem_append.mp (collect_succ ▸ found) with file | below
    · obtain ⟨n, listed, taken⟩ := List.mem_filterMap.mp file
      rw [← (taken?_eq_some_iff.mp taken).2]
      exact ⟨_, by simp, descends.join (regular.isName_file listed)⟩
    · obtain ⟨d, listed, below⟩ := List.mem_flatMap.mp below
      exact ih (descends.join (regular.isName_dir listed)) (mem_collectBelow.mp below).2

theorem collectBelow_parts (listed : d ∈ t.dirNames place)
    (below : p ∈ s.collectBelow t root depth dir place d) :
    ∃ n rest, parts p = parts dir ++ .name d :: .name n :: rest := by
  have name := regular.isName_dir listed
  obtain ⟨n, rest, parts⟩ := collect_parts regular (descends.join name) (mem_collectBelow.mp below).2
  rw [parts_join descends.given name, List.append_assoc] at parts
  exact ⟨n, rest, parts⟩

theorem collect_distinct :
    (s.collect t root depth dir place).Pairwise fun p q => parts p ≠ parts q := by
  induction depth generalizing dir place ancestors with
  | zero => exact List.Pairwise.nil
  | succ depth ih =>
    rw [collect_succ, List.pairwise_append, List.pairwise_filterMap, List.pairwise_flatMap]
    refine ⟨?_, ⟨fun d listed => ?_, ?_⟩, fun p file q below => ?_⟩
    · refine regular.fileNames_nodup.imp_of_mem fun {m n} one two other p taken q taken' => ?_
      rw [taken?_parts regular descends one taken, taken?_parts regular descends two taken']
      simpa using other
    · rw [collectBelow]
      split
      · exact ih (descends.join (regular.isName_dir listed))
      · exact List.Pairwise.nil
    · refine regular.dirNames_nodup.imp_of_mem fun {d e} one two other p below q below' => ?_
      obtain ⟨m, rest, parts⟩ := collectBelow_parts regular descends one below
      obtain ⟨n, rest', parts'⟩ := collectBelow_parts regular descends two below'
      rw [parts, parts']
      simp [other]
    · -- a file lies one name below the directory, and what is found deeper at least two
      obtain ⟨n, listed, taken⟩ := List.mem_filterMap.mp file
      obtain ⟨d, listed', below⟩ := List.mem_flatMap.mp below
      obtain ⟨m, rest, parts⟩ := collectBelow_parts regular descends listed' below
      rw [taken?_parts regular descends listed taken, parts]
      simp

end Regular

/-- What is found in a directory ascends by the order of paths, and nothing is found twice. -/
theorem filesIn_ascending (regular : t.Regular) :
    (s.filesIn t dir).Pairwise fun p q => ltParts (parts p) (parts q) = true := by
  unfold filesIn
  split
  · rename_i place leads
    exact sort_ascending (collect_distinct regular (.start (given_of_dirPlace? leads)))
  · exact List.Pairwise.nil

/-- No two files found in a directory look the same from there. -/
theorem filesIn_relative_nodup (regular : t.Regular) :
    ((s.filesIn t dir).map (relativeTo dir)).Nodup := by
  have descends : ∀ p ∈ s.filesIn t dir, ∃ names, names ≠ [] ∧ Descends dir p names := by
    intro p found
    obtain ⟨place, leads, found⟩ := mem_filesIn.mp found
    exact collect_descends regular (.start (given_of_dirPlace? leads)) found
  refine List.pairwise_map.mpr ((filesIn_ascending regular).imp_of_mem ?_)
  intro p q one two less same
  obtain ⟨names, below, path⟩ := descends p one
  obtain ⟨names', below', path'⟩ := descends q two
  have pieces : names = names' := by
    rw [← path.pieces_relative below, same, path'.pieces_relative below']
  rw [path.parts, path'.parts, pieces, ltParts_order.irrefl] at less
  cases less

end FileSearch

end TemplateMarkup
