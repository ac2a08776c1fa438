import TemplateMarkup.Document.Basic

/-!
The arena of a document. Its records stand in preorder: the subtrees of elements in a row fill the
indices from the first of them on without a gap. Only this and the parent fields are assumed of an
arena; order, children and descendants are derived from them.
-/
namespace TemplateMarkup.Document

variable {d : Document}

/-- The subtrees of elements in a row fill the indices from the first number up to the second. -/
inductive Tiles (d : Document) : Nat → Nat → List Nat → Prop where
  | nil (stop : Nat) : Tiles d stop stop []
  | cons {i stop : Nat} {r : Record} {rest : List Nat} (found : d.record? i = some r)
      (proper : i < r.subtreeEnd) (tail : Tiles d r.subtreeEnd stop rest) :
      Tiles d i stop (i :: rest)

structure Arena (d : Document) : Prop where
  roots_tile : d.Tiles 0 d.size d.roots
  children_tile : ∀ {i : Nat} {r : Record}, d.record? i = some r →
    d.Tiles (i + 1) r.subtreeEnd r.children
  child_parent : ∀ {s : Option Nat} {c : Nat} {r : Record}, c ∈ d.childrenOf s →
    d.record? c = some r → r.parent = s

/-- The parent chain of an element leads to the scope. -/
inductive Descends (d : Document) (s : Option Nat) : Nat → Prop where
  | child {c : Nat} {r : Record} (found : d.record? c = some r) (parent : r.parent = s) :
      Descends d s c
  | deeper {p c : Nat} {r : Record} (found : d.record? c = some r) (parent : r.parent = some p)
      (above : Descends d s p) : Descends d s c

/-- The index lies in the range of the descendants of the scope. -/
def Covers (d : Document) (s : Option Nat) (k : Nat) : Prop :=
  (d.descendants s).1 ≤ k ∧ k < (d.descendants s).2

theorem tiles_start_le {start stop : Nat} {row : List Nat} (tiles : d.Tiles start stop row) :
    start ≤ stop := by
  induction tiles with
  | nil => omega
  | cons found proper tail ih => omega

theorem tiles_member {start stop i : Nat} {row : List Nat} (tiles : d.Tiles start stop row)
    (member : i ∈ row) :
    ∃ r, d.record? i = some r ∧ start ≤ i ∧ i < r.subtreeEnd ∧ r.subtreeEnd ≤ stop := by
  induction tiles with
  | nil => simp at member
  | cons found proper tail ih =>
    rcases List.mem_cons.mp member with same | later
    · subst same
      exact ⟨_, found, Nat.le_refl _, proper, tiles_start_le tail⟩
    · obtain ⟨r, foundI, lower, properI, upper⟩ := ih later
      exact ⟨r, foundI, by omega, properI, upper⟩

theorem tiles_ascending {start stop : Nat} {row : List Nat} (tiles : d.Tiles start stop row) :
    row.Pairwise (· < ·) := by
  induction tiles with
  | nil => exact List.Pairwise.nil
  | cons found proper tail ih =>
    refine List.pairwise_cons.mpr ⟨?_, ih⟩
    intro j later
    obtain ⟨_, _, lower, _⟩ := tiles_member tail later
    omega

theorem tiles_cover {start stop k : Nat} {row : List Nat} (tiles : d.Tiles start stop row)
    (lower : start ≤ k) (upper : k < stop) :
    ∃ i ∈ row, ∃ r, d.record? i = some r ∧ i ≤ k ∧ k < r.subtreeEnd := by
  induction tiles with
  | nil => omega
  | @cons i stop r rest found proper tail ih =>
    by_cases inside : k < r.subtreeEnd
    · exact ⟨i, by simp, r, found, lower, inside⟩
    · obtain ⟨j, member, rest⟩ := ih (by omega) upper
      exact ⟨j, List.mem_cons_of_mem i member, rest⟩

theorem descendants_of_found {i : Nat} {r : Record} (found : d.record? i = some r) :
    d.descendants (some i) = (i + 1, r.subtreeEnd) := by
  simp [descendants, found]

theorem childrenOf_found {i : Nat} {r : Record} (found : d.record? i = some r) :
    d.childrenOf (some i) = r.children := by
  simp [childrenOf, found]

theorem found_lt_size {i : Nat} {r : Record} (found : d.record? i = some r) : i < d.size := by
  obtain ⟨bound, _⟩ := List.getElem?_eq_some_iff.mp found
  exact bound

theorem found_of_lt_size {i : Nat} (bound : i < d.size) : ∃ r, d.record? i = some r :=
  ⟨d.records[i], List.getElem?_eq_getElem bound⟩

namespace Arena

theorem scope_tiles (arena : d.Arena) (s : Option Nat) :
    d.Tiles (d.descendants s).1 (d.descendants s).2 (d.childrenOf s) := by
  cases s with
  | none => exact arena.roots_tile
  | some i =>
    cases found : d.record? i with
    | none => simpa [descendants, childrenOf, found] using Tiles.nil (i + 1)
    | some r =>
      rw [descendants_of_found found, childrenOf_found found]
      exact arena.children_tile found

theorem child_found (arena : d.Arena) {s : Option Nat} {c : Nat} (member : c ∈ d.childrenOf s) :
    ∃ r, d.record? c = some r ∧ r.parent = s := by
  obtain ⟨r, found, _⟩ := tiles_member (arena.scope_tiles s) member
  exact ⟨r, found, arena.child_parent member found⟩

theorem child_within (arena : d.Arena) {s : Option Nat} {c : Nat} {r : Record}
    (member : c ∈ d.childrenOf s) (found : d.record? c = some r) :
    (d.descendants s).1 ≤ c ∧ c < r.subtreeEnd ∧ r.subtreeEnd ≤ (d.descendants s).2 := by
  obtain ⟨other, foundOther, bounds⟩ := tiles_member (arena.scope_tiles s) member
  have same : other = r := Option.some.inj (foundOther.symm.trans found)
  exact same ▸ bounds

theorem children_ascending (arena : d.Arena) (s : Option Nat) :
    (d.childrenOf s).Pairwise (· < ·) :=
  tiles_ascending (arena.scope_tiles s)

/-- An index that a scope covers is one of its children or covered by one of them. -/
theorem covers_split (arena : d.Arena) {s : Option Nat} {k : Nat} (covers : d.Covers s k) :
    ∃ c ∈ d.childrenOf s, k = c ∨ d.Covers (some c) k := by
  obtain ⟨c, member, r, found, lower, upper⟩ :=
    tiles_cover (arena.scope_tiles s) covers.1 covers.2
  refine ⟨c, member, ?_⟩
  by_cases same : k = c
  · exact Or.inl same
  · right
    rw [Covers, descendants_of_found found]
    exact ⟨by simp only; omega, upper⟩

/-- What holds of the children of every scope, and goes from what a child covers to its scope, holds
of every covered index. -/
theorem covers_induction (arena : d.Arena) {P : Option Nat → Nat → Prop}
    (child : ∀ s c, c ∈ d.childrenOf s → P s c)
    (deeper : ∀ s c k, c ∈ d.childrenOf s → P (some c) k → P s k) :
    ∀ s k, d.Covers s k → P s k := by
  intro s
  induction width : (d.descendants s).2 - (d.descendants s).1 using Nat.strongRecOn
    generalizing s with
  | ind n ih =>
    intro k covers
    obtain ⟨c, member, same | inner⟩ := arena.covers_split covers
    · exact same ▸ child s c member
    · obtain ⟨r, found, _⟩ := arena.child_found member
      have bounds := arena.child_within member found
      have smaller : (d.descendants (some c)).2 - (d.descendants (some c)).1 < n := by
        rw [descendants_of_found found]
        simp only
        omega
      exact deeper s c k member (ih _ smaller (some c) rfl k inner)

theorem found_is_child (arena : d.Arena) {i : Nat} {r : Record} (found : d.record? i = some r) :
    i ∈ d.childrenOf r.parent := by
  have everywhere : ∀ s k, d.Covers s k → ∃ scope, k ∈ d.childrenOf scope :=
    arena.covers_induction (fun s _ member => ⟨s, member⟩) (fun _ _ _ _ inner => inner)
  obtain ⟨scope, member⟩ := everywhere none i ⟨Nat.zero_le i, found_lt_size found⟩
  rw [arena.child_parent member found]
  exact member

theorem mem_children_iff (arena : d.Arena) (s : Option Nat) (i : Nat) :
    i ∈ d.childrenOf s ↔ ∃ r, d.record? i = some r ∧ r.parent = s := by
  constructor
  · exact arena.child_found
  · rintro ⟨r, found, parent⟩
    exact parent ▸ arena.found_is_child found

theorem parent_lt (arena : d.Arena) {i p : Nat} {r : Record} (found : d.record? i = some r)
    (parent : r.parent = some p) : p < i := by
  have member := arena.found_is_child found
  rw [parent] at member
  have lower := (arena.child_within member found).1
  have first : (d.descendants (some p)).1 = p + 1 := rfl
  omega

theorem parent_found (arena : d.Arena) {i p : Nat} {r : Record} (found : d.record? i = some r)
    (parent : r.parent = some p) : ∃ rp, d.record? p = some rp :=
  found_of_lt_size (Nat.lt_trans (arena.parent_lt found parent) (found_lt_size found))

end Arena

theorem descends_trans {s : Option Nat} {c k : Nat} (upper : d.Descends s c)
    (lower : d.Descends (some c) k) : d.Descends s k := by
  induction lower with
  | child found parent => exact Descends.deeper found parent upper
  | deeper found parent _ ih => exact Descends.deeper found parent ih

namespace Arena

theorem descends_within (arena : d.Arena) {s : Option Nat} {k : Nat} (descends : d.Descends s k) :
    ∃ r, d.record? k = some r ∧ (d.descendants s).1 ≤ k ∧ k < r.subtreeEnd ∧
      r.subtreeEnd ≤ (d.descendants s).2 := by
  induction descends with
  | @child c r found parent =>
    have member := arena.found_is_child found
    rw [parent] at member
    exact ⟨r, found, arena.child_within member found⟩
  | @deeper p c r found parent above ih =>
    obtain ⟨rp, foundP, lowerP, properP, upperP⟩ := ih
    have member := arena.found_is_child found
    rw [parent] at member
    have bounds := arena.child_within member found
    rw [descendants_of_found foundP] at bounds
    exact ⟨r, found, by omega, by omega, by omega⟩

/-- The range of indices of a scope holds exactly its descendants. -/
theorem covers_iff_descends (arena : d.Arena) (s : Option Nat) (k : Nat) :
    d.Covers s k ↔ d.Descends s k := by
  constructor
  · refine arena.covers_induction ?_ ?_ s k
    · intro s c member
      obtain ⟨r, found, parent⟩ := arena.child_found member
      exact Descends.child found parent
    · intro s c k member inner
      obtain ⟨r, found, parent⟩ := arena.child_found member
      exact descends_trans (Descends.child found parent) inner
  · intro descends
    obtain ⟨r, _, lower, proper, upper⟩ := arena.descends_within descends
    exact ⟨lower, by omega⟩

end Arena

end TemplateMarkup.Document
