import TemplateMarkup.Proofs.Arena

/-!
How outlines are laid out in a document: each row of sibling outlines writes a stretch of the records,
and the stretch of its children follows the record of an outline at once. Every document of a syntax
tree is therefore an arena, and each of its records is that of an outline of the tree.
-/
namespace TemplateMarkup

namespace Outline

/-- The outline stands somewhere in the row or below it. -/
inductive Occurs (o : Outline) : List Outline → Prop where
  | member {row : List Outline} (here : o ∈ row) : Occurs o row
  | deeper {p : Outline} {row : List Outline} (here : p ∈ row) (inner : Occurs o p.children) :
      Occurs o row

theorem occurs_cons {o p : Outline} {row : List Outline} (occurs : o.Occurs row) :
    o.Occurs (p :: row) := by
  cases occurs with
  | member here => exact Occurs.member (List.mem_cons_of_mem p here)
  | deeper here inner => exact Occurs.deeper (List.mem_cons_of_mem p here) inner

/-- The outlines of one scope of a tree: the outermost ones, the children of one, or none at all. -/
def IsRow (root : Markup.Node) (row : List Outline) : Prop :=
  row = ofRoot root ∨ row = [] ∨ ∃ o : Outline, o.Occurs (ofRoot root) ∧ row = o.children

theorem size_eq (o : Outline) : o.size = 1 + sizeAll o.children := by
  cases o
  rfl

end Outline

/-- Where a row of outlines goes on: its parent and the path of that, the tags that come before in
the row, and the next index. -/
structure Site where
  parent : Option Nat
  path : Text
  before : List Text
  index : Nat

namespace Site

def label (t : Text) (o : Outline) : Text := o.name.span.slice t

def record (t : Text) (s : Site) (o : Outline) : Record :=
  { tag := label t o
    path := Record.pathBelow s.path (label t o) (s.before.count (label t o) + 1)
    line := o.node.line
    attributes := Attribute.ofTag t o.tag
    parent := s.parent
    children := Record.indicesFrom (s.index + 1) o.children
    subtreeEnd := s.index + 1 + Outline.sizeAll o.children
    outer := o.node.span
    startTag := o.tag.span
    tagName := o.name.span
    inner := Record.innerOf o
    selfClosing := o.tag.kind.isSelfClosingTag
    innerText := Record.innerTextOf t o.node }

def inside (t : Text) (s : Site) (o : Outline) : Site :=
  ⟨some s.index, (s.record t o).path, [], s.index + 1⟩

def after (t : Text) (s : Site) (o : Outline) : Site :=
  ⟨s.parent, s.path, label t o :: s.before, s.index + o.size⟩

@[simp] theorem inside_index (t : Text) (s : Site) (o : Outline) :
    (s.inside t o).index = s.index + 1 := rfl

@[simp] theorem after_index (t : Text) (s : Site) (o : Outline) :
    (s.after t o).index = s.index + o.size := rfl

theorem record_subtreeEnd (t : Text) (s : Site) (o : Outline) :
    (s.record t o).subtreeEnd = s.index + o.size := by
  rw [Outline.size_eq, ← Nat.add_assoc]
  rfl

def records (t : Text) (s : Site) (row : List Outline) : List Record :=
  Record.ofOutlines t s.parent s.path s.before s.index row

theorem records_cons (t : Text) (s : Site) (o : Outline) (row : List Outline) :
    s.records t (o :: row) =
      s.record t o :: ((s.inside t o).records t o.children ++ (s.after t o).records t row) := by
  obtain ⟨node, tag, name, children⟩ := o
  rfl

theorem records_length (t : Text) (row : List Outline) (s : Site) :
    (s.records t row).length = Outline.sizeAll row := by
  induction size : Outline.sizeAll row using Nat.strongRecOn generalizing s row with
  | ind n ih =>
    cases row with
    | nil =>
      subst size
      rfl
    | cons o row =>
      have whole : n = 1 + Outline.sizeAll o.children + Outline.sizeAll row := by
        rw [← size, Outline.sizeAll, Outline.size_eq]
      have first := ih (Outline.sizeAll o.children) (by omega) o.children (s.inside t o) rfl
      have rest := ih (Outline.sizeAll row) (by omega) row (s.after t o) rfl
      rw [records_cons, List.length_cons, List.length_append, first, rest]
      omega

end Site

namespace Document

/-- The records of the document hold those of a row of outlines, from the index of its site on. -/
def Stretch (d : Document) (s : Site) (row : List Outline) : Prop :=
  ∃ front back, d.records = front ++ (s.records d.source row ++ back) ∧ front.length = s.index

variable {d : Document} {s : Site} {o : Outline} {row : List Outline}

theorem stretch_record (stretch : d.Stretch s (o :: row)) :
    d.record? s.index = some (s.record d.source o) := by
  obtain ⟨front, back, records, length⟩ := stretch
  rw [record?, records, Site.records_cons, ← length]
  simp

theorem stretch_children (stretch : d.Stretch s (o :: row)) :
    d.Stretch (s.inside d.source o) o.children := by
  obtain ⟨front, back, records, length⟩ := stretch
  refine ⟨front ++ [s.record d.source o], (s.after d.source o).records d.source row ++ back, ?_, ?_⟩
  · rw [records, Site.records_cons]
    simp
  · simp [length]

theorem stretch_tail (stretch : d.Stretch s (o :: row)) :
    d.Stretch (s.after d.source o) row := by
  obtain ⟨front, back, records, length⟩ := stretch
  refine ⟨front ++ s.record d.source o :: (s.inside d.source o).records d.source o.children, back,
    ?_, ?_⟩
  · rw [records, Site.records_cons]
    simp
  · rw [List.length_append, List.length_cons, Site.records_length, length, Site.after_index,
      Outline.size_eq]
    omega

theorem stretch_tiles (stretch : d.Stretch s row) :
    d.Tiles s.index (s.index + Outline.sizeAll row) (Record.indicesFrom s.index row) := by
  induction row generalizing s with
  | nil => exact Tiles.nil s.index
  | cons o row ih =>
    have tail := ih (stretch_tail stretch)
    have stop : s.index + Outline.sizeAll (o :: row) =
        s.index + o.size + Outline.sizeAll row := by
      rw [Outline.sizeAll]
      omega
    rw [stop]
    refine Tiles.cons (stretch_record stretch) ?_ ?_
    · rw [Site.record_subtreeEnd, Outline.size_eq]
      omega
    · rw [Site.record_subtreeEnd]
      exact tail

theorem stretch_member (stretch : d.Stretch s row) {c : Nat} {r : Record}
    (member : c ∈ Record.indicesFrom s.index row) (found : d.record? c = some r) :
    ∃ (site : Site) (outline : Outline), outline ∈ row ∧ site.parent = s.parent ∧
      r = site.record d.source outline := by
  induction row generalizing s with
  | nil => simp [Record.indicesFrom] at member
  | cons o row ih =>
    rcases List.mem_cons.mp member with same | later
    · subst same
      have same := (stretch_record stretch).symm.trans found
      exact ⟨s, o, by simp, rfl, (Option.some.inj same).symm⟩
    · obtain ⟨site, outline, inRow, parent, same⟩ := ih (stretch_tail stretch) later
      exact ⟨site, outline, List.mem_cons_of_mem o inRow, parent, same⟩

theorem stretch_at (stretch : d.Stretch s row) {k : Nat} (lower : s.index ≤ k)
    (upper : k < s.index + Outline.sizeAll row) :
    ∃ (site : Site) (outline : Outline) (rest : List Outline),
      d.Stretch site (outline :: rest) ∧ site.index = k ∧ outline.Occurs row := by
  induction size : Outline.sizeAll row using Nat.strongRecOn generalizing s row with
  | ind n ih =>
    cases row with
    | nil =>
      simp only [Outline.sizeAll] at upper
      omega
    | cons o row =>
      have whole : n = 1 + Outline.sizeAll o.children + Outline.sizeAll row := by
        rw [← size, Outline.sizeAll, Outline.size_eq]
      by_cases first : k = s.index
      · exact ⟨s, o, row, stretch, first.symm, Outline.Occurs.member (by simp)⟩
      · by_cases inside : k < s.index + o.size
        · rw [Outline.size_eq] at inside
          obtain ⟨site, outline, rest, found, index, occurs⟩ :=
            ih (Outline.sizeAll o.children) (by omega) (stretch_children stretch)
              (by simp only [Site.inside_index]; omega) (by simp only [Site.inside_index]; omega) rfl
          exact ⟨site, outline, rest, found, index, Outline.Occurs.deeper (by simp) occurs⟩
        · rw [Outline.sizeAll] at upper
          obtain ⟨site, outline, rest, found, index, occurs⟩ :=
            ih (Outline.sizeAll row) (by omega) (stretch_tail stretch)
              (by simp only [Site.after_index]; omega) (by simp only [Site.after_index]; omega) rfl
          exact ⟨site, outline, rest, found, index, Outline.occurs_cons occurs⟩

def origin : Site := ⟨none, [], [], 0⟩

theorem ofNode_stretch (t : Text) (root : Markup.Node) :
    (ofNode t root).Stretch origin (Outline.ofRoot root) :=
  ⟨[], [], by simp [ofNode, Site.records, origin], rfl⟩

theorem ofNode_size (t : Text) (root : Markup.Node) :
    (ofNode t root).size = Outline.sizeAll (Outline.ofRoot root) :=
  Site.records_length t (Outline.ofRoot root) origin

/-- Each record is that of an outline of the tree, followed by the records of its children. -/
theorem ofNode_found {t : Text} {root : Markup.Node} {k : Nat} {r : Record}
    (found : (ofNode t root).record? k = some r) :
    ∃ (site : Site) (outline : Outline), outline.Occurs (Outline.ofRoot root) ∧ site.index = k ∧
      r = site.record t outline ∧
      (ofNode t root).Stretch (site.inside t outline) outline.children := by
  have bound := found_lt_size found
  rw [ofNode_size] at bound
  obtain ⟨site, outline, rest, stretch, index, occurs⟩ :=
    stretch_at (ofNode_stretch t root) (Nat.zero_le k) (by simpa [origin] using bound)
  have same := stretch_record stretch
  rw [index, found] at same
  exact ⟨site, outline, occurs, index, Option.some.inj same, stretch_children stretch⟩

/-- The path of a scope; that of the whole document is empty. -/
def pathAt (d : Document) : Option Nat → Text
  | some i => ((d.record? i).map (·.path)).getD []
  | none => []

/-- The children of every scope are a row of outlines of the tree, from its first one on. -/
theorem ofNode_scope (t : Text) (root : Markup.Node) (scope : Option Nat) :
    ∃ (site : Site) (row : List Outline), (ofNode t root).Stretch site row ∧
      (ofNode t root).childrenOf scope = Record.indicesFrom site.index row ∧
      site.parent = scope ∧ site.path = (ofNode t root).pathAt scope ∧ site.before = [] ∧
      Outline.IsRow root row := by
  cases scope with
  | none => exact ⟨origin, _, ofNode_stretch t root, rfl, rfl, rfl, rfl, Or.inl rfl⟩
  | some i =>
    cases found : (ofNode t root).record? i with
    | none =>
      refine ⟨⟨some i, [], [], 0⟩, [], ⟨[], _, rfl, rfl⟩, ?_, rfl, ?_, rfl, Or.inr (Or.inl rfl)⟩
      · simp [childrenOf, found, Record.indicesFrom]
      · simp [pathAt, found]
    | some r =>
      obtain ⟨site, outline, occurs, index, same, stretch⟩ := ofNode_found found
      subst same index
      refine ⟨_, _, stretch, childrenOf_found found, rfl, ?_, rfl,
        Or.inr (Or.inr ⟨outline, occurs, rfl⟩)⟩
      simp [pathAt, found, Site.inside]

theorem ofNode_arena (t : Text) (root : Markup.Node) : (ofNode t root).Arena where
  roots_tile := by
    have tiles := stretch_tiles (ofNode_stretch t root)
    rw [origin, Nat.zero_add, ← ofNode_size t] at tiles
    exact tiles
  children_tile := by
    intro i r found
    obtain ⟨site, outline, _, index, same, stretch⟩ := ofNode_found found
    have tiles := stretch_tiles stretch
    subst same index
    exact tiles
  child_parent := by
    intro scope c r member found
    obtain ⟨site, row, stretch, children, parent, _⟩ := ofNode_scope t root scope
    rw [children] at member
    obtain ⟨place, outline, _, same, record⟩ := stretch_member stretch member found
    rw [record, Site.record, same, parent]

end Document

end TemplateMarkup
