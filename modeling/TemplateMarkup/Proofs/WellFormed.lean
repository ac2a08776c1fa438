import Mathlib.Data.List.Basic
import TemplateMarkup.Document.Element
import TemplateMarkup.Proofs.Outline

/-!
What every document of a syntax tree satisfies: indices follow the tree, elements as values list the
records in order, and the spans of records are nested as the tree is. The only assumption is that the
spans of the syntax tree are nested.
-/
namespace TemplateMarkup

namespace Element

theorem descendantsOfAll_eq (es : List Element) :
    descendantsOfAll es = es.flatMap descendantsAndSelf := by
  induction es with
  | nil => rfl
  | cons e es ih => rw [descendantsOfAll, List.flatMap_cons, ih]

theorem descendantsAndSelf_eq (e : Element) :
    e.descendantsAndSelf = e :: e.children.flatMap descendantsAndSelf := by
  obtain ⟨tag, id, classes, path, attributes, children, text⟩ := e
  rw [descendantsAndSelf, descendantsOfAll_eq]

end Element

namespace Document

variable {d : Document}

namespace Arena

theorem found_proper (arena : d.Arena) {i : Nat} {r : Record} (found : d.record? i = some r) :
    i < r.subtreeEnd :=
  tiles_start_le (arena.children_tile found)

theorem found_bounded (arena : d.Arena) {i : Nat} {r : Record} (found : d.record? i = some r) :
    r.subtreeEnd ≤ d.size := by
  have covers : d.Covers none i := ⟨Nat.zero_le i, found_lt_size found⟩
  obtain ⟨other, foundOther, _, _, bound⟩ :=
    arena.descends_within ((arena.covers_iff_descends none i).mp covers)
  have same : other = r := Option.some.inj (foundOther.symm.trans found)
  exact same ▸ bound

/-- Fuel that reaches the end of the subtree is enough: more does not change the element. -/
theorem elementFrom_stable (arena : d.Arena) {fuel other i : Nat} {r : Record}
    (found : d.record? i = some r) (enough : r.subtreeEnd ≤ i + fuel)
    (more : r.subtreeEnd ≤ i + other) : d.elementFrom fuel i = d.elementFrom other i := by
  induction fuel generalizing other i r with
  | zero =>
    have proper := arena.found_proper found
    omega
  | succ fuel ih =>
    cases other with
    | zero =>
      have proper := arena.found_proper found
      omega
    | succ other =>
      have children : r.children.filterMap (d.elementFrom fuel) =
          r.children.filterMap (d.elementFrom other) := by
        apply List.filterMap_congr
        intro c member
        obtain ⟨rc, foundC, lower, _, upper⟩ := tiles_member (arena.children_tile found) member
        exact ih foundC (by omega) (by omega)
      simp only [elementFrom, found, Option.map_some, children]

theorem element?_found (arena : d.Arena) {i : Nat} {r : Record} (found : d.record? i = some r) :
    ∃ e, d.element? i = some e ∧ e.children = r.children.filterMap d.element? := by
  refine ⟨_, by rw [element?, elementFrom, found, Option.map_some], ?_⟩
  apply List.filterMap_congr
  intro c member
  obtain ⟨rc, foundC, lower, _, upper⟩ := tiles_member (arena.children_tile found) member
  have bounded := arena.found_bounded foundC
  exact arena.elementFrom_stable foundC (by omega) (by omega)

theorem tiles_elements (arena : d.Arena) {start stop : Nat} {row : List Nat}
    (tiles : d.Tiles start stop row) :
    ((row.filterMap d.element?).flatMap Element.descendantsAndSelf).map some =
      (List.range' start (stop - start)).map d.element? := by
  induction width : stop - start using Nat.strongRecOn generalizing start stop row with
  | ind n ih =>
    cases tiles with
    | nil =>
      subst width
      simp
    | @cons _ _ r rest found proper tail =>
      obtain ⟨e, element, children⟩ := arena.element?_found found
      have bound := tiles_start_le tail
      have inner := ih _ (by omega) (arena.children_tile found) rfl
      have later := ih _ (by omega) tail rfl
      have split : List.range' start n = start ::
          (List.range' (start + 1) (r.subtreeEnd - (start + 1)) ++
            List.range' r.subtreeEnd (stop - r.subtreeEnd)) := by
        obtain ⟨inside, reach⟩ := Nat.exists_eq_add_of_lt proper
        obtain ⟨beyond, total⟩ := Nat.exists_eq_add_of_le bound
        rw [reach] at total ⊢
        rw [show start + inside + 1 - (start + 1) = inside by omega,
          show stop - (start + inside + 1) = beyond by omega,
          show start + inside + 1 = start + 1 + inside by omega, List.range'_append_1,
          ← List.range'_succ]
        congr 1
        omega
      rw [List.filterMap_cons_some element, List.flatMap_cons, Element.descendantsAndSelf_eq,
        children, split]
      simp only [List.cons_append, List.map_cons, List.map_append, inner, later, element]

theorem elements_ordered (arena : d.Arena) :
    (d.elements.flatMap Element.descendantsAndSelf).map some =
      (List.range d.size).map d.element? := by
  rw [List.range_eq_range', elements, arena.tiles_elements arena.roots_tile, Nat.sub_zero]

end Arena

/-- An element says what the record of its index says. -/
theorem element?_view (d : Document) (i : Nat) :
    (d.element? i).map (fun e => (e.tag, e.path, e.text)) =
      (d.record? i).map fun r => (r.tag, r.path, r.innerText) := by
  rw [element?, elementFrom, Option.map_map]
  rfl

theorem Arena.elements_recorded (arena : d.Arena) :
    (d.elements.flatMap Element.descendantsAndSelf).map (fun e => (e.tag, e.path, e.text)) =
      d.records.map fun r => (r.tag, r.path, r.innerText) := by
  apply List.map_injective_iff.mpr (fun _ _ same => Option.some.inj same)
  calc ((d.elements.flatMap Element.descendantsAndSelf).map fun e => (e.tag, e.path, e.text)).map some
      = ((d.elements.flatMap Element.descendantsAndSelf).map some).map
          (Option.map fun e => (e.tag, e.path, e.text)) := by simp
    _ = (List.range d.size).map fun i => (d.record? i).map fun r => (r.tag, r.path, r.innerText) := by
        rw [arena.elements_ordered, List.map_map]
        exact List.map_congr_left fun i _ => element?_view d i
    _ = (d.records.map fun r => (r.tag, r.path, r.innerText)).map some := by
        apply List.ext_getElem
        · simp [size]
        · intro i bound _
          have inside : i < d.records.length := by simpa [size] using bound
          simp [record?, inside]

/-- The index structure of a document matches its tree, and spans are nested. -/
structure WellFormed (d : Document) : Prop where
  parent_first : ∀ {i p : Nat} {r : Record}, d.record? i = some r → r.parent = some p → p < i
  ascending : ∀ s : Option Nat, (d.childrenOf s).Pairwise (· < ·)
  children_exact : ∀ (s : Option Nat) (i : Nat),
    i ∈ d.childrenOf s ↔ ∃ r, d.record? i = some r ∧ r.parent = s
  descendants_exact : ∀ i < d.size, ∀ j,
    (d.descendants (some i)).1 ≤ j ∧ j < (d.descendants (some i)).2 ↔ d.Descends (some i) j
  elements_ordered : (d.elements.flatMap Element.descendantsAndSelf).map some =
    (List.range d.size).map d.element?
  elements_recorded :
    (d.elements.flatMap Element.descendantsAndSelf).map (fun e => (e.tag, e.path, e.text)) =
      d.records.map fun r => (r.tag, r.path, r.innerText)
  tags_enclosed : ∀ {i : Nat} {r : Record}, d.record? i = some r →
    r.outer.encloses r.startTag ∧ r.outer.encloses r.tagName
  inner_enclosed : ∀ {i : Nat} {r : Record}, d.record? i = some r → ∀ s ∈ r.inner,
    r.outer.encloses s
  attributes_enclosed : ∀ {i : Nat} {r : Record}, d.record? i = some r →
    ∀ a ∈ r.attributes, r.outer.encloses a.span
  children_enclosed : ∀ {i c : Nat} {r rc : Record}, d.record? i = some r → c ∈ r.children →
    d.record? c = some rc → r.outer.encloses rc.outer
  siblings_apart : ∀ s : Option Nat, (d.childrenOf s).Pairwise fun i j =>
    ∀ {ri rj : Record}, d.record? i = some ri → d.record? j = some rj →
      ri.outer.stop ≤ rj.outer.start

end Document

open Markup Node

namespace Outline

variable {o : Outline}

theorem faithful_inner_enclosed (faithful : o.Faithful) (nested : o.node.WellNested) {s : Span}
    (inner : Record.innerOf o = some s) : o.node.span.encloses s := by
  have tagRange := (nested o.tag (faithful_tag_within faithful)).range
  have tag := Span.encloses_iff.mp (wellNested_encloses nested (faithful_tag_within faithful))
  rw [Span.encloses_iff]
  unfold Record.innerOf at inner
  split at inner
  · simp at inner
  · split at inner
    · obtain rfl := Option.some.inj inner
      simp only [Span.point]
      omega
    · obtain rfl := Option.some.inj inner
      -- an end tag is a child of the node, so the content stops inside the node
      have stop : ((o.node.child? Kind.isEndTag).map (·.span.start)).getD o.node.span.stop ≤
          o.node.span.stop := by
        cases found : o.node.child? Kind.isEndTag with
        | none => simp
        | some c =>
          have within := Within.child Within.root (child?_mem found).1
          have range := (nested c within).range
          have enclosed := Span.encloses_iff.mp (wellNested_encloses nested within)
          simp only [Option.map_some, Option.getD_some]
          omega
      simp only
      omega

theorem faithful_attribute_enclosed (faithful : o.Faithful) (nested : o.node.WellNested)
    {t : Text} {a : Attribute} (member : a ∈ Attribute.ofTag t o.tag) :
    o.node.span.encloses a.span := by
  obtain ⟨n, inTag, read⟩ := List.mem_filterMap.mp member
  unfold Attribute.ofNode? at read
  split at read
  · obtain ⟨name, _, same⟩ := Option.map_eq_some_iff.mp read
    subst same
    exact wellNested_encloses nested (Within.child (faithful_tag_within faithful) inTag)
  · simp at read

theorem faithful_child_enclosed {p : Outline} (faithful : o.Faithful) (nested : o.node.WellNested)
    (member : p ∈ o.children) : o.node.span.encloses p.node.span := by
  obtain ⟨⟨n, inner, within⟩, _⟩ := faithful_child faithful member
  exact wellNested_encloses nested (within_child inner within)

end Outline

namespace Document

theorem stretch_apart {d : Document} {s : Site} {row : List Outline} (stretch : d.Stretch s row)
    (ordered : row.Pairwise Outline.Before) :
    (Record.indicesFrom s.index row).Pairwise fun i j =>
      ∀ {ri rj : Record}, d.record? i = some ri → d.record? j = some rj →
        ri.outer.stop ≤ rj.outer.start := by
  induction row generalizing s with
  | nil => exact List.Pairwise.nil
  | cons o row ih =>
    obtain ⟨first, rest⟩ := List.pairwise_cons.mp ordered
    refine List.pairwise_cons.mpr ⟨?_, ih (stretch_tail stretch) rest⟩
    intro j later ri rj foundI foundJ
    obtain ⟨site, p, inRow, _, recordJ⟩ := stretch_member (stretch_tail stretch) later foundJ
    have recordI := Option.some.inj ((stretch_record stretch).symm.trans foundI)
    rw [← recordI, recordJ]
    exact first p inRow

/-- The document of a syntax tree with nested spans is well formed, whatever the tree is. -/
theorem ofNode_wellFormed (t : Text) (root : Node) (nested : root.WellNested) :
    (ofNode t root).WellFormed := by
  have arena := ofNode_arena t root
  have faithful : ∀ {i : Nat} {r : Record}, (ofNode t root).record? i = some r →
      ∃ (site : Site) (o : Outline), r = site.record t o ∧ o.Faithful ∧ o.node.WellNested := by
    intro i r found
    obtain ⟨site, o, occurs, _, same, _⟩ := ofNode_found found
    obtain ⟨within, faithful⟩ := Outline.occurs_faithful occurs
    exact ⟨site, o, same, faithful, wellNested_within nested within⟩
  constructor
  case parent_first => exact arena.parent_lt
  case ascending => exact arena.children_ascending
  case children_exact => exact arena.mem_children_iff
  case descendants_exact => exact fun i _ j => arena.covers_iff_descends (some i) j
  case elements_ordered => exact arena.elements_ordered
  case elements_recorded => exact arena.elements_recorded
  case tags_enclosed =>
    intro i r found
    obtain ⟨site, o, same, faithful, nestedO⟩ := faithful found
    subst same
    exact ⟨wellNested_encloses nestedO (Outline.faithful_tag_within faithful),
      wellNested_encloses nestedO (Outline.faithful_name_within faithful)⟩
  case inner_enclosed =>
    intro i r found s inner
    obtain ⟨site, o, same, faithful, nestedO⟩ := faithful found
    subst same
    exact Outline.faithful_inner_enclosed faithful nestedO inner
  case attributes_enclosed =>
    intro i r found a member
    obtain ⟨site, o, same, faithful, nestedO⟩ := faithful found
    subst same
    exact Outline.faithful_attribute_enclosed faithful nestedO member
  case children_enclosed =>
    intro i c r rc found member foundC
    obtain ⟨site, o, occurs, index, same, stretch⟩ := ofNode_found found
    obtain ⟨within, faithfulO⟩ := Outline.occurs_faithful occurs
    subst same
    obtain ⟨place, p, inRow, _, sameC⟩ := stretch_member stretch member foundC
    subst sameC
    exact Outline.faithful_child_enclosed faithfulO (wellNested_within nested within) inRow
  case siblings_apart =>
    intro s
    obtain ⟨site, row, stretch, children, _, _, _, isRow⟩ := ofNode_scope t root s
    rw [children]
    exact stretch_apart stretch (Outline.row_ordered nested isRow)

theorem strayTagTree_wellFormed :
    strayTagTree.WellNested ∧ (ofNode "<p a><b/></p><i>" strayTagTree).WellFormed :=
  have nested : strayTagTree.WellNested := by decide
  ⟨nested, ofNode_wellFormed _ strayTagTree nested⟩

end Document

end TemplateMarkup
