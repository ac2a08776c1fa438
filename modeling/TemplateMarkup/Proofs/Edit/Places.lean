import TemplateMarkup.Proofs.Edit.Weave
import TemplateMarkup.Proofs.Markup.Nodes

/-!
The places of the records of a text. All of them lie between characters. The attributes of a tag
follow each other inside the tag, each with its value inside of it, and what lies between the tags
of an element comes after its opening tag.
-/
namespace TemplateMarkup

open Markup Cursor

theorem Cursor.in_boundary {t : Text} {c : Cursor} (inside : c.In t) : t.Boundary c.offset := by
  obtain ⟨lead, split, size⟩ := in_split inside
  exact ⟨lead, c.rest, split, size.symm⟩

theorem Span.point_on {t : Text} {n : Nat} (boundary : t.Boundary n) : (point n).On t :=
  ⟨Nat.le_refl n, boundary, boundary⟩

namespace Markup.Node

theorem placed_on {t : Text} {n : Node} (placed : n.Placed t) : n.span.On t := by
  obtain ⟨c, d, inside, reaches, span, _⟩ := placed
  rw [span]
  exact ⟨reaches_offset reaches, in_boundary inside, in_boundary (in_reaches inside reaches)⟩

theorem settled_within {t : Text} {root n : Node} (settled : root.Settled t)
    (within : root.Within n) : n.Settled t :=
  fun m inner => settled m (within_trans within inner)

theorem settled_on {t : Text} {n : Node} (settled : n.Settled t) : n.span.On t :=
  placed_on (settled n Within.root).2

theorem settled_child {t : Text} {n c : Node} (settled : n.Settled t) (member : c ∈ n.children) :
    c.Settled t ∧ n.span.encloses c.span :=
  ⟨settled_within settled (Within.child Within.root member),
    (settled n Within.root).1.encloses c member⟩

end Markup.Node

namespace Attribute

/-- The attribute lies between characters, and its value is what stands inside of it. -/
structure Settled (t : Text) (a : Attribute) : Prop where
  on : a.span.On t
  value : ∀ s ∈ a.valueSpan, s.On t ∧ a.span.encloses s
  read : a.value = a.valueSpan.map fun s => s.slice t

open Node

theorem readValue_settled {t : Text} {n : Node} (settled : n.Settled t) :
    ∀ s ∈ (readValue t n).2.1, s.On t ∧ n.span.encloses s := by
  intro s valueSpan
  unfold readValue at valueSpan
  split at valueSpan
  · rename_i quoted found
    obtain ⟨settledQuoted, enclosed⟩ := settled_child settled (child?_mem found).1
    dsimp only at valueSpan
    split at valueSpan
    · rename_i v inner
      obtain rfl := Option.some.inj valueSpan
      obtain ⟨settledV, enclosedV⟩ := settled_child settledQuoted (child?_mem inner).1
      exact ⟨settled_on settledV, Span.encloses_trans enclosed enclosedV⟩
    · -- an empty value stands after the quotation mark
      obtain rfl := Option.some.inj valueSpan
      obtain ⟨c, d, inside, _, span, mark⟩ := (settledQuoted quoted Within.root).2
      obtain ⟨q, head, reaches⟩ := mark (child?_mem found).2
      have next : (c.skip 1).offset = c.offset + 1 := by
        obtain ⟨rest, split⟩ := List.head?_eq_some_iff.mp head
        cases q <;> simp [skip, split, Quote.char] <;> decide
      have ahead := reaches_offset reaches
      have point : min (quoted.span.start + 1) quoted.span.stop = (c.skip 1).offset := by
        rw [span]
        dsimp only
        omega
      rw [point]
      refine ⟨Span.point_on (in_boundary (in_reaches inside (reaches_skip c 1))), ?_⟩
      rw [Span.encloses_iff] at enclosed ⊢
      rw [span] at enclosed
      simp only [Span.point]
      dsimp only at enclosed
      omega
  · split at valueSpan
    · rename_i v found
      obtain rfl := Option.some.inj valueSpan
      obtain ⟨settledV, enclosed⟩ := settled_child settled (child?_mem found).1
      exact ⟨settled_on settledV, enclosed⟩
    · simp at valueSpan

theorem readValue_slice {t : Text} {n : Node} (settled : n.Settled t) :
    (readValue t n).1 = (readValue t n).2.1.map fun s => s.slice t := by
  have on := readValue_settled settled
  unfold readValue at on ⊢
  split
  · rename_i quoted found
    rw [found] at on
    dsimp only at on ⊢
    split
    · rfl
    · rename_i empty
      rw [empty] at on
      have boundary := (on _ rfl).1.start
      exact congrArg some (Text.slice_self boundary).symm
  · split <;> rfl

theorem ofNode?_settled {t : Text} {n : Node} {a : Attribute} (settled : n.Settled t)
    (found : ofNode? t n = some a) : a.span = n.span ∧ a.Settled t := by
  unfold ofNode? at found
  split at found
  · obtain ⟨name, _, rfl⟩ := Option.map_eq_some_iff.mp found
    exact ⟨rfl, settled_on settled, readValue_settled settled, readValue_slice settled⟩
  · simp at found

theorem ofTag_settled {t : Text} {tag : Node} (settled : tag.Settled t) :
    (∀ a ∈ ofTag t tag, a.Settled t ∧ tag.span.encloses a.span) ∧
      (ofTag t tag).Pairwise fun a b => a.span.stop ≤ b.span.start := by
  have each : ∀ n ∈ tag.children, ∀ a, ofNode? t n = some a → a.span = n.span ∧ a.Settled t :=
    fun n member a found => ofNode?_settled (settled_child settled member).1 found
  constructor
  · intro a member
    obtain ⟨n, child, found⟩ := List.mem_filterMap.mp member
    obtain ⟨span, settledA⟩ := each n child a found
    exact ⟨settledA, span ▸ (settled_child settled child).2⟩
  · refine List.pairwise_filterMap.mpr ?_
    refine (settled tag Within.root).1.ordered.imp_of_mem ?_
    intro n m memberN memberM before a foundA b foundB
    rw [(each n memberN a foundA).1, (each m memberM b foundB).1]
    exact before

end Attribute

namespace Record

structure Settled (t : Text) (r : Record) : Prop where
  outer : r.outer.On t
  startTag : r.startTag.On t
  tagName : r.tagName.On t
  tag_enclosed : r.outer.encloses r.startTag
  name_enclosed : r.startTag.encloses r.tagName
  attributes : ∀ a ∈ r.attributes, a.Settled t ∧ r.startTag.encloses a.span
  ordered : r.attributes.Pairwise fun a b => a.span.stop ≤ b.span.start
  inner : ∀ s ∈ r.inner, s.On t ∧ s.start = r.startTag.stop ∧ s.stop ≤ r.outer.stop

open Node Outline

theorem innerOf_settled {t : Text} {o : Outline} (faithful : o.Faithful)
    (settled : o.node.Settled t) :
    ∀ s ∈ innerOf o, s.On t ∧ s.start = o.tag.span.stop ∧ s.stop ≤ o.node.span.stop := by
  intro s inner
  have tag := settled_on (settled_within settled (faithful_tag_within faithful))
  have enclosed := Span.encloses_iff.mp
    (wellNested_encloses (settled_wellNested settled) (faithful_tag_within faithful))
  unfold innerOf at inner
  split at inner
  · simp at inner
  · split at inner
    · obtain rfl := Option.some.inj inner
      exact ⟨Span.point_on tag.stop, rfl, enclosed.2⟩
    · obtain rfl := Option.some.inj inner
      have stop : ∀ n, n = ((o.node.child? Kind.isEndTag).map (·.span.start)).getD
          o.node.span.stop → t.Boundary n ∧ n ≤ o.node.span.stop := by
        intro n same
        cases found : o.node.child? Kind.isEndTag with
        | none =>
          rw [found] at same
          exact same ▸ ⟨(settled_on settled).stop, Nat.le_refl _⟩
        | some c =>
          rw [found] at same
          obtain ⟨settledC, enclosedC⟩ := settled_child settled (child?_mem found).1
          have range := (settled_on settledC).range
          rw [Span.encloses_iff] at enclosedC
          have start : n = c.span.start := same
          exact start ▸ ⟨(settled_on settledC).start, by omega⟩
      obtain ⟨boundary, bound⟩ := stop _ rfl
      generalize ((o.node.child? Kind.isEndTag).map (·.span.start)).getD o.node.span.stop = n
        at boundary bound
      refine ⟨⟨Nat.le_max_right _ _, tag.stop, ?_⟩, rfl, Nat.max_le.mpr ⟨bound, enclosed.2⟩⟩
      rcases Nat.le_total n o.tag.span.stop with less | less
      · rw [Nat.max_eq_right less]
        exact tag.stop
      · rw [Nat.max_eq_left less]
        exact boundary

end Record

namespace Site

open Node Outline

/-- The outlines of a row follow each other, and each is true to a tree with nested spans. -/
structure Neat (row : List Outline) : Prop where
  each : ∀ o ∈ row, o.Faithful ∧ o.node.WellNested
  ordered : row.Pairwise Outline.Before

theorem neat_children {o : Outline} (faithful : o.Faithful) (nested : o.node.WellNested) :
    Neat o.children := by
  constructor
  · intro p member
    obtain ⟨⟨n, child, within⟩, below⟩ := faithful_child faithful member
    exact ⟨below, wellNested_within nested (within_child child within)⟩
  · rw [faithful.below]
    split
    · refine ofNodes_ordered true _ ?_ (nested o.node Within.root).ordered
      intro c member
      exact wellNested_within nested (Within.child Within.root member)
    · exact List.Pairwise.nil

/-- The tags of a row lie in the nodes of its outlines, and no two of them overlap. -/
theorem records_tags_apart (t : Text) (s : Site) {row : List Outline} (neat : Neat row) :
    (∀ r ∈ s.records t row, ∃ o ∈ row, o.node.span.encloses r.startTag) ∧
      (s.records t row).Pairwise fun a b => a.startTag.Apart b.startTag := by
  induction size : Outline.sizeAll row using Nat.strongRecOn generalizing s row with
  | ind n ih =>
    cases row with
    | nil => exact ⟨by simp [records, Record.ofOutlines], List.Pairwise.nil⟩
    | cons o row =>
      have whole : n = 1 + Outline.sizeAll o.children + Outline.sizeAll row := by
        rw [← size, Outline.sizeAll, Outline.size_eq]
      obtain ⟨⟨faithful, nested⟩, others⟩ := List.forall_mem_cons.mp neat.each
      obtain ⟨before, ordered⟩ := List.pairwise_cons.mp neat.ordered
      obtain ⟨insideO, apartO⟩ := ih _ (by omega) (s.inside t o) (neat_children faithful nested) rfl
      obtain ⟨insideRow, apartRow⟩ := ih _ (by omega) (s.after t o) ⟨others, ordered⟩ rfl
      have tag : o.node.span.encloses (s.record t o).startTag :=
        wellNested_encloses nested (faithful_tag_within faithful)
      have below : ∀ r ∈ (s.inside t o).records t o.children, o.node.span.encloses r.startTag := by
        intro r member
        obtain ⟨p, child, enclosed⟩ := insideO r member
        obtain ⟨⟨m, inner, within⟩, _⟩ := faithful_child faithful child
        exact Span.encloses_trans (wellNested_encloses nested (within_child inner within)) enclosed
      have later : ∀ a : Record, o.node.span.encloses a.startTag →
          ∀ b ∈ (s.after t o).records t row, a.startTag.Apart b.startTag := by
        intro a first b member
        obtain ⟨p, inRow, second⟩ := insideRow b member
        have gap := before p inRow
        rw [Span.encloses_iff] at first second
        unfold Outline.Before at gap
        left
        omega
      rw [records_cons]
      constructor
      · intro r member
        rcases List.mem_cons.mp member with rfl | rest
        · exact ⟨o, List.mem_cons_self .., tag⟩
        · rcases List.mem_append.mp rest with child | after
          · exact ⟨o, List.mem_cons_self .., below r child⟩
          · obtain ⟨p, inRow, enclosed⟩ := insideRow r after
            exact ⟨p, List.mem_cons_of_mem o inRow, enclosed⟩
      · refine List.pairwise_cons.mpr ⟨?_, List.pairwise_append.mpr ⟨apartO, apartRow, ?_⟩⟩
        · intro r member
          rcases List.mem_append.mp member with child | after
          · obtain ⟨p, inner, enclosed⟩ := insideO r child
            have apart : o.tag.span.stop ≤ p.node.span.start ∨ p.node.span.stop ≤ o.tag.span.start :=
              faithful_child_apart faithful nested inner
            rw [Span.encloses_iff] at enclosed
            show o.tag.span.stop ≤ r.startTag.start ∨ r.startTag.stop ≤ o.tag.span.start
            omega
          · exact later _ tag r after
        · intro a child
          exact later a (below a child)

end Site

theorem Document.read_settled {t : Text} {i : Nat} {r : Record}
    (found : (Document.read t).record? i = some r) : r.Settled t := by
  obtain ⟨site, o, occurs, _, rfl, _⟩ := ofNode_found found
  obtain ⟨within, faithful⟩ := Outline.occurs_faithful occurs
  have settled := Node.settled_within (Node.read_settled t) within
  have tag := Node.settled_within settled (Outline.faithful_tag_within faithful)
  obtain ⟨name, enclosed⟩ := Node.settled_child tag (Outline.faithful_name faithful).1
  obtain ⟨attributes, ordered⟩ := Attribute.ofTag_settled tag
  exact
    { outer := Node.settled_on settled
      startTag := Node.settled_on tag
      tagName := Node.settled_on name
      tag_enclosed := Node.wellNested_encloses (Node.settled_wellNested settled)
        (Outline.faithful_tag_within faithful)
      name_enclosed := enclosed
      attributes, ordered
      inner := Record.innerOf_settled faithful settled }

theorem Document.settled_of_mem {t : Text} {r : Record} (member : r ∈ (Document.read t).records) :
    r.Settled t := by
  obtain ⟨i, found⟩ := List.getElem?_of_mem member
  exact read_settled (i := i) found

theorem Document.ofNode_tags_apart (t : Text) {root : Node} (nested : root.WellNested) :
    (Document.ofNode t root).records.Pairwise fun a b => a.startTag.Apart b.startTag := by
  refine (Site.records_tags_apart t origin ⟨?_, Outline.row_ordered nested (Or.inl rfl)⟩).2
  intro o member
  obtain ⟨within, faithful⟩ := Outline.occurs_faithful (Outline.Occurs.member member)
  exact ⟨faithful, Node.wellNested_within nested within⟩

/-- No two opening tags of a text overlap, however the elements are nested. -/
theorem Document.read_tags_apart (t : Text) :
    (Document.read t).records.Pairwise fun a b => a.startTag.Apart b.startTag :=
  ofNode_tags_apart t (Node.settled_wellNested (Node.read_settled t))

end TemplateMarkup
