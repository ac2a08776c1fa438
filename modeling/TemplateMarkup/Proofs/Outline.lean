import TemplateMarkup.Proofs.Layout

/-!
Outlines against the syntax tree they come from. Every outline of a tree has a node of the tree, and
its tag, its name and its children are read off that node. Where the spans of the tree are nested and
siblings are in order, the same holds of the nodes of outlines, however deep they lie.
-/
namespace TemplateMarkup

namespace Span

theorem encloses_iff {a b : Span} : a.encloses b ↔ a.start ≤ b.start ∧ b.stop ≤ a.stop := by
  simp [Span.encloses]

theorem encloses_trans {a b c : Span} (outer : a.encloses b) (inner : b.encloses c) :
    a.encloses c := by
  rw [encloses_iff] at *
  omega

theorem encloses_refl (a : Span) : a.encloses a := by
  rw [encloses_iff]
  omega

end Span

namespace Markup.Node

inductive Within (root : Node) : Node → Prop where
  | root : Within root root
  | child {n c : Node} (inner : Within root n) (member : c ∈ n.children) : Within root c

theorem within_trans {a b c : Node} (outer : a.Within b) (inner : b.Within c) : a.Within c := by
  induction inner with
  | root => exact outer
  | child _ member ih => exact Within.child ih member

theorem within_child {n c m : Node} (member : c ∈ n.children) (inner : c.Within m) : n.Within m :=
  within_trans (Within.child Within.root member) inner

theorem within_mk_iff {kind : Kind} {span : Span} {line : Nat} {missing : Bool}
    {children : List Node} {n : Node} :
    Within ⟨kind, span, line, missing, children⟩ n ↔
      n = ⟨kind, span, line, missing, children⟩ ∨ ∃ c ∈ children, c.Within n := by
  constructor
  · intro within
    induction within with
    | root => exact Or.inl rfl
    | child _ member ih =>
      rcases ih with same | ⟨c, first, deeper⟩
      · subst same
        exact Or.inr ⟨_, member, Within.root⟩
      · exact Or.inr ⟨c, first, Within.child deeper member⟩
  · rintro (same | ⟨c, first, deeper⟩)
    · subst same
      exact Within.root
    · exact within_child (n := ⟨kind, span, line, missing, children⟩) first deeper

mutual

/-- The nodes of a tree, each before those below it. -/
def nodes : Node → List Node
  | ⟨kind, span, line, missing, children⟩ =>
    ⟨kind, span, line, missing, children⟩ :: nodesOfAll children

def nodesOfAll : List Node → List Node
  | [] => []
  | n :: ns => nodes n ++ nodesOfAll ns

end

mutual

theorem within_iff_mem_nodes : ∀ root n : Node, root.Within n ↔ n ∈ root.nodes
  | ⟨kind, span, line, missing, children⟩, n => by
    rw [within_mk_iff, exists_within_iff children n, nodes, List.mem_cons]

theorem exists_within_iff : ∀ (ns : List Node) (n : Node),
    (∃ c ∈ ns, c.Within n) ↔ n ∈ nodesOfAll ns
  | [], n => by simp [nodesOfAll]
  | c :: ns, n => by
    rw [nodesOfAll, List.mem_append, ← within_iff_mem_nodes c n, ← exists_within_iff ns n]
    simp

end

instance (root : Node) (P : Node → Prop) [DecidablePred P] :
    Decidable (∀ n, root.Within n → P n) :=
  decidable_of_iff (∀ n ∈ root.nodes, P n) (by simp only [within_iff_mem_nodes])

/-- Each node covers a range of bytes that contains the ranges of its children, and children do not
overlap and are in order. -/
structure Nested (n : Node) : Prop where
  range : n.span.start ≤ n.span.stop
  encloses : ∀ c ∈ n.children, n.span.encloses c.span
  ordered : n.children.Pairwise fun a b => a.span.stop ≤ b.span.start

instance (n : Node) : Decidable n.Nested :=
  decidable_of_iff (n.span.start ≤ n.span.stop ∧ (∀ c ∈ n.children, n.span.encloses c.span) ∧
      n.children.Pairwise fun a b => a.span.stop ≤ b.span.start)
    ⟨fun ⟨range, encloses, ordered⟩ => ⟨range, encloses, ordered⟩,
      fun ⟨range, encloses, ordered⟩ => ⟨range, encloses, ordered⟩⟩

def WellNested (root : Node) : Prop := ∀ n, root.Within n → n.Nested

instance (root : Node) : Decidable root.WellNested :=
  inferInstanceAs (Decidable (∀ n, root.Within n → n.Nested))

theorem wellNested_within {root n : Node} (nested : root.WellNested) (inner : root.Within n) :
    n.WellNested :=
  fun m deeper => nested m (within_trans inner deeper)

theorem wellNested_encloses {root n : Node} (nested : root.WellNested) (inner : root.Within n) :
    root.span.encloses n.span := by
  induction inner with
  | root => exact Span.encloses_refl root.span
  | @child n c above member ih => exact Span.encloses_trans ih ((nested n above).encloses c member)

theorem child?_mem {n c : Node} {p : Kind → Bool} (found : n.child? p = some c) :
    c ∈ n.children ∧ p c.kind := by
  have holds := List.find?_some (p := fun c : Node => p c.kind) found
  exact ⟨List.mem_of_find?_eq_some found, holds⟩

theorem isTag_of_isElement {k : Kind} (element : k.isElement) : k.isTag = false := by
  cases k with
  | terminal s => rfl
  | fault => rfl
  | nonterminal s => cases s <;> simp_all [Kind.isElement] <;> rfl

end Markup.Node

open Markup Node

namespace Outline

structure Faithful (o : Outline) : Prop where
  head : ∃ inElement, head? inElement o.node = some (o.tag, o.name)
  below : o.children = if o.node.kind.isElement then ofNodes true o.node.children else []

theorem faithful_head {o : Outline} (faithful : o.Faithful) :
    (∃ inElement, tagOf? inElement o.node = some o.tag) ∧ o.tag.child? Kind.isTagName = some o.name := by
  obtain ⟨inElement, head⟩ := faithful.head
  obtain ⟨tag, tagged, named⟩ := Option.bind_eq_some_iff.mp head
  obtain ⟨name, found, pair⟩ := Option.map_eq_some_iff.mp named
  obtain ⟨rfl, rfl⟩ := Prod.mk.inj pair
  exact ⟨⟨inElement, tagged⟩, found⟩

theorem faithful_tag {o : Outline} (faithful : o.Faithful) :
    (o.tag = o.node ∨ o.tag ∈ o.node.children) ∧
      (o.tag.kind.isStartTag || o.tag.kind.isSelfClosingTag) := by
  obtain ⟨⟨inElement, tagged⟩, _⟩ := faithful_head faithful
  unfold tagOf? at tagged
  split at tagged
  · rw [Option.orElse_eq_orElse, Option.orElse_eq_or] at tagged
    rcases Option.or_eq_some_iff.mp tagged with start | ⟨_, closing⟩
    · exact ⟨Or.inr (child?_mem start).1, by simp [(child?_mem start).2]⟩
    · exact ⟨Or.inr (child?_mem closing).1, by simp [(child?_mem closing).2]⟩
  · split at tagged
    · rename_i both
      obtain ⟨either, _⟩ := (Bool.and_eq_true _ _).mp both
      rw [Option.some.inj tagged] at either
      exact ⟨Or.inl (Option.some.inj tagged).symm, either⟩
    · simp at tagged

theorem faithful_name {o : Outline} (faithful : o.Faithful) :
    o.name ∈ o.tag.children ∧ o.name.kind.isTagName :=
  child?_mem (faithful_head faithful).2

theorem faithful_tag_within {o : Outline} (faithful : o.Faithful) : o.node.Within o.tag := by
  rcases (faithful_tag faithful).1 with same | member
  · rw [same]
    exact Within.root
  · exact Within.child Within.root member

theorem faithful_name_within {o : Outline} (faithful : o.Faithful) : o.node.Within o.name :=
  Within.child (faithful_tag_within faithful) (faithful_name faithful).1

mutual

theorem ofNode_faithful (inElement : Bool) :
    ∀ (n : Node) (o : Outline), o ∈ ofNode inElement n → n.Within o.node ∧ o.Faithful
  | ⟨kind, span, line, missing, children⟩, o, member => by
    rw [ofNode] at member
    split at member
    · rename_i tag name head
      obtain rfl := List.mem_singleton.mp member
      exact ⟨Within.root, ⟨⟨inElement, head⟩, rfl⟩⟩
    · split at member
      · simp at member
      · obtain ⟨n, inner, within, faithful⟩ := ofNodes_faithful kind.isElement children o member
        exact ⟨within_child inner within, faithful⟩

theorem ofNodes_faithful (inElement : Bool) :
    ∀ (ns : List Node) (o : Outline), o ∈ ofNodes inElement ns →
      ∃ n ∈ ns, n.Within o.node ∧ o.Faithful
  | [], o, member => by simp [ofNodes] at member
  | n :: ns, o, member => by
    rw [ofNodes] at member
    rcases List.mem_append.mp member with first | later
    · exact ⟨n, by simp, ofNode_faithful inElement n o first⟩
    · obtain ⟨m, inner, rest⟩ := ofNodes_faithful inElement ns o later
      exact ⟨m, List.mem_cons_of_mem n inner, rest⟩

end

theorem faithful_child {o p : Outline} (faithful : o.Faithful) (member : p ∈ o.children) :
    (∃ n ∈ o.node.children, n.Within p.node) ∧ p.Faithful := by
  rw [faithful.below] at member
  split at member
  · obtain ⟨n, inner, within, below⟩ := ofNodes_faithful true o.node.children p member
    exact ⟨⟨n, inner, within⟩, below⟩
  · simp at member

theorem mem_ofNodes {o : Outline} {inElement : Bool} {ns : List Node} :
    o ∈ ofNodes inElement ns ↔ ∃ n ∈ ns, o ∈ ofNode inElement n := by
  induction ns with
  | nil => simp [ofNodes]
  | cons n ns ih => simp [ofNodes, ih]

theorem ofNode_tag {n : Node} (tag : n.kind.isTag) : ofNode true n = [] := by
  obtain ⟨kind, span, line, missing, children⟩ := n
  have noElement : kind.isElement = false := by
    cases element : kind.isElement with
    | false => rfl
    | true => exact absurd tag (by simp [isTag_of_isElement element])
  have headless : head? true ⟨kind, span, line, missing, children⟩ = none := by
    simp [head?, tagOf?, noElement]
  have closed : kind.isTag = true := tag
  simp [ofNode, headless, closed]

/-- The children of an outline lie outside of its tag, before or after it. -/
theorem faithful_child_apart {o p : Outline} (faithful : o.Faithful) (nested : o.node.WellNested)
    (member : p ∈ o.children) :
    o.tag.span.stop ≤ p.node.span.start ∨ p.node.span.stop ≤ o.tag.span.start := by
  obtain ⟨place, opening⟩ := faithful_tag faithful
  have tag : o.tag.kind.isTag := by rw [Kind.isTag, opening, Bool.true_or]
  rw [faithful.below] at member
  split at member
  · rename_i element
    obtain ⟨n, child, inner⟩ := mem_ofNodes.mp member
    have enclosed := Span.encloses_iff.mp (wellNested_encloses
      (wellNested_within nested (Within.child Within.root child)) (ofNode_faithful true n p inner).1)
    have tagChild : o.tag ∈ o.node.children := by
      rcases place with same | inside
      · rw [same, isTag_of_isElement element] at tag
        cases tag
      · exact inside
    -- a tag has no outlines, so the child of the node that `p` comes from is another one
    have other : o.tag ≠ n := by
      intro same
      rw [← same, ofNode_tag tag] at inner
      cases inner
    have ordered := (nested o.node Within.root).ordered
    have apart := List.Pairwise.forall_of_forall_of_flip
      (R := fun a b : Node => a ≠ b → a.span.stop ≤ b.span.start ∨ b.span.stop ≤ a.span.start)
      (fun _ _ differs => absurd rfl differs) (ordered.imp fun before _ => Or.inl before)
      (ordered.imp fun before _ => Or.inr before) tagChild child other
    omega
  · cases member

theorem occurs_faithful {root : Node} {o : Outline} (occurs : o.Occurs (ofRoot root)) :
    root.Within o.node ∧ o.Faithful := by
  have rows : ∀ row : List Outline, o.Occurs row →
      (∀ p ∈ row, root.Within p.node ∧ p.Faithful) → root.Within o.node ∧ o.Faithful := by
    intro row occurs
    induction occurs with
    | member here =>
      intro all
      exact all o here
    | @deeper p row here _ ih =>
      intro all
      obtain ⟨within, faithful⟩ := all p here
      apply ih
      intro q member
      obtain ⟨⟨n, inner, below⟩, faithfulQ⟩ := faithful_child faithful member
      exact ⟨within_trans within (within_child inner below), faithfulQ⟩
  refine rows _ occurs ?_
  intro p member
  obtain ⟨n, inner, within, faithful⟩ := ofNodes_faithful _ root.children p member
  exact ⟨within_child inner within, faithful⟩

def Before (a b : Outline) : Prop := a.node.span.stop ≤ b.node.span.start

mutual

theorem ofNode_ordered (inElement : Bool) :
    ∀ n : Node, n.WellNested → (ofNode inElement n).Pairwise Before
  | ⟨kind, span, line, missing, children⟩, nested => by
    have here := nested _ Within.root
    rw [ofNode]
    split
    · exact List.pairwise_singleton _ _
    · split
      · exact List.Pairwise.nil
      · refine ofNodes_ordered kind.isElement children ?_ here.ordered
        intro c member
        exact wellNested_within nested (Within.child Within.root member)

theorem ofNodes_ordered (inElement : Bool) :
    ∀ ns : List Node, (∀ n ∈ ns, n.WellNested) →
      (ns.Pairwise fun a b => a.span.stop ≤ b.span.start) → (ofNodes inElement ns).Pairwise Before
  | [], _, _ => by
    rw [ofNodes]
    exact List.Pairwise.nil
  | n :: ns, nested, ordered => by
    obtain ⟨first, rest⟩ := List.pairwise_cons.mp ordered
    have nestedN := nested n (by simp)
    have nestedNs : ∀ m ∈ ns, m.WellNested := fun m member => nested m (List.mem_cons_of_mem n member)
    rw [ofNodes]
    refine List.pairwise_append.mpr
      ⟨ofNode_ordered inElement n nestedN, ofNodes_ordered inElement ns nestedNs rest, ?_⟩
    intro a memberA b memberB
    obtain ⟨withinA, _⟩ := ofNode_faithful inElement n a memberA
    obtain ⟨m, memberM, withinB, _⟩ := ofNodes_faithful inElement ns b memberB
    have gap := first m memberM
    have enclosedA := Span.encloses_iff.mp (wellNested_encloses nestedN withinA)
    have enclosedB := Span.encloses_iff.mp (wellNested_encloses (nestedNs m memberM) withinB)
    rw [Before]
    omega

end

theorem row_ordered {root : Node} {row : List Outline} (nested : root.WellNested)
    (isRow : IsRow root row) : row.Pairwise Before := by
  have below : ∀ n : Node, root.Within n → ∀ inElement,
      (ofNodes inElement n.children).Pairwise Before := by
    intro n within inElement
    refine ofNodes_ordered inElement _ ?_ (nested n within).ordered
    intro c member
    exact wellNested_within nested (Within.child within member)
  rcases isRow with outermost | empty | ⟨o, occurs, children⟩
  · rw [outermost]
    exact below root Within.root _
  · rw [empty]
    exact List.Pairwise.nil
  · obtain ⟨within, faithful⟩ := occurs_faithful occurs
    rw [children, faithful.below]
    split
    · exact below o.node within true
    · exact List.Pairwise.nil

end Outline

/-- The tree of `<p a><b/></p><i>`; its last tag has no element and stands in a fault. -/
def strayTagTree : Node :=
  let node (kind : Kind) (start stop : Nat) (children : List Node) : Node :=
    ⟨kind, ⟨start, stop⟩, 1, false, children⟩
  node (.nonterminal .document) 0 16
    [node (.nonterminal .element) 0 13
      [node (.nonterminal .startTag) 0 5
        [node (.terminal .startName) 1 2 [],
          node (.nonterminal .tagAttribute) 3 4 [node (.terminal .attributeName) 3 4 []]],
        node (.nonterminal .element) 5 9
          [node (.nonterminal .selfClosingTag) 5 9 [node (.terminal .startName) 6 7 []]],
        node (.nonterminal .endTag) 9 13 [node (.terminal .endName) 11 12 []]],
      node .fault 13 16 [node (.nonterminal .startTag) 13 16 [node (.terminal .startName) 14 15 []]]]

end TemplateMarkup
