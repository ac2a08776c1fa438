import TemplateMarkup.Proofs.Blanks
import TemplateMarkup.Proofs.Edit.Places
import TemplateMarkup.Proofs.Markup.Shapes
import TemplateMarkup.Proofs.Preorder
import TemplateMarkup.Query.Basic

/-!
The text content of elements. The leaves with content of an element stand in a row among those of every
element around it, and are joined there as they are joined here, so the text of an element is a part of
the text of all its ancestors. Only blanks tell the text apart from its leaves.
-/
namespace TemplateMarkup

open Markup

namespace Markup.Node

/-- Nodes with content to read have no nodes below them. -/
def Leafy (root : Node) : Prop := ∀ n, root.Within n → n.kind.isTextual → n.children = []

/-- The nodes of a tree with content to read, in document order. -/
def textLeaves (n : Node) : List Node := n.nodes.filter (·.kind.isTextual)

variable {root n m : Node}

theorem leafy_within (leafy : root.Leafy) (within : root.Within n) : n.Leafy :=
  fun m inner => leafy m (within_trans within inner)

theorem mem_textLeaves : m ∈ n.textLeaves ↔ n.Within m ∧ m.kind.isTextual := by
  rw [textLeaves, List.mem_filter, within_iff_mem_nodes]

theorem nodes_eq (n : Node) : n.nodes = n :: nodesOfAll n.children := by
  obtain ⟨kind, span, line, missing, children⟩ := n
  rfl

theorem infix_nodesOfAll {ns : List Node} (member : n ∈ ns) : n.nodes <:+: nodesOfAll ns := by
  induction ns with
  | nil => cases member
  | cons m ns ih =>
    rw [nodesOfAll]
    rcases List.mem_cons.mp member with rfl | later
    · exact (List.prefix_append ..).isInfix
    · exact (ih later).trans (List.suffix_append ..).isInfix

/-- The nodes of a subtree stand in a row among those of the tree. -/
theorem infix_nodes (within : root.Within n) : n.nodes <:+: root.nodes := by
  induction within with
  | root => exact List.infix_rfl
  | @child n c _ member ih =>
    have below : c.nodes <:+: n.nodes := by
      rw [nodes_eq n]
      exact (infix_nodesOfAll member).trans (List.suffix_cons n _).isInfix
    exact below.trans ih

mutual

theorem textSpans_eq : ∀ n : Node, n.Leafy → Record.textSpans n = n.textLeaves.map (·.span)
  | ⟨kind, span, line, missing, children⟩, leafy => by
    rw [Record.textSpans, textLeaves, nodes, List.filter_cons]
    split
    · rename_i textual
      have none : children = [] := leafy _ Within.root textual
      simp [none, nodesOfAll]
    · exact textSpansAll_eq children fun c member =>
        leafy_within leafy (Within.child Within.root member)

theorem textSpansAll_eq : ∀ ns : List Node, (∀ n ∈ ns, n.Leafy) →
    Record.textSpansAll ns = ((nodesOfAll ns).filter (·.kind.isTextual)).map (·.span)
  | [], _ => rfl
  | n :: ns, leafy => by
    obtain ⟨here, later⟩ := List.forall_mem_cons.mp leafy
    rw [Record.textSpansAll, nodesOfAll, List.filter_append, List.map_append, textSpans_eq n here,
      textSpansAll_eq ns later, textLeaves]

end

mutual

theorem textLeaves_ordered : ∀ n : Node, n.WellNested → n.Leafy →
    n.textLeaves.Pairwise fun a b => a.span.stop ≤ b.span.start
  | ⟨kind, span, line, missing, children⟩, nested, leafy => by
    rw [textLeaves, nodes, List.filter_cons]
    split
    · rename_i textual
      have none : children = [] := leafy _ Within.root textual
      simp [none, nodesOfAll]
    · refine nodesOfAll_leaves_ordered children ?_ (nested _ Within.root).ordered
      intro c member
      have within : Within ⟨kind, span, line, missing, children⟩ c := Within.child Within.root member
      exact ⟨wellNested_within nested within, leafy_within leafy within⟩

theorem nodesOfAll_leaves_ordered : ∀ ns : List Node, (∀ n ∈ ns, n.WellNested ∧ n.Leafy) →
    (ns.Pairwise fun a b => a.span.stop ≤ b.span.start) →
    ((nodesOfAll ns).filter (·.kind.isTextual)).Pairwise fun a b => a.span.stop ≤ b.span.start
  | [], _, _ => List.Pairwise.nil
  | n :: ns, each, ordered => by
    obtain ⟨⟨nested, leafy⟩, later⟩ := List.forall_mem_cons.mp each
    obtain ⟨first, rest⟩ := List.pairwise_cons.mp ordered
    rw [nodesOfAll, List.filter_append]
    refine List.pairwise_append.mpr
      ⟨textLeaves_ordered n nested leafy, nodesOfAll_leaves_ordered ns later rest, ?_⟩
    intro a memberA b memberB
    have withinA := (within_iff_mem_nodes n a).mpr (List.mem_filter.mp memberA).1
    obtain ⟨m, member, withinB⟩ := (exists_within_iff ns b).mpr (List.mem_filter.mp memberB).1
    have gap := first m member
    have enclosedA := Span.encloses_iff.mp (wellNested_encloses nested withinA)
    have enclosedB := Span.encloses_iff.mp (wellNested_encloses (later m member).1 withinB)
    omega

end

theorem textSpans_infix (leafy : root.Leafy) (within : root.Within n) :
    Record.textSpans n <:+: Record.textSpans root := by
  rw [textSpans_eq root leafy, textSpans_eq n (leafy_within leafy within)]
  exact ((infix_nodes within).filter _).map _

theorem read_leafy (t : Text) : (read t).Leafy := by
  intro n within textual
  obtain ⟨s, kind⟩ : ∃ s : Terminal, n.kind = .terminal s := by
    cases kind : n.kind with
    | terminal s => exact ⟨s, rfl⟩
    | nonterminal s => simp [kind, Kind.isTextual] at textual
    | fault => simp [kind, Kind.isTextual] at textual
  obtain ⟨x, shows⟩ := read_source within (by simp [kind])
  have label : x.label = .terminal s := by rw [← shows.label, kind]; rfl
  rw [shows.children, shows.inside.sound.here.leaf s label, shownAll]

end Markup.Node

namespace Record

open Text

variable {t : Text}

/-- The end of the last span of a row, or else of what came before the row. -/
def lastStop (last : Option Nat) (spans : List Span) : Option Nat :=
  spans.foldl (fun _ s => some s.stop) last

theorem joinSpans_cons (last : Option Nat) (s : Span) (spans : List Span) :
    joinSpans t last (s :: spans) = joinSpans t last [s] ++ joinSpans t (some s.stop) spans := by
  simp [joinSpans]

theorem joinSpans_append (last : Option Nat) (spans more : List Span) :
    joinSpans t last (spans ++ more) =
      joinSpans t last spans ++ joinSpans t (lastStop last spans) more := by
  induction spans generalizing last with
  | nil => rfl
  | cons s spans ih =>
    rw [List.cons_append, joinSpans_cons, ih, ← List.append_assoc, ← joinSpans_cons]
    rfl

/-- What comes before a row of spans is only seen in blanks before the first of them. -/
theorem joinSpans_gap (last : Option Nat) (spans : List Span) :
    ∃ gap : Text, (∀ c ∈ gap, isBlank c) ∧ joinSpans t last spans = gap ++ joinSpans t none spans := by
  cases spans with
  | nil => exact ⟨[], by simp, rfl⟩
  | cons s spans =>
    cases last with
    | none => exact ⟨[], by simp, rfl⟩
    | some stop =>
      simp only [joinSpans]
      split
      · exact ⟨[' '], List.forall_mem_singleton.mpr rfl, by simp⟩
      · exact ⟨[], by simp, rfl⟩

theorem infix_joinSpans {spans whole : List Span} (inside : spans <:+: whole) :
    joinSpans t none spans <:+: joinSpans t none whole := by
  obtain ⟨before, after, rfl⟩ := inside
  rw [joinSpans_append, joinSpans_append]
  obtain ⟨gap, _, here⟩ := joinSpans_gap (t := t) (lastStop none before) spans
  rw [here, ← List.append_assoc (joinSpans t none before) gap]
  exact List.infix_append ..

theorem solid_joinSpans_last (last : Option Nat) (spans : List Span) :
    solid (joinSpans t last spans) = solid (joinSpans t none spans) := by
  obtain ⟨gap, blank, parts⟩ := joinSpans_gap (t := t) last spans
  have dropped : solid gap = [] := List.filter_eq_nil_iff.mpr (by simpa using blank)
  rw [parts, solid_append, dropped, List.nil_append]

theorem solid_joinSpans (spans : List Span) :
    solid (joinSpans t none spans) = spans.flatMap fun s => solid (s.slice t) := by
  induction spans with
  | nil => rfl
  | cons s spans ih =>
    have first : joinSpans t none [s] = s.slice t := by simp [joinSpans]
    rw [joinSpans_cons, solid_append, first, solid_joinSpans_last, ih, List.flatMap_cons]

theorem innerTextOf_infix {n m : Node} (leafy : n.Leafy) (within : n.Within m) :
    innerTextOf t m <:+: innerTextOf t n :=
  trim_infix (infix_joinSpans (Node.textSpans_infix leafy within))

theorem solid_innerTextOf {n : Node} (leafy : n.Leafy) :
    solid (innerTextOf t n) = n.textLeaves.flatMap fun leaf => solid (leaf.span.slice t) := by
  rw [innerTextOf, solid_trim, solid_joinSpans, Node.textSpans_eq n leafy, List.flatMap_map]

end Record

theorem Text.includes_iff_infix {t part : Text} : t.includes part = true ↔ part <:+: t := by
  have leads : ∀ s : Text, s.startsWith part = true ↔ part <+: s := by
    intro s
    rw [startsWith, Option.isSome_iff_exists]
    simp only [stripLead?_eq_some_iff]
    exact ⟨fun ⟨rest, whole⟩ => ⟨rest, whole.symm⟩, fun ⟨rest, whole⟩ => ⟨rest, whole.symm⟩⟩
  induction t with
  | nil =>
    rw [includes, Bool.or_false, leads, List.prefix_nil, List.infix_nil]
  | cons c t ih =>
    rw [includes, Bool.or_eq_true, leads, List.infix_cons_iff]
    exact or_congr Iff.rfl ih

namespace Document

open Node

theorem child_innerText {t : Text} {root : Node} (leafy : root.Leafy) {i c : Nat} {r rc : Record}
    (found : (ofNode t root).record? i = some r) (foundC : (ofNode t root).record? c = some rc)
    (parent : rc.parent = some i) : rc.innerText <:+: r.innerText := by
  have member := (ofNode_arena t root).found_is_child foundC
  rw [parent, childrenOf_found found] at member
  obtain ⟨site, o, occurs, _, rfl, stretch⟩ := ofNode_found found
  obtain ⟨within, faithful⟩ := Outline.occurs_faithful occurs
  obtain ⟨place, p, inRow, _, rfl⟩ := stretch_member stretch member foundC
  obtain ⟨⟨n, child, inner⟩, _⟩ := Outline.faithful_child faithful inRow
  exact Record.innerTextOf_infix (leafy_within leafy within) (within_child child inner)

theorem descendant_innerText {t : Text} {root : Node} (leafy : root.Leafy) {i j : Nat} {r s : Record}
    (found : (ofNode t root).record? i = some r) (foundJ : (ofNode t root).record? j = some s)
    (descends : (ofNode t root).Descends (some i) j) : s.innerText <:+: r.innerText := by
  induction descends generalizing s with
  | child foundC parent =>
    obtain rfl := Option.some.inj (foundC.symm.trans foundJ)
    exact child_innerText leafy found foundC parent
  | deeper foundC parent _ ih =>
    obtain rfl := Option.some.inj (foundC.symm.trans foundJ)
    obtain ⟨between, foundP⟩ := (ofNode_arena t root).parent_found foundC parent
    exact (child_innerText leafy foundP foundC parent).trans (ih foundP)

/-- The text of an element is a part of the text of each element around it, so what is in the one is in
the other. Up to blanks it is the text of the leaves with content of its node, one after the other. -/
theorem innerText_inherited (t : Text) :
    (∀ (i j : Nat) (r s : Record), (read t).record? i = some r → (read t).record? j = some s →
      (read t).Descends (some i) j → s.innerText <:+: r.innerText ∧
        ∀ part, Condition.holds s (.textContains part) → Condition.holds r (.textContains part)) ∧
    ∀ (i : Nat) (r : Record), (read t).record? i = some r →
      ∃ o : Outline, o.Occurs (Outline.ofRoot (Node.read t)) ∧ r.Describes t o.node o.tag o.name ∧
        Text.solid r.innerText =
          o.node.textLeaves.flatMap (fun leaf => Text.solid (leaf.span.slice t)) ∧
        (∀ leaf ∈ o.node.textLeaves, leaf.children = [] ∧ leaf.span.On t) ∧
        o.node.textLeaves.Pairwise fun a b => a.span.stop ≤ b.span.start := by
  have leafy := Node.read_leafy t
  have settled := Node.read_settled t
  constructor
  · intro i j r s found foundJ descends
    have inside := descendant_innerText leafy found foundJ descends
    refine ⟨inside, ?_⟩
    intro part holds
    exact Text.includes_iff_infix.mpr ((Text.includes_iff_infix.mp holds).trans inside)
  · intro i r found
    obtain ⟨site, o, occurs, _, rfl, _⟩ := ofNode_found found
    obtain ⟨within, _⟩ := Outline.occurs_faithful occurs
    have leafyO := leafy_within leafy within
    have settledO := settled_within settled within
    refine ⟨o, occurs, ⟨rfl, rfl, rfl, rfl, rfl, rfl, rfl, rfl⟩, Record.solid_innerTextOf leafyO, ?_,
      textLeaves_ordered o.node (settled_wellNested settledO) leafyO⟩
    intro leaf member
    obtain ⟨inner, textual⟩ := mem_textLeaves.mp member
    exact ⟨leafyO leaf inner textual, settled_on (settled_within settledO inner)⟩

end Document

end TemplateMarkup
