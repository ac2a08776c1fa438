import TemplateMarkup.Proofs.Edit.Exact
import TemplateMarkup.Proofs.Markup.Shapes

/-!
Tags of a text that lacks nothing. What closes a tag, an attribute or a quoted value is there, so a new value
starts before the end of its attribute, and a new attribute before the end of the tag.
-/
namespace TemplateMarkup

open Markup Node

namespace Markup.Node

variable {t : Text} {n : Node}

def Present (root : Node) : Prop := ∀ n, root.Within n → n.missing = false

instance (root : Node) : Decidable root.Present :=
  inferInstanceAs (Decidable (∀ n, root.Within n → n.missing = false))

/-- A child of another kind than the last one ends before the last one starts. -/
theorem nested_before_last {c d : Node} (nested : n.Nested) (last : n.children.getLast? = some c)
    (member : d ∈ n.children) (other : d.kind ≠ c.kind) : d.span.stop ≤ c.span.start := by
  obtain ⟨init, list⟩ := List.getLast?_eq_some_iff.mp last
  have ordered := nested.ordered
  rw [list] at member ordered
  rcases List.mem_append.mp member with early | same
  · exact (List.pairwise_append.mp ordered).2.2 d early c (by simp)
  · exact absurd (congrArg kind (List.mem_singleton.mp same)) other

/-- Between the ends of a quoted value are both of its quotation marks, and its text ends before the
second one. -/
theorem quoted_lt (present : (read t).Present) (within : (read t).Within n)
    (kind : n.kind.isQuotedValue) : n.span.start + 1 < n.span.stop ∧
      ∀ v ∈ n.children, v.kind.isAttributeValue → v.span.start < n.span.stop := by
  have nested := (read_settled t n within).1
  have mark : ∀ c ∈ n.children, ∀ q : Quote, c.kind = .terminal q.mark → c.span.start < c.span.stop := by
    intro c member q named
    have inner := Within.child within member
    exact read_filled inner named (by cases q <;> rfl) (present c inner)
  obtain ⟨a, b, middle, p, q, list, kindA, kindB⟩ := read_quoted within kind
  have memberA : a ∈ n.children := by simp [list]
  have memberB : b ∈ n.children := by simp [list]
  have filledA := mark a memberA p kindA
  have filledB := mark b memberB q kindB
  have enclosedA := Span.encloses_iff.mp (nested.encloses a memberA)
  have enclosedB := Span.encloses_iff.mp (nested.encloses b memberB)
  have before : a.span.stop ≤ b.span.start := by
    have ordered := nested.ordered
    rw [list] at ordered
    exact (List.pairwise_cons.mp ordered).1 b (by simp)
  refine ⟨by omega, ?_⟩
  intro v member text
  have other : v.kind ≠ b.kind := by
    intro same
    rw [same, kindB] at text
    cases q <;> cases text
  have last : n.children.getLast? = some b := List.getLast?_eq_some_iff.mpr ⟨a :: middle, list⟩
  have early := nested_before_last nested last member other
  have range := (read_settled t v (Within.child within member)).1.range
  omega

theorem attribute_filled (present : (read t).Present) (within : (read t).Within n)
    (kind : n.kind.isAttribute) : n.span.start < n.span.stop := by
  obtain ⟨c, last, closes⟩ := read_closed within (beq_iff_eq.mp kind) rfl
  have member := List.mem_of_getLast? last
  have inner := Within.child within member
  have enclosed := Span.encloses_iff.mp ((read_settled t n within).1.encloses c member)
  have filled : c.span.start < c.span.stop := by
    rcases closes with name | value | quoted
    · exact read_filled inner (Kind.label_injective name) rfl (present c inner)
    · exact read_filled inner (Kind.label_injective value) rfl (present c inner)
    · have marks := (quoted_lt present inner (beq_iff_eq.mpr (Kind.label_injective quoted))).1
      omega
  omega

theorem opening_cases {k : Kind} (opening : k.isStartTag || k.isSelfClosingTag) :
    ∃ m : Nonterminal, k = .nonterminal m ∧ m.isTagPart ∧
      ∀ l, State.Closes m l → l = .terminal .tagClose ∨ l = .terminal .selfClose := by
  cases k with
  | terminal s => cases opening
  | fault => cases opening
  | nonterminal m =>
    refine ⟨m, rfl, ?_⟩
    cases m
    case startTag | scriptStartTag | styleStartTag => exact ⟨rfl, fun _ => Or.inl⟩
    case selfClosingTag => exact ⟨rfl, fun _ => Or.inr⟩
    all_goals cases opening

/-- The name and the attributes of an opening tag end before the tag does. -/
theorem tag_part_lt (present : (read t).Present) (within : (read t).Within n)
    (opening : n.kind.isStartTag || n.kind.isSelfClosingTag) {d : Node} (member : d ∈ n.children)
    (part : d.kind.isTagName || d.kind.isAttribute) : d.span.stop < n.span.stop := by
  obtain ⟨m, kind, isPart, closing⟩ := opening_cases opening
  obtain ⟨c, last, closes⟩ := read_closed within kind isPart
  have memberC := List.mem_of_getLast? last
  have inner := Within.child within memberC
  have nested := (read_settled t n within).1
  have enclosed := Span.encloses_iff.mp (nested.encloses c memberC)
  have ends : ∃ s : Terminal, c.kind = .terminal s ∧ s.isSolid ∧ s.isName = false := by
    rcases closing _ closes with close | close
    · exact ⟨.tagClose, Kind.label_injective close, rfl, rfl⟩
    · exact ⟨.selfClose, Kind.label_injective close, rfl, rfl⟩
  obtain ⟨s, kindC, solid, nameless⟩ := ends
  have filled := read_filled inner kindC solid (present c inner)
  have other : d.kind ≠ c.kind := by
    intro same
    rcases (Bool.or_eq_true _ _).mp part with name | value
    · obtain ⟨s', kindD, named⟩ := isTagName_cases name
      rw [same, kindC] at kindD
      cases kindD
      rw [nameless] at named
      cases named
    · rw [same, kindC] at value
      cases value
  have early := nested_before_last nested last member other
  omega

end Markup.Node

namespace Attribute

variable {t : Text} {n : Node} {a : Attribute}

theorem readValue_lt (present : (read t).Present) (within : (read t).Within n) :
    ∀ s ∈ (readValue t n).2.1, ∀ q ∈ (readValue t n).2.2, s.start < n.span.stop := by
  intro s valueSpan q quote
  unfold readValue at valueSpan quote
  split at valueSpan
  · rename_i quoted found
    obtain ⟨member, kind⟩ := child?_mem found
    have enclosed := Span.encloses_iff.mp ((read_settled t n within).1.encloses quoted member)
    obtain ⟨marks, text⟩ := quoted_lt present (Within.child within member) kind
    dsimp only at valueSpan
    split at valueSpan
    · rename_i v inner
      obtain rfl := Option.some.inj valueSpan
      obtain ⟨memberV, kindV⟩ := child?_mem inner
      have early := text v memberV kindV
      omega
    · obtain rfl := Option.some.inj valueSpan
      simp only [Span.point]
      omega
  · rename_i unquoted
    rw [unquoted] at quote
    dsimp only at quote
    split at quote
    · cases quote
    · cases quote

theorem ofNode?_parts (found : ofNode? t n = some a) : n.kind.isAttribute ∧ a.span = n.span ∧
    a.valueSpan = (readValue t n).2.1 ∧ a.quote = (readValue t n).2.2 := by
  unfold ofNode? at found
  split at found
  · rename_i kind
    obtain ⟨name, _, rfl⟩ := Option.map_eq_some_iff.mp found
    exact ⟨kind, rfl, rfl, rfl⟩
  · cases found

/-- A new value starts before the end of its attribute. -/
theorem assign_lt (present : (read t).Present) (within : (read t).Within n)
    (found : ofNode? t n = some a) (value : Text) : (Edit.assign a value).span.start < a.span.stop := by
  obtain ⟨kind, span, valueSpan, quote⟩ := ofNode?_parts found
  unfold Edit.assign
  split
  · rename_i s q someSpan someQuote
    rw [span]
    exact readValue_lt present within s (valueSpan ▸ someSpan) q (quote ▸ someQuote)
  · rw [span]
    exact attribute_filled present within kind

end Attribute

theorem Document.read_solid {t : Text} {r : Record} (present : (Node.read t).Present)
    (member : r ∈ (Document.read t).records) : r.Solid := by
  obtain ⟨i, found⟩ := List.getElem?_of_mem member
  obtain ⟨site, o, occurs, _, rfl, _⟩ := ofNode_found found
  obtain ⟨within, faithful⟩ := Outline.occurs_faithful occurs
  have tag := within_trans within (Outline.faithful_tag_within faithful)
  have opening := (Outline.faithful_tag faithful).2
  constructor
  · intro a listed
    obtain ⟨n, child, read⟩ := List.mem_filterMap.mp listed
    exact Attribute.assign_lt present (Within.child tag child) read
  · obtain ⟨named, kind⟩ := Outline.faithful_name faithful
    have name := tag_part_lt present tag opening named (by simp [kind])
    unfold Record.insertPoint
    cases last : (site.record t o).attributes.getLast? with
    | none => exact name
    | some a =>
      obtain ⟨n, child, read⟩ := List.mem_filterMap.mp (List.mem_of_getLast? last)
      obtain ⟨kindN, span, _⟩ := Attribute.ofNode?_parts read
      show a.span.stop < o.tag.span.stop
      rw [span]
      exact tag_part_lt present tag opening child (by simp [kindN])

end TemplateMarkup
