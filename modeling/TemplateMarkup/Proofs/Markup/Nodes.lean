import TemplateMarkup.Proofs.Markup.Readers
import TemplateMarkup.Proofs.Outline

/-!
What a sound tree shows. Its nodes are nested, their ends lie between characters of the text, and
after the first character of a quoted value, which is its quotation mark, comes the rest of it. So
much is true of the syntax tree of every text.
-/
namespace TemplateMarkup.Markup.Node

open Cursor TemplateMarkup.Markup.Tree

/-- The nodes lie between the two offsets, one after the other. -/
structure Laid (lower upper : Nat) (ns : List Node) : Prop where
  inside : ∀ n ∈ ns, lower ≤ n.span.start ∧ n.span.stop ≤ upper
  ordered : ns.Pairwise fun a b => a.span.stop ≤ b.span.start

theorem laid_nil (lower upper : Nat) : Laid lower upper [] := ⟨by simp, List.Pairwise.nil⟩

theorem laid_append {lower middle upper : Nat} {ns ms : List Node} (first : Laid lower middle ns)
    (second : Laid middle upper ms) (low : lower ≤ middle) (high : middle ≤ upper) :
    Laid lower upper (ns ++ ms) := by
  constructor
  · intro n member
    rcases List.mem_append.mp member with early | late
    · have := first.inside n early
      omega
    · have := second.inside n late
      omega
  · refine List.pairwise_append.mpr ⟨first.ordered, second.ordered, ?_⟩
    intro a early b late
    have := first.inside a early
    have := second.inside b late
    omega

/-- The ends of the node lie between characters. A quoted value has its quotation mark. -/
def Placed (t : Text) (n : Node) : Prop :=
  ∃ c d : Cursor, c.In t ∧ c.Reaches d ∧ n.span = ⟨c.offset, d.offset⟩ ∧
    (n.kind.isQuotedValue → ∃ q : Quote, c.rest.head? = some q.char ∧ (c.skip 1).Reaches d)

def Settled (t : Text) (root : Node) : Prop := ∀ n, root.Within n → n.Nested ∧ n.Placed t

theorem settled_wellNested {t : Text} {root : Node} (settled : root.Settled t) : root.WellNested :=
  fun n within => (settled n within).1

theorem within_cases {m n : Node} (within : m.Within n) : n = m ∨ ∃ c ∈ m.children, c.Within n := by
  obtain ⟨kind, span, line, missing, children⟩ := m
  exact within_mk_iff.mp within

theorem placed_quoted {t : Text} {x : Tree} (sound : x.Sound) (inside : x.info.origin.In t)
    {n : Node} (span : n.span = ⟨x.info.start.offset, x.info.stop.offset⟩)
    (kind : n.kind.isQuotedValue → x.label = .nonterminal .quotedValue) : n.Placed t := by
  have here := sound.here
  refine ⟨x.info.start, x.info.stop, in_reaches inside here.lead, here.body, span, ?_⟩
  intro quoted
  obtain ⟨q, y, head, label, present⟩ := here.opened (kind quoted)
  have member : y ∈ x.children := List.mem_of_head? head
  obtain ⟨char, stop⟩ := (sound.child member).here.mark q label present
  rw [here.first y head] at char stop
  refine ⟨q, char, ?_⟩
  rw [← stop]
  have row := here.row (List.ne_nil_of_mem member)
  obtain ⟨rest, children⟩ := List.head?_eq_some_iff.mp head
  rw [children] at row
  cases row with
  | cons _ tail =>
    refine row_reaches tail fun z later => sound.child ?_
    rw [children]
    exact List.mem_cons_of_mem y later

mutual

theorem shown_settled {t : Text} : ∀ x : Tree, x.Sound → x.info.origin.In t →
    Laid x.info.start.offset x.info.stop.offset (shown x) ∧ ∀ n ∈ shown x, n.Settled t
  | ⟨label, info, children⟩, sound, inside => by
    have here := sound.here
    have range := reaches_offset here.body
    have below : Laid info.start.offset info.stop.offset (shownAll children) ∧
        ∀ n ∈ shownAll children, n.Settled t := by
      cases list : children with
      | nil => exact ⟨by simp [shownAll, laid_nil], by simp [shownAll]⟩
      | cons y ys =>
        rw [← list]
        have row : Row info.origin children info.stop := here.row (by simp [list])
        refine shownAll_settled children row (fun x member => sound.child member) inside ?_ range
        intro x head
        exact Nat.le_of_eq (congrArg Cursor.offset (here.first x head)).symm
    -- a shown tree is one node over the nodes of its children
    have single : ∀ n : Node, n.span = ⟨info.start.offset, info.stop.offset⟩ →
        n.children = shownAll children →
        (n.kind.isQuotedValue → label = .nonterminal .quotedValue) →
        Laid info.start.offset info.stop.offset [n] ∧ ∀ m ∈ [n], m.Settled t := by
      intro n span inner kind
      refine ⟨⟨by simp [span], List.pairwise_singleton _ _⟩, ?_⟩
      intro m member
      obtain rfl := List.mem_singleton.mp member
      intro k within
      have top : m.Nested := by
        refine ⟨by simpa [span] using range, ?_, ?_⟩
        · intro c member
          rw [inner] at member
          rw [Span.encloses_iff, span]
          exact below.1.inside c member
        · rw [inner]
          exact below.1.ordered
      rcases within_cases within with same | ⟨c, member, rest⟩
      · rw [same]
        exact ⟨top, placed_quoted sound inside span kind⟩
      · rw [inner] at member
        exact below.2 c member k rest
    cases label with
    | terminal s =>
      rw [shown]
      split
      · exact single _ rfl rfl (by simp [Kind.isQuotedValue])
      · exact below
    | nonterminal s =>
      rw [shown]
      split
      · exact single _ rfl rfl (by simp [Kind.isQuotedValue])
      · exact below
    | fault =>
      rw [shown]
      exact single _ rfl rfl (by simp [Kind.isQuotedValue])
    | skipped =>
      rw [shown]
      exact below

theorem shownAll_settled {t : Text} : ∀ (xs : List Tree) {c d : Cursor} {lower : Nat},
    Row c xs d → (∀ x ∈ xs, x.Sound) → c.In t → (∀ x ∈ xs.head?, lower ≤ x.info.start.offset) →
    lower ≤ d.offset →
    Laid lower d.offset (shownAll xs) ∧ ∀ n ∈ shownAll xs, n.Settled t
  | [], c, d, lower, _, _, _, _, _ => ⟨by simp [shownAll, laid_nil], by simp [shownAll]⟩
  | x :: xs, c, d, lower, row, sound, inside, head, _ => by
    have soundX := sound x (by simp)
    have soundXs : ∀ y ∈ xs, y.Sound := fun y member => sound y (List.mem_cons_of_mem x member)
    have low := head x rfl
    cases row with
    | cons gap rest =>
      have origin := in_reaches inside gap
      have stop := in_reaches origin soundX.reaches
      have body := reaches_offset soundX.here.body
      have later := reaches_offset (row_reaches rest soundXs)
      have ahead : ∀ y ∈ xs.head?, x.info.stop.offset ≤ y.info.start.offset := by
        intro y first
        have member := List.mem_of_head? first
        obtain ⟨ys, list⟩ := List.head?_eq_some_iff.mp first
        subst list
        cases rest with
        | cons gap _ =>
          exact reaches_offset (reaches_trans gap (soundXs y member).here.lead)
      obtain ⟨laidX, settledX⟩ := shown_settled x soundX origin
      obtain ⟨laidXs, settledXs⟩ := shownAll_settled xs rest soundXs stop ahead later
      rw [shownAll]
      constructor
      · have wide : Laid lower x.info.stop.offset (shown x) := by
          refine ⟨fun n member => ?_, laidX.ordered⟩
          have := laidX.inside n member
          omega
        exact laid_append wide laidXs (by omega) later
      · intro n member
        rcases List.mem_append.mp member with early | late
        · exact settledX n early
        · exact settledXs n late

end

/-- Whatever the text, the nodes of its syntax tree are nested and placed. -/
theorem read_settled (t : Text) : (read t).Settled t := by
  have whole := Reader.read_whole t
  have settled := (shown_settled (Reader.read t) whole.sound whole.inside).2
  unfold read
  split
  · rename_i root rest shown
    exact settled root (by simp [shown])
  · intro n within
    rcases within_cases within with rfl | ⟨c, member, _⟩
    · refine ⟨⟨Nat.le_refl _, by simp, List.Pairwise.nil⟩, start t, start t, in_start t,
        reaches_refl _, rfl, by simp [Kind.isQuotedValue]⟩
    · simp at member

end TemplateMarkup.Markup.Node
