import TemplateMarkup.Proofs.Markup.Nodes

/-!
The shapes of nodes. Every node is what a tree of the text shows, and so it is like the tree: names of tags
are of ASCII, tokens that are there have characters, tags end with what closes them, and a quoted value has
a quotation mark at each end.
-/
namespace TemplateMarkup.Markup

open Cursor TemplateMarkup.Markup.Tree

def Kind.label : Kind → Label
  | terminal t => .terminal t
  | nonterminal n => .nonterminal n
  | fault => .fault

theorem Kind.label_injective {j k : Kind} (same : j.label = k.label) : j = k := by
  cases j <;> cases k <;> simp_all [label]

theorem isTagName_cases {k : Kind} (name : k.isTagName) : ∃ s : Terminal, k = .terminal s ∧ s.isName := by
  unfold Kind.isTagName at name
  split at name
  case h_5 => cases name
  all_goals exact ⟨_, rfl, rfl⟩

def Nonterminal.isTagPart : Nonterminal → Bool
  | startTag | scriptStartTag | styleStartTag | selfClosingTag | tagAttribute | quotedValue => true
  | _ => false

theorem closes_isShown {n : Nonterminal} {l : Label} (closes : State.Closes n l) (part : n.isTagPart) :
    l.isShown := by
  cases n
  case tagAttribute => rcases closes with rfl | rfl | rfl <;> rfl
  case quotedValue =>
    obtain ⟨q, rfl⟩ := closes
    cases q <;> rfl
  case startTag | scriptStartTag | styleStartTag | selfClosingTag =>
    rw [show l = _ from closes]
    rfl
  all_goals cases part

namespace Tree

structure Inside (t : Text) (x : Tree) : Prop where
  sound : x.Sound
  origin : x.info.origin.In t

theorem row_origin {c d : Cursor} {xs : List Tree} {y : Tree} (row : Row c xs d)
    (sound : ∀ x ∈ xs, x.Sound) (member : y ∈ xs) : c.Reaches y.info.origin := by
  induction row with
  | nil => cases member
  | @cons c d x xs gap rest ih =>
    obtain ⟨here, later⟩ := List.forall_mem_cons.mp sound
    rcases List.mem_cons.mp member with rfl | member
    · exact gap
    · exact reaches_trans gap (reaches_trans here.reaches (ih later member))

theorem Inside.child {t : Text} {x y : Tree} (inside : x.Inside t) (member : y ∈ x.children) :
    y.Inside t := by
  have sound : ∀ z ∈ x.children, z.Sound := fun z => inside.sound.child
  have row := inside.sound.here.row (List.ne_nil_of_mem member)
  exact ⟨sound y member, in_reaches inside.origin (row_origin row sound member)⟩

end Tree

namespace Node

variable {t : Text} {x y : Tree} {n : Node}

structure Shows (t : Text) (x : Tree) (n : Node) : Prop where
  inside : x.Inside t
  label : n.kind.label = x.label
  span : n.span = ⟨x.info.start.offset, x.info.stop.offset⟩
  line : n.line = x.info.start.line + 1
  missing : n.missing = x.info.missing
  children : n.children = shownAll x.children

theorem shown_cases (inside : x.Inside t) :
    (∃ n, shown x = [n] ∧ n.Shows t x) ∨ x.label.isShown = false ∧ shown x = shownAll x.children := by
  obtain ⟨label, info, children⟩ := x
  cases label with
  | terminal s =>
    rw [shown]
    split
    · exact Or.inl ⟨_, rfl, inside, rfl, rfl, rfl, rfl, rfl⟩
    · rename_i hidden
      exact Or.inr ⟨by simpa [Label.isShown] using hidden, rfl⟩
  | nonterminal s =>
    rw [shown]
    split
    · exact Or.inl ⟨_, rfl, inside, rfl, rfl, rfl, rfl, rfl⟩
    · rename_i hidden
      exact Or.inr ⟨by simpa [Label.isShown] using hidden, rfl⟩
  | fault =>
    rw [shown]
    exact Or.inl ⟨_, rfl, inside, rfl, rfl, rfl, rfl, rfl⟩
  | skipped =>
    rw [shown]
    exact Or.inr ⟨rfl, rfl⟩

theorem shown_single (inside : x.Inside t) (shows : x.label.isShown) : ∃ n, shown x = [n] ∧ n.Shows t x := by
  rcases shown_cases inside with single | ⟨hidden, _⟩
  · exact single
  · rw [hidden] at shows
    cases shows

mutual

theorem shown_source : ∀ x : Tree, x.Inside t → ∀ n ∈ shown x, ∀ m, n.Within m → ∃ y, m.Shows t y
  | ⟨label, info, children⟩, inside, n, member, m, within => by
    have below := shownAll_source children fun y => inside.child
    rcases shown_cases inside with ⟨k, single, shows⟩ | ⟨_, hidden⟩
    · obtain rfl := List.mem_singleton.mp (single ▸ member)
      rcases within_cases within with rfl | ⟨c, child, rest⟩
      · exact ⟨_, shows⟩
      · exact below c (shows.children ▸ child) m rest
    · exact below n (hidden ▸ member) m within

theorem shownAll_source : ∀ xs : List Tree, (∀ x ∈ xs, x.Inside t) →
    ∀ n ∈ shownAll xs, ∀ m, n.Within m → ∃ y, m.Shows t y
  | [], _, n, member, _, _ => by simp [shownAll] at member
  | x :: xs, inside, n, member, m, within => by
    obtain ⟨here, later⟩ := List.forall_mem_cons.mp inside
    rw [shownAll] at member
    rcases List.mem_append.mp member with early | late
    · exact shown_source x here n early m within
    · exact shownAll_source xs later n late m within

end

/-- Every node of a text but its root is what a tree of the text shows. -/
theorem read_source {t : Text} {n : Node} (within : (read t).Within n)
    (other : n.kind ≠ .nonterminal .document) : ∃ x, n.Shows t x := by
  have whole := Reader.read_whole t
  have source := shown_source (Reader.read t) ⟨whole.sound, whole.inside⟩
  unfold read at within
  split at within
  · rename_i root rest shown
    exact source root (by simp [shown]) n within
  · rcases within_cases within with rfl | ⟨c, member, _⟩
    · exact absurd rfl other
    · simp at member

theorem shownAll_append (xs ys : List Tree) : shownAll (xs ++ ys) = shownAll xs ++ shownAll ys := by
  induction xs with
  | nil => rfl
  | cons x xs ih => rw [List.cons_append, shownAll, shownAll, ih, List.append_assoc]

theorem shownAll_singleton (x : Tree) : shownAll [x] = shown x := by
  rw [shownAll, shownAll, List.append_nil]

theorem Shows.last {z : Tree} (shows : n.Shows t x) (last : x.children.getLast? = some z)
    (visible : z.label.isShown) : ∃ c, n.children.getLast? = some c ∧ c.Shows t z := by
  obtain ⟨init, list⟩ := List.getLast?_eq_some_iff.mp last
  obtain ⟨c, single, showsC⟩ := shown_single (shows.inside.child (by simp [list])) visible
  refine ⟨c, ?_, showsC⟩
  rw [shows.children, list, shownAll_append, shownAll_singleton, single]
  simp

/-- An opening tag, an attribute or a quoted value ends with what closes it. -/
theorem read_closed {m : Nonterminal} (within : (read t).Within n) (kind : n.kind = .nonterminal m)
    (part : m.isTagPart) : ∃ c, n.children.getLast? = some c ∧ State.Closes m c.kind.label := by
  have other : m ≠ .document := by
    rintro rfl
    cases part
  obtain ⟨x, shows⟩ := read_source within (by simpa [kind] using other)
  have label : x.label = .nonterminal m := by rw [← shows.label, kind]; rfl
  obtain ⟨below, last, count, z, complete, step, found, _⟩ := shows.inside.sound.here.ended m label other
  have closes := State.closes_of_moves (State.moves_of_after? step) complete
  obtain ⟨c, childLast, showsC⟩ := shows.last found (closes_isShown closes part)
  exact ⟨c, childLast, showsC.label ▸ closes⟩

/-- A token that the text does not lack has characters. -/
theorem read_filled {s : Terminal} (within : (read t).Within n) (kind : n.kind = .terminal s)
    (solid : s.isSolid) (present : n.missing = false) : n.span.start < n.span.stop := by
  obtain ⟨x, shows⟩ := read_source within (by simp [kind])
  have label : x.label = .terminal s := by rw [← shows.label, kind]; rfl
  rw [shows.span]
  exact shows.inside.sound.here.filled s label (shows.missing ▸ present) solid

/-- The name of a tag is of ASCII and has neither blanks nor control characters. -/
theorem read_named {s : Terminal} (within : (read t).Within n) (kind : n.kind = .terminal s)
    (name : s.isName) : ∀ c ∈ n.span.slice t, 32 < c.toNat ∧ c.toNat < 128 := by
  obtain ⟨x, shows⟩ := read_source within (by simp [kind])
  have label : x.label = .terminal s := by rw [← shows.label, kind]; rfl
  obtain ⟨size, stop, graphic⟩ := shows.inside.sound.here.named s label name
  obtain ⟨lead, split, offset⟩ := in_split (in_reaches shows.inside.origin shows.inside.sound.here.lead)
  have slice := Text.slice?_append lead (x.info.start.rest.take size) (x.info.start.rest.drop size)
  rw [List.take_append_drop, ← split, ← offset] at slice
  rw [shows.span, stop, Span.slice, Text.slice, skip]
  dsimp only
  rw [slice]
  exact graphic

theorem kind_mark {q : Quote} (shows : n.Shows t x) (label : x.label = .terminal q.mark) :
    n.kind = .terminal q.mark :=
  Kind.label_injective (shows.label.trans label)

/-- A quoted value starts with a quotation mark and ends with another one. -/
theorem read_quoted (within : (read t).Within n) (kind : n.kind.isQuotedValue) :
    ∃ (a b : Node) (middle : List Node) (p q : Quote), n.children = a :: (middle ++ [b]) ∧
      a.kind = .terminal p.mark ∧ b.kind = .terminal q.mark := by
  have kind : n.kind = .nonterminal .quotedValue := beq_iff_eq.mp kind
  obtain ⟨x, shows⟩ := read_source within (by simp [kind])
  have here := shows.inside.sound.here
  have label : x.label = .nonterminal .quotedValue := by rw [← shows.label, kind]; rfl
  obtain ⟨p, y, head, labelY, _⟩ := here.opened label
  obtain ⟨below, last, count, z, complete, step, found, enough⟩ := here.ended .quotedValue label (by simp)
  obtain ⟨q, labelZ⟩ : ∃ q : Quote, z.label = .terminal q.mark :=
    State.closes_of_moves (State.moves_of_after? step) complete
  obtain ⟨rest, list⟩ := List.head?_eq_some_iff.mp head
  -- the rule has two parts at least, so its last part is not its first one
  have two : 2 ≤ count := by
    obtain ⟨_, _, ends⟩ := State.completed?_quotedValue complete
    rcases ends with ⟨_, size⟩ | ⟨_, size⟩ <;> omega
  have filled : rest ≠ [] := by
    rintro rfl
    rw [list] at enough
    have size : count ≤ 1 := enough
    omega
  have final : rest.getLast? = some z := by
    rw [list, List.getLast?_cons] at found
    obtain ⟨w, same⟩ := Option.isSome_iff_exists.mp (List.getLast?_isSome.mpr filled)
    rw [same] at found ⊢
    exact found
  obtain ⟨mid, rfl⟩ := List.getLast?_eq_some_iff.mp final
  have visible : ∀ r : Quote, (Label.terminal r.mark).isShown := fun r => by cases r <;> rfl
  obtain ⟨a, first, showsA⟩ := shown_single (shows.inside.child (y := y) (by simp [list]))
    (labelY ▸ visible p)
  obtain ⟨b, second, showsB⟩ := shown_single (shows.inside.child (y := z) (by simp [list]))
    (labelZ ▸ visible q)
  refine ⟨a, b, shownAll mid, p, q, ?_, kind_mark showsA labelY, kind_mark showsB labelZ⟩
  rw [shows.children, list, shownAll, shownAll_append, shownAll_singleton, first, second]
  rfl

end Node

end TemplateMarkup.Markup
