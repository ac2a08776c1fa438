import TemplateMarkup.Markup.Tree

/-!
The moves of the automaton as relations, one rule for each kind of move. The functions `shift?` and
`goto?` make exactly these moves, so that a move into a known state tells where it came from. Moves
back over the parts of a complete rule lead to a state that goes on with the rule.
-/
namespace TemplateMarkup.Markup

inductive Place.Enters (p : Place) (after endAfter : State) : Terminal → State → Prop where
  | declaration : Enters p after endAfter .declarationOpen (.declarationOpened p)
  | tag : Enters p after endAfter .tagOpen (.tagOpened p)
  | endTag : Enters p after endAfter .endOpen endAfter
  | entity : Enters p after endAfter .entity after
  | text : Enters p after endAfter .text after

theorem Place.shift_iff {p : Place} {after endAfter s : State} {t : Terminal} :
    p.shift after endAfter t = some s ↔ p.Enters after endAfter t s := by
  constructor
  · intro step
    unfold Place.shift at step
    split at step
    all_goals first
      | (obtain rfl := Option.some.inj step; constructor)
      | simp at step
  · intro enters
    cases enters <;> rfl

inductive Place.Holds (p : Place) (after : State) : Nonterminal → State → Prop where
  | doctype : Holds p after .doctype after
  | element : Holds p after .element after
  | scriptElement : Holds p after .scriptElement after
  | styleElement : Holds p after .styleElement after
  | strayEndTag : Holds p after .strayEndTag after
  | nodes : Holds p after .nodes after
  | startTag : Holds p after .startTag (.elementOpened p)
  | selfClosingTag : Holds p after .selfClosingTag (.elementSelfClosed p)
  | scriptStartTag : Holds p after .scriptStartTag (.rawOpened .script p)
  | styleStartTag : Holds p after .styleStartTag (.rawOpened .style p)

theorem Place.goto_iff {p : Place} {after s : State} {n : Nonterminal} :
    p.goto after n = some s ↔ p.Holds after n s := by
  constructor
  · intro step
    unfold Place.goto at step
    split at step
    all_goals first
      | (obtain rfl := Option.some.inj step; constructor)
      | simp at step
  · intro holds
    cases holds <;> rfl

namespace Nonterminal

/-- What may stand where nodes begin. -/
def isHosted : Nonterminal → Bool
  | doctype | element | scriptElement | styleElement | startTag | scriptStartTag | styleStartTag
  | selfClosingTag | strayEndTag | nodes => true
  | _ => false

/-- What may stand where attributes begin. -/
def isListed : Nonterminal → Bool
  | tagAttribute | attributes => true
  | _ => false

end Nonterminal

namespace State

inductive Shifts : State → Terminal → State → Prop where
  | start {t s} (node : Place.top.Enters topNodes (strayOpened .top) t s) : Shifts start t s
  | topNodes {t s} (node : Place.top.Enters (joinNodes .top) (strayOpened .top) t s) :
      Shifts topNodes t s
  | joinNodes {p t s} (node : p.Enters (joinNodes p) (strayOpened p) t s) :
      Shifts (joinNodes p) t s
  | elementOpened {p t s} (node : Place.nested.Enters (elementContent p) (endOpened p) t s) :
      Shifts (elementOpened p) t s
  | elementEmpty {p} : Shifts (elementOpened p) .impliedEnd (elementEmptyImplied p)
  | elementContent {p t s} (node : Place.nested.Enters (joinNodes .nested) (endOpened p) t s) :
      Shifts (elementContent p) t s
  | elementImplied {p} : Shifts (elementContent p) .impliedEnd (elementImplied p)
  | rawText {k p} : Shifts (rawOpened k p) .rawText (rawContent k p)
  | rawEmpty {k p} : Shifts (rawOpened k p) .endOpen (rawEndOpened p)
  | rawEnd {k p} : Shifts (rawContent k p) .endOpen (rawEndOpened p)
  | tagName {p} : Shifts (tagOpened p) .startName (tagNamed p)
  | scriptName {p} : Shifts (tagOpened p) .scriptName (rawTagNamed .script)
  | styleName {p} : Shifts (tagOpened p) .styleName (rawTagNamed .style)
  | startBare {p} : Shifts (tagNamed p) .tagClose startTagBare
  | selfBare {p} : Shifts (tagNamed p) .selfClose (selfTagBare p)
  | firstName {p} : Shifts (tagNamed p) .attributeName (attributeNamed .plain)
  | startFull {p} : Shifts (tagAttributes p) .tagClose startTagFull
  | selfFull {p} : Shifts (tagAttributes p) .selfClose (selfTagFull p)
  | nextName {p} : Shifts (tagAttributes p) .attributeName (attributeNamed .plain)
  | rawBare {k} : Shifts (rawTagNamed k) .tagClose (rawTagBare k)
  | rawFirstName {k} : Shifts (rawTagNamed k) .attributeName (attributeNamed .raw)
  | rawFull {k} : Shifts (rawTagAttributes k) .tagClose (rawTagFull k)
  | rawNextName {k} : Shifts (rawTagAttributes k) .attributeName (attributeNamed .raw)
  | joinedName {o} : Shifts (joinAttributes o) .attributeName (attributeNamed o)
  | equals {o} : Shifts (attributeNamed o) .equals (attributeEquals o)
  | value {o} : Shifts (attributeEquals o) .attributeValue (attributePlain o)
  | quote {q o} : Shifts (attributeEquals o) q.mark (quoteOpened q o)
  | quoteText {q o} : Shifts (quoteOpened q o) q.text (quoteText q o)
  | quoteEmpty {q o} : Shifts (quoteOpened q o) q.mark (quoteEmpty q o)
  | quoteFull {q o} : Shifts (quoteText q o) q.mark (quoteFull q o)
  | endName {p} : Shifts (endOpened p) .endName (endNamed p)
  | endStray {p} : Shifts (endOpened p) .strayEndName (strayNamed .nested)
  | rawEndName {p} : Shifts (rawEndOpened p) .endName (endNamed p)
  | endClose {p} : Shifts (endNamed p) .tagClose (endClosed p)
  | strayName {p} : Shifts (strayOpened p) .strayEndName (strayNamed p)
  | strayClose {p} : Shifts (strayNamed p) .tagClose (strayClosed p)
  | doctypeWord {p} : Shifts (declarationOpened p) .doctypeWord (declarationWord p)
  | declarationBody {p} : Shifts (declarationWord p) .declarationBody (declarationBody p)
  | declarationClose {p} : Shifts (declarationBody p) .tagClose (declarationClosed p)

theorem shifts_of_shift? {s s' : State} {t : Terminal} (step : s.shift? t = some s') :
    Shifts s t s' := by
  fun_cases shift? s t
  case case4 =>
    obtain rfl := Option.some.inj step
    exact Shifts.elementEmpty
  case case6 =>
    obtain rfl := Option.some.inj step
    exact Shifts.elementImplied
  case case27 =>
    obtain rfl := Option.some.inj step
    exact Shifts.quote (q := .single)
  case case28 =>
    obtain rfl := Option.some.inj step
    exact Shifts.quote (q := .double)
  case case30 differs =>
    rw [shift?, if_neg differs, if_pos rfl] at step
    obtain rfl := Option.some.inj step
    exact Shifts.quoteEmpty
  case case31 noText noMark =>
    rw [shift?, if_neg noText, if_neg noMark] at step
    simp at step
  case case33 noMark =>
    rw [shift?, if_neg noMark] at step
    simp at step
  all_goals simp only [shift?] at step
  case case43 => simp at step
  all_goals first
    | exact Option.some.inj step ▸ (by constructor)
    | (constructor; exact Place.shift_iff.mp step)

inductive Gotos : State → Nonterminal → State → Prop where
  | document : Gotos start .document finished
  | start {n s} (part : Place.top.Holds topNodes n s) : Gotos start n s
  | topNodes {n s} (part : Place.top.Holds (joinNodes .top) n s) : Gotos topNodes n s
  | joinNodes {p n s} (part : p.Holds (joinNodes p) n s) : Gotos (joinNodes p) n s
  | elementEmpty {p} : Gotos (elementOpened p) .endTag (elementEmptyClosed p)
  | elementOpened {p n s} (part : Place.nested.Holds (elementContent p) n s) :
      Gotos (elementOpened p) n s
  | elementClosed {p} : Gotos (elementContent p) .endTag (elementClosed p)
  | elementContent {p n s} (part : Place.nested.Holds (joinNodes .nested) n s) :
      Gotos (elementContent p) n s
  | rawEmpty {k p} : Gotos (rawOpened k p) .endTag (rawEmptyClosed k p)
  | rawClosed {k p} : Gotos (rawContent k p) .endTag (rawClosed k p)
  | firstAttribute {p} : Gotos (tagNamed p) .tagAttribute (tagAttributes p)
  | firstAttributes {p} : Gotos (tagNamed p) .attributes (tagAttributes p)
  | nextAttribute {p} : Gotos (tagAttributes p) .tagAttribute (joinAttributes .plain)
  | nextAttributes {p} : Gotos (tagAttributes p) .attributes (joinAttributes .plain)
  | rawFirstAttribute {k} : Gotos (rawTagNamed k) .tagAttribute (rawTagAttributes k)
  | rawFirstAttributes {k} : Gotos (rawTagNamed k) .attributes (rawTagAttributes k)
  | rawNextAttribute {k} : Gotos (rawTagAttributes k) .tagAttribute (joinAttributes .raw)
  | rawNextAttributes {k} : Gotos (rawTagAttributes k) .attributes (joinAttributes .raw)
  | joinedAttribute {o} : Gotos (joinAttributes o) .tagAttribute (joinAttributes o)
  | joinedAttributes {o} : Gotos (joinAttributes o) .attributes (joinAttributes o)
  | quotedValue {o} : Gotos (attributeEquals o) .quotedValue (attributeQuoted o)

theorem gotos_of_goto? {s s' : State} {n : Nonterminal} (step : s.goto? n = some s') :
    Gotos s n s' := by
  fun_cases goto? s n
  all_goals simp only [goto?] at step
  case case22 => simp at step
  all_goals first
    | exact Option.some.inj step ▸ (by constructor)
    | (constructor; exact Place.goto_iff.mp step)

/-- The state after a whole tree, extras apart. -/
def after? (s : State) : Label → Option State
  | .terminal t => s.shift? t
  | .nonterminal n => s.goto? n
  | .fault | .skipped => none

inductive Moves : State → Label → State → Prop where
  | shift {s s' t} (step : Shifts s t s') : Moves s (.terminal t) s'
  | goto {s s' n} (step : Gotos s n s') : Moves s (.nonterminal n) s'

theorem moves_of_after? {s s' : State} {l : Label} (step : s.after? l = some s') :
    Moves s l s' := by
  cases l with
  | terminal t => exact Moves.shift (shifts_of_shift? step)
  | nonterminal n => exact Moves.goto (gotos_of_goto? step)
  | fault => simp [after?] at step
  | skipped => simp [after?] at step

/-- What the last part of a rule can be, for the rules of tags. -/
def Closes : Nonterminal → Label → Prop
  | .startTag, l | .scriptStartTag, l | .styleStartTag, l => l = .terminal .tagClose
  | .selfClosingTag, l => l = .terminal .selfClose
  | .tagAttribute, l =>
    l = .terminal .attributeName ∨ l = .terminal .attributeValue ∨ l = .nonterminal .quotedValue
  | .quotedValue, l => ∃ q : Quote, l = .terminal q.mark
  | _, _ => True

theorem closes_of_moves {s last : State} {l : Label} {n : Nonterminal} {count : Nat}
    (moves : Moves s l last) (complete : last.completed? = some (n, count)) : Closes n l := by
  cases moves with
  | shift step =>
    cases step
    case startBare | startFull | selfBare | selfFull => cases complete; rfl
    case rawBare k | rawFull k => cases k <;> cases complete <;> rfl
    case firstName | nextName | rawFirstName | rawNextName | joinedName =>
      cases complete
      exact Or.inl rfl
    case value =>
      cases complete
      exact Or.inr (Or.inl rfl)
    case quoteEmpty | quoteFull =>
      cases complete
      exact ⟨_, rfl⟩
    case start node | topNodes node | joinNodes node | elementOpened node | elementContent node =>
      cases node <;> cases complete <;> trivial
    all_goals cases complete <;> trivial
  | goto step =>
    cases step
    case quotedValue =>
      cases complete
      exact Or.inr (Or.inr rfl)
    case rawEmpty k _ | rawClosed k _ => cases k <;> cases complete <;> trivial
    case start part | topNodes part | joinNodes part | elementOpened part | elementContent part =>
      cases part <;> cases complete <;> trivial
    all_goals cases complete <;> trivial

section Quotes

variable {s : State} {l : Label} {q : Quote} {o : Opener}

theorem moves_quoteOpened (moves : Moves s l (quoteOpened q o)) : l = .terminal q.mark := by
  cases moves with
  | shift step =>
    cases step
    case quote => rfl
    all_goals rename_i node; cases node
  | goto step =>
    cases step
    all_goals rename_i part; cases part

theorem moves_quoteText (moves : Moves s l (quoteText q o)) : s = quoteOpened q o := by
  cases moves with
  | shift step =>
    cases step
    case quoteText => rfl
    all_goals rename_i node; cases node
  | goto step =>
    cases step
    all_goals rename_i part; cases part

theorem moves_quoteEmpty (moves : Moves s l (quoteEmpty q o)) : s = quoteOpened q o := by
  cases moves with
  | shift step =>
    cases step
    case quoteEmpty => rfl
    all_goals rename_i node; cases node
  | goto step =>
    cases step
    all_goals rename_i part; cases part

theorem moves_quoteFull (moves : Moves s l (quoteFull q o)) : s = quoteText q o := by
  cases moves with
  | shift step =>
    cases step
    case quoteFull => rfl
    all_goals rename_i node; cases node
  | goto step =>
    cases step
    all_goals rename_i part; cases part

end Quotes

theorem moves_finished {s : State} {l : Label} (moves : Moves s l finished) :
    l = .nonterminal .document := by
  cases moves with
  | shift step =>
    cases step
    all_goals rename_i node; cases node
  | goto step =>
    cases step
    case document => rfl
    all_goals rename_i part; cases part

theorem after?_recovery (l : Label) : recovery.after? l = none := by
  cases l <;> rfl

def hosts? : State → Option Place
  | start | topNodes => some .top
  | joinNodes p => some p
  | elementOpened _ | elementContent _ => some .nested
  | _ => none

def lists? : State → Option Opener
  | tagNamed _ | tagAttributes _ => some .plain
  | rawTagNamed _ | rawTagAttributes _ => some .raw
  | joinAttributes o => some o
  | _ => none

/-- One move leads from the first state to the second. -/
def Before (s : State) : State → Prop
  | recovery | start => False
  | finished | topNodes => s = start
  | joinNodes p => s = topNodes ∧ p = .top ∨ s = joinNodes p ∨ p = .nested ∧ ∃ q, s = elementContent q
  | elementOpened p | elementSelfClosed p | rawOpened _ p | tagOpened p | strayOpened p
  | declarationOpened p => s.hosts? = some p
  | elementContent p | elementEmptyClosed p | elementEmptyImplied p => s = elementOpened p
  | elementClosed p | elementImplied p => s = elementContent p
  | rawContent k p | rawEmptyClosed k p => s = rawOpened k p
  | rawClosed k p => s = rawContent k p
  | tagNamed p => s = tagOpened p
  | rawTagNamed _ => ∃ p, s = tagOpened p
  | tagAttributes p | selfTagBare p => s = tagNamed p
  | rawTagAttributes k | rawTagBare k => s = rawTagNamed k
  | startTagBare => ∃ p, s = tagNamed p
  | startTagFull => ∃ p, s = tagAttributes p
  | selfTagFull p => s = tagAttributes p
  | rawTagFull k => s = rawTagAttributes k
  | joinAttributes o => o = .plain ∧ (∃ p, s = tagAttributes p) ∨ o = .raw ∧ (∃ k, s = rawTagAttributes k) ∨
      s = joinAttributes o
  | attributeNamed o => s.lists? = some o
  | attributeEquals o => s = attributeNamed o
  | attributePlain o | attributeQuoted o | quoteOpened _ o => s = attributeEquals o
  | quoteText q o | quoteEmpty q o => s = quoteOpened q o
  | quoteFull q o => s = quoteText q o
  | endOpened p => s = elementOpened p ∨ s = elementContent p
  | rawEndOpened p => ∃ k, s = rawOpened k p ∨ s = rawContent k p
  | endNamed p => s = endOpened p ∨ s = rawEndOpened p
  | endClosed p => s = endNamed p
  | strayNamed p => s = strayOpened p ∨ p = .nested ∧ ∃ q, s = endOpened q
  | strayClosed p => s = strayNamed p
  | declarationWord p => s = declarationOpened p
  | declarationBody p => s = declarationWord p
  | declarationClosed p => s = declarationBody p

theorem before_of_moves {s s' : State} {l : Label} (moves : Moves s l s') : Before s s' := by
  cases moves with
  | shift step =>
    cases step
    case start node | topNodes node | joinNodes node | elementOpened node | elementContent node =>
      cases node <;> simp [Before, hosts?]
    all_goals simp [Before, lists?]
  | goto step =>
    cases step
    case start part | topNodes part | joinNodes part | elementOpened part | elementContent part =>
      cases part <;> simp [Before, hosts?]
    all_goals simp [Before]

/-- So many moves lead from the first state to the second. -/
def Back : Nat → State → State → Prop
  | 0, s, s' => s = s'
  | count + 1, s, s' => ∃ u, Before u s' ∧ Back count s u

theorem goto?_of_hosts {s : State} {p : Place} {n : Nonterminal} (hosts : s.hosts? = some p)
    (hosted : n.isHosted = true) : (s.goto? n).isSome := by
  cases n <;> cases hosted
  all_goals cases s <;> cases hosts <;> rfl

theorem goto?_of_lists {s : State} {o : Opener} {n : Nonterminal} (lists : s.lists? = some o)
    (listed : n.isListed = true) : (s.goto? n).isSome := by
  cases n <;> cases listed
  all_goals cases s <;> cases lists <;> rfl

theorem back_one {s s' : State} : Back 1 s s' ↔ Before s s' := by simp [Back]

theorem back_trans {m k : Nat} {a b c : State} (first : Back m a b) (second : Back k b c) :
    Back (m + k) a c := by
  induction k generalizing c with
  | zero =>
    obtain rfl := second
    exact first
  | succ k ih =>
    obtain ⟨d, last, before⟩ := second
    exact ⟨d, last, ih before⟩

theorem back_after {s u s' : State} {l : Label} {count : Nat} (step : s.after? l = some u)
    (back : Back count u s') : Back (count + 1) s s' := by
  have one := back_one.mpr (before_of_moves (moves_of_after? step))
  have all := back_trans one back
  rwa [Nat.add_comm] at all

/-- No tree leads to recovery. -/
theorem after?_regular {s s' : State} {l : Label} (step : s.after? l = some s') : s' ≠ recovery := by
  rintro rfl
  exact before_of_moves (moves_of_after? step)

theorem element_isHosted (k : RawKind) : k.element.isHosted = true ∧ k.startTag.isHosted = true := by
  cases k <;> exact ⟨rfl, rfl⟩

/-- The state below the parts of a complete rule goes on with the rule. -/
theorem goto?_of_back {s s' : State} {n : Nonterminal} {count : Nat} (back : Back count s s')
    (complete : s'.completed? = some (n, count)) : (s.goto? n).isSome := by
  cases s' <;> cases complete
  case start =>
    cases back
    rfl
  case topNodes =>
    cases back_one.mp back
    rfl
  case joinNodes p =>
    obtain ⟨u, ⟨rfl, -⟩ | rfl | ⟨-, q, rfl⟩, before⟩ := back
    · cases back_one.mp before
      rfl
    · rcases back_one.mp before with ⟨rfl, -⟩ | rfl | ⟨-, q, rfl⟩
      all_goals rfl
    · cases back_one.mp before
      rfl
  case elementSelfClosed p => exact goto?_of_hosts (back_one.mp back) rfl
  case elementEmptyClosed p | elementEmptyImplied p =>
    obtain ⟨_, rfl, before⟩ := back
    exact goto?_of_hosts (back_one.mp before) rfl
  case elementClosed p | elementImplied p =>
    obtain ⟨_, rfl, _, rfl, before⟩ := back
    exact goto?_of_hosts (back_one.mp before) rfl
  case rawEmptyClosed k p =>
    obtain ⟨_, rfl, before⟩ := back
    exact goto?_of_hosts (back_one.mp before) (element_isHosted k).1
  case rawClosed k p =>
    obtain ⟨_, rfl, _, rfl, before⟩ := back
    exact goto?_of_hosts (back_one.mp before) (element_isHosted k).1
  case startTagBare =>
    obtain ⟨_, ⟨p, rfl⟩, _, rfl, before⟩ := back
    exact goto?_of_hosts (back_one.mp before) rfl
  case startTagFull =>
    obtain ⟨_, ⟨p, rfl⟩, _, rfl, _, rfl, before⟩ := back
    exact goto?_of_hosts (back_one.mp before) rfl
  case selfTagBare p =>
    obtain ⟨_, rfl, _, rfl, before⟩ := back
    exact goto?_of_hosts (back_one.mp before) rfl
  case selfTagFull p =>
    obtain ⟨_, rfl, _, rfl, _, rfl, before⟩ := back
    exact goto?_of_hosts (back_one.mp before) rfl
  case rawTagBare k =>
    obtain ⟨_, rfl, _, ⟨p, rfl⟩, before⟩ := back
    exact goto?_of_hosts (back_one.mp before) (element_isHosted k).2
  case rawTagFull k =>
    obtain ⟨_, rfl, _, rfl, _, ⟨p, rfl⟩, before⟩ := back
    exact goto?_of_hosts (back_one.mp before) (element_isHosted k).2
  case joinAttributes o =>
    obtain ⟨u, ⟨-, p, rfl⟩ | ⟨-, k, rfl⟩ | rfl, before⟩ := back
    · cases back_one.mp before
      rfl
    · cases back_one.mp before
      rfl
    · rcases back_one.mp before with ⟨-, p, rfl⟩ | ⟨-, k, rfl⟩ | rfl
      all_goals rfl
  case attributeNamed o => exact goto?_of_lists (back_one.mp back) rfl
  case attributePlain o | attributeQuoted o =>
    obtain ⟨_, rfl, _, rfl, before⟩ := back
    exact goto?_of_lists (back_one.mp before) rfl
  case quoteEmpty q o =>
    obtain ⟨_, rfl, before⟩ := back
    cases back_one.mp before
    rfl
  case quoteFull q o =>
    obtain ⟨_, rfl, _, rfl, before⟩ := back
    cases back_one.mp before
    rfl
  case endClosed p =>
    obtain ⟨_, rfl, _, rfl | rfl, before⟩ := back
    · rcases back_one.mp before with rfl | rfl
      all_goals rfl
    · obtain ⟨k, rfl | rfl⟩ := back_one.mp before
      all_goals rfl
  case strayClosed p =>
    obtain ⟨_, rfl, _, rfl | ⟨-, q, rfl⟩, before⟩ := back
    · exact goto?_of_hosts (back_one.mp before) rfl
    · rcases back_one.mp before with rfl | rfl
      all_goals rfl
  case declarationClosed p =>
    obtain ⟨_, rfl, _, rfl, _, rfl, before⟩ := back
    exact goto?_of_hosts (back_one.mp before) rfl

end State

end TemplateMarkup.Markup
