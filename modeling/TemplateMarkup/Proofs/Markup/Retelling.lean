import TemplateMarkup.Proofs.Markup.Likeness
import TemplateMarkup.Proofs.Markup.Values

/-!
Telling a text again with other values. Where a text is read without a fault, its tokens and the blanks
before them make up the whole of it. If other values that fill their places are told instead of those
in the text, the new text is read without a fault too, and its tree is alike.
-/
namespace TemplateMarkup

open Markup

theorem Cursor.slice_skip {t : Text} {c : Cursor} (inside : c.In t) (n : Nat) :
    Span.slice ⟨c.offset, (c.skip n).offset⟩ t = c.rest.take n := by
  obtain ⟨lead, split, offset⟩ := in_split inside
  have slice := Text.slice?_append lead (c.rest.take n) (c.rest.drop n)
  rw [List.take_append_drop, ← split, ← offset] at slice
  rw [Span.slice, Text.slice, skip]
  dsimp only
  rw [slice]
  rfl

namespace Markup

open Cursor

/-- A text that may stand between quotation marks as a value. -/
def Quote.Fills (q : Quote) (w : Text) : Prop :=
  w ≠ [] ∧ (∀ c ∈ w, q.allows c = true) ∧ opensComment (w.dropWhile isMarkupBlank) = false

/-- A text that may stand in the place of a token; only for values there is a choice. -/
def Terminal.Fills : Terminal → Text → Prop
  | attributeValue, w => w ≠ [] ∧ ∀ c ∈ w, Lexeme.isValueChar c = true
  | apostropheText, w => Quote.single.Fills w
  | quotationText, w => Quote.double.Fills w
  | _, _ => True

theorem Terminal.fills_text (q : Quote) (w : Text) : q.text.Fills w ↔ q.Fills w := by
  cases q <;> exact Iff.rfl

theorem Quote.not_allows {q : Quote} {c : Char} (refused : q.allows c = false) :
    isMarkupBlank c = false ∧ c ≠ '<' ∧ c ≠ '!' ∧ c ≠ '-' := by
  have cases : c = q.char ∨ c = '\x00' := by
    by_cases same : c = q.char
    · exact Or.inl same
    · exact Or.inr (by simpa [Quote.allows, same] using refused)
  rcases cases with rfl | rfl
  · cases q <;> decide
  · decide

/-- A comment does not begin in a text and go on with a character that is none of its beginning. -/
theorem opensComment_append {v r : Text} (other : ∀ c ∈ r.head?, c ≠ '<' ∧ c ≠ '!' ∧ c ≠ '-')
    (shut : opensComment v = false) : opensComment (v ++ r) = false := by
  cases r with
  | nil => rwa [List.append_nil]
  | cons c r =>
    obtain ⟨angle, bang, dash⟩ := other c rfl
    match v with
    | [] => simp [opensComment, List.isPrefixOf, angle.symm]
    | [a] => simp [opensComment, List.isPrefixOf, bang.symm]
    | [a, b] => simp [opensComment, List.isPrefixOf, dash.symm]
    | [a, b, d] => simp [opensComment, List.isPrefixOf, dash.symm]
    | a :: b :: d :: e :: v => simpa [opensComment, List.isPrefixOf] using shut

theorem opensComment_of_append {v r : Text} (shut : opensComment (v ++ r) = false) :
    opensComment v = false := by
  refine Bool.eq_false_iff.mpr fun opens => ?_
  have longer := (List.isPrefixOf_iff_prefix.mp opens).trans (List.prefix_append v r)
  rw [opensComment, List.isPrefixOf_iff_prefix.mpr longer] at shut
  cases shut

section Suits

variable {a : Terminal} {w w' r r' : Text} {s : State}

theorem suits_other (other : a.isValue = false) (suits : Suits a w r s) : Suits a w r' s := by
  cases s <;> try cases suits
  case attributeEquals.inl o suits =>
    rw [suits.1] at other
    cases other
  case attributeEquals.inr o suits => exact Or.inr suits
  case quoteOpened.inl q o suits =>
    rw [suits.1] at other
    cases q <;> cases other
  case quoteOpened.inr q o suits => exact Or.inr suits

theorem fills_of_suits (suits : Suits a w r s) : a.Fills w := by
  cases s <;> try cases suits
  case attributeEquals.inl o suits =>
    obtain ⟨rfl, filled, chars, -⟩ := suits
    exact ⟨filled, chars⟩
  case attributeEquals.inr o suits =>
    obtain ⟨q, rfl, -⟩ := suits
    cases q <;> trivial
  case quoteOpened.inl q o suits =>
    obtain ⟨rfl, filled, chars, stops, shut⟩ := suits
    refine (Terminal.fills_text q w).mpr ⟨filled, chars, ?_⟩
    rw [List.dropWhile_append] at shut
    split at shut
    · rename_i none
      rw [List.isEmpty_iff.mp none]
      rfl
    · exact opensComment_of_append shut
  case quoteOpened.inr q o suits =>
    obtain ⟨rfl, -⟩ := suits
    cases q <;> trivial

theorem suits_of_fills (value : a.isValue = true) (suits : Suits a w r s) (fills : a.Fills w')
    (same : r.head? = r'.head?) : Suits a w' r' s := by
  cases s <;> try cases suits
  case attributeEquals.inl o suits =>
    obtain ⟨rfl, -, -, stops⟩ := suits
    exact Or.inl ⟨rfl, fills.1, fills.2, same ▸ stops⟩
  case attributeEquals.inr o suits =>
    obtain ⟨q, rfl, -⟩ := suits
    cases q <;> cases value
  case quoteOpened.inl q o suits =>
    obtain ⟨rfl, -, -, stops, -⟩ := suits
    obtain ⟨filled, chars, shut⟩ := (Terminal.fills_text q w').mp fills
    rw [same] at stops
    refine Or.inl ⟨rfl, filled, chars, stops, ?_⟩
    rw [List.dropWhile_append]
    split
    · cases r' with
      | nil => rfl
      | cons c r' =>
        obtain ⟨solid, angle, -⟩ := Quote.not_allows (stops c rfl)
        rw [List.dropWhile_cons_of_neg (by simp [solid])]
        simp [opensComment, List.isPrefixOf, angle.symm]
    · exact opensComment_append (fun c head => (Quote.not_allows (stops c head)).2) shut
  case quoteOpened.inr q o suits =>
    obtain ⟨rfl, -⟩ := suits
    cases q <;> cases value

end Suits

namespace State

variable {s next : State} {a : Terminal}

theorem isOuter_of_not_awaits (plain : s.awaitsValue = false) : s.mode.isOuter = true := by
  cases s with
  | attributeEquals | quoteOpened => cases plain
  | _ => rfl

theorem reduce?_of_awaits (awaits : s.awaitsValue = true) : s.reduce? a = none := by
  cases s with
  | attributeEquals | quoteOpened => rfl
  | _ => cases awaits

theorem shift?_value (shifts : s.shift? a = some next) (value : a.isValue = true) :
    s.awaitsValue = true ∧ next.awaitsValue = false := by
  cases shifts_of_shift? shifts
  case value => exact ⟨rfl, rfl⟩
  case quoteText => exact ⟨rfl, rfl⟩
  case quote q _ | quoteEmpty q _ | quoteFull q _ => cases q <;> cases value
  case start node | topNodes node | joinNodes node | elementOpened node | elementContent node =>
    cases node <;> cases value
  all_goals cases value

theorem shift?_awaits (shifts : s.shift? a = some next) (awaits : next.awaitsValue = true) :
    a = .equals ∨ s.awaitsValue = true := by
  cases shifts_of_shift? shifts
  case equals => exact Or.inl rfl
  case quote => exact Or.inr rfl
  case start node | topNodes node | joinNodes node | elementOpened node | elementContent node =>
    cases node <;> cases awaits
  all_goals cases awaits

theorem goto?_not_awaits {n : Nonterminal} (goes : s.goto? n = some next) :
    next.awaitsValue = false := by
  cases gotos_of_goto? goes
  case start node | topNodes node | joinNodes node | elementOpened node | elementContent node =>
    cases node <;> rfl
  all_goals rfl

end State

namespace Token

section Lexed

variable {a : Terminal} {tags : Option (List Tag)} {c : Cursor} {token : Token}
  (unscanned : a.isScanned = false) (other : a ≠ .selfClose)

include unscanned other

theorem read?_lexed {e : Expectation} {m : Mode} {idle : Terminal → Bool}
    (found : (read? e m idle tags c).getLeft? = some token) (terminal : token.terminal = some a) :
    m.read c = .found a token.start token.stop := by
  rw [read?_eq] at found
  cases scanned : (Scan.read e (tags.getD []) c).bind (ofScan idle tags c) with
  | some token' =>
    rw [scanned] at found
    cases found
    obtain ⟨s, scan, same⟩ := scanned_terminal scanned
    rw [terminal] at same
    cases same
    rcases Scan.read_token scan with sort | sort
    · rw [unscanned] at sort
      cases sort
    · exact absurd sort other
  | none =>
    rw [scanned, Option.none_or] at found
    cases lexed : m.read c with
    | stuck start reached =>
      rw [lexed] at found
      cases found
    | found b start stop =>
      rw [lexed] at found
      cases found
      cases terminal
      rfl

theorem recover_lexed (terminal : (recover tags c).terminal = some a) :
    Mode.recovery.read c = .found a (recover tags c).start (recover tags c).stop := by
  cases found : (read? .anything .recovery (fun _ => true) tags c).getLeft? with
  | none =>
    rw [recover_of_stuck found] at terminal
    cases terminal
  | some token =>
    rw [recover_of_found found] at terminal ⊢
    exact read?_lexed unscanned other found terminal

/-- A token that does not depend on the open tags is found by a mode. -/
theorem read_lexed {s : State} (terminal : (read s true tags c).terminal = some a) :
    ∃ m : Mode, m.read c = .found a (read s true tags c).start (read s true tags c).stop := by
  by_cases regular : s = .recovery
  · simp only [read, if_pos regular] at terminal ⊢
    exact ⟨_, recover_lexed unscanned other terminal⟩
  cases found : direct s tags c with
  | none =>
    rw [read_of_stuck regular found] at terminal ⊢
    exact ⟨_, recover_lexed unscanned other terminal⟩
  | some token =>
    rw [read_of_found regular found] at terminal ⊢
    exact ⟨_, read?_lexed unscanned other found terminal⟩

end Lexed

variable {s : State} {a : Terminal} {tags : Option (List Tag)} {t r' : Text} {c c' : Cursor}

theorem read_end (terminal : (read s true tags c).terminal = some .endOfText) :
    (read s true tags c).stop.rest = [] := by
  obtain ⟨m, lexed⟩ := read_lexed rfl (by decide) terminal
  exact (Mode.read_plain lexed).2 rfl

theorem read_equals (terminal : (read s true tags c).terminal = some .equals) :
    (read s true tags c).start.rest = '=' :: (read s true tags c).stop.rest := by
  obtain ⟨m, lexed⟩ := read_lexed rfl (by decide) terminal
  rw [Mode.read_eq] at lexed
  cases found : m.lexeme (c.rest.drop (m.lead c.rest)) with
  | stuck n =>
    rw [found] at lexed
    cases lexed
  | found b n =>
    rw [found] at lexed
    injection lexed with same start stop
    subst same
    obtain ⟨rfl, head, -⟩ := Mode.lexeme_equals found
    obtain ⟨u, rest⟩ := List.head?_eq_some_iff.mp head
    rw [← start, ← stop, skip, skip]
    dsimp only
    rw [rest]
    rfl

def span (token : Token) : Span := ⟨token.start.offset, token.stop.offset⟩

/-- What comes before a token that is read at a place. -/
def gap (t : Text) (c : Cursor) (token : Token) : Text := Span.slice ⟨c.offset, token.start.offset⟩ t

/-- The token is read again as the characters `w`, and `r` is what comes after them. -/
def Again (token token' : Token) (w r : Text) : Prop :=
  ∃ (d : Cursor) (n : Nat), token' = token.moved d n ∧ d.rest = w ++ r ∧ (d.skip n).rest = r

/-- A token outside of values is read again in a text that has its characters too. -/
theorem read_outside (plain : s.awaitsValue = false) (inside : c.In t)
    (closed : commentsClosed c.rest = true) (terminal : (read s true tags c).terminal = some a)
    (agree : a ≠ .equals → Agree (read s true tags c).stop.rest r')
    (rest : c'.rest = (read s true tags c).gap t c ++ ((read s true tags c).span.slice t ++ r')) :
    Agree c.rest c'.rest ∧
      (read s true tags c).Again (read s true tags c') ((read s true tags c).span.slice t) r' := by
  obtain ⟨k, n, here, again⟩ := read_stable (State.isOuter_of_not_awaits plain) closed terminal
  have start : (read s true tags c).start = c.skip k := congrArg Token.start here
  have stop : (read s true tags c).stop = (c.skip k).skip n := congrArg Token.stop here
  rw [gap, span, start, stop, slice_skip inside,
    slice_skip (in_reaches inside (reaches_skip c k))] at rest
  rw [span, start, stop, slice_skip (in_reaches inside (reaches_skip c k))]
  rw [stop, skip_skip] at agree
  have whole : c'.rest = c.rest.take (k + n) ++ r' := by
    rw [rest, List.take_add, List.append_assoc]
    rfl
  obtain ⟨agrees, read'⟩ := again c' ⟨r', whole, fun differs => agree fun same => differs (same ▸ terminal)⟩
  have read' := Option.some.inj read'
  refine ⟨agrees, c'.skip k, n, read', ?_⟩
  by_cases equals : a = .equals
  · -- what comes after the sign may differ, so its length has to be known
    subst equals
    have before := read_equals terminal
    have after := read_equals ((congrArg Token.terminal read').trans terminal)
    rw [start, stop] at before
    rw [read'] at after
    have sign : (c.skip k).rest.take n = ['='] := by
      have parts := List.take_append_drop n (c.skip k).rest
      nth_rewrite 3 [before] at parts
      exact List.append_cancel_right parts
    have bound : k ≤ c.rest.length := by
      have filled : c.rest.drop k ≠ [] := by
        intro none
        rw [show (c.skip k).rest = c.rest.drop k from rfl, none] at sign
        cases n <;> cases sign
      have := List.drop_eq_nil_iff.not.mp filled
      omega
    have told : (c'.skip k).rest = '=' :: r' := by
      show c'.rest.drop k = _
      rw [rest, sign, List.drop_left' (List.length_take_of_le bound)]
      rfl
    have left : '=' :: r' = '=' :: ((c'.skip k).skip n).rest := told.symm.trans after
    exact ⟨by rw [sign]; exact told, (List.cons.inj left).2.symm⟩
  · have follow : Follow c.rest c'.rest (k + n) := whole ▸ Follow.of_append (agree equals)
    have left : (c'.skip (k + n)).rest = r' := by
      have parts := List.take_append_drop (k + n) c'.rest
      rw [← follow.same] at parts
      exact List.append_cancel_left (parts.trans whole)
    rw [← skip_skip] at left
    have parts := List.take_append_drop n (c'.skip k).rest
    rw [show (c'.skip k).rest.take n = (c.skip k).rest.take n from follow.drop.same.symm] at parts
    refine ⟨?_, left⟩
    rw [← left]
    exact parts.symm

theorem read_comment_again (awaiting : s.awaitsValue = true) (inside : c.In t)
    (terminal : (read s true tags c).terminal = some .comment)
    (rest : c'.rest = (read s true tags c).gap t c ++ ((read s true tags c).span.slice t ++ r')) :
    (read s true tags c).Again (read s true tags c') ((read s true tags c).span.slice t) r' := by
  obtain ⟨k, n, bound, here, again⟩ := read_comment awaiting terminal
  have start : (read s true tags c).start = c.skip k := congrArg Token.start here
  have stop : (read s true tags c).stop = (c.skip k).skip n := congrArg Token.stop here
  have body : (read s true tags c).span.slice t = (c.skip k).rest.take n := by
    rw [span, start, stop, slice_skip (in_reaches inside (reaches_skip c k))]
  have size : ((c.skip k).rest.take n).length = n := by
    rw [skip, List.length_take, List.length_drop]
    omega
  rw [body, gap, start, slice_skip inside] at rest
  have left : (c'.skip k).rest = (c.skip k).rest.take n ++ r' := by
    show c'.rest.drop k = _
    rw [rest, List.drop_left' (List.length_take_of_le (by omega))]
  refine ⟨c'.skip k, n, again c' r' ?_, by rw [body, left], ?_⟩
  · rw [rest, List.take_add, List.append_assoc]
    rfl
  · show (c'.skip k).rest.drop n = r'
    rw [left, List.drop_left' size]

theorem read_awaited_in (awaits : s.Awaits a) (inside : c.In t) (closed : commentsClosed c.rest = true)
    (terminal : (read s true tags c).terminal = some a) :
    Leads ((read s true tags c).gap t c) s ∧
      Suits a ((read s true tags c).span.slice t) (read s true tags c).stop.rest s ∧
      (read s true tags c).terminal = some a ∧ (read s true tags c).tags = none ∧
      (read s true tags c).changed = false := by
  obtain ⟨lead, w, r, split, leads, suits⟩ := read_awaited awaits closed terminal
  rw [read_suits awaits suits leads split, gap, span]
  dsimp only
  have rest : (c.skip lead.length).rest = w ++ r := by
    show c.rest.drop lead.length = w ++ r
    rw [split, List.drop_left]
  have left : ((c.skip lead.length).skip w.length).rest = r := by
    show (c.skip lead.length).rest.drop w.length = r
    rw [rest, List.drop_left]
  rw [slice_skip inside, slice_skip (in_reaches inside (reaches_skip c _)), rest, left, split,
    List.take_left, List.take_left]
  exact ⟨leads, suits, rfl, rfl, rfl⟩

theorem read_value_again {w : Text} (awaits : s.Awaits a) (inside : c.In t)
    (closed : commentsClosed c.rest = true) (terminal : (read s true tags c).terminal = some a)
    (kept : a.isValue = false → w = (read s true tags c).span.slice t)
    (fills : a.isValue = true → a.Fills w ∧ (read s true tags c).stop.rest.head? = r'.head?)
    (rest : c'.rest = (read s true tags c).gap t c ++ (w ++ r')) :
    (read s true tags c).Again (read s true tags c') w r' := by
  obtain ⟨leads, suits, found, tags', changed⟩ := read_awaited_in awaits inside closed terminal
  have suits' : Suits a w r' s := by
    cases value : a.isValue with
    | false => exact kept value ▸ suits_other value suits
    | true => exact suits_of_fills value suits (fills value).1 (fills value).2
  have left : (c'.skip ((read s true tags c).gap t c).length).rest = w ++ r' := by
    show c'.rest.drop _ = w ++ r'
    rw [rest, List.drop_left]
  refine ⟨_, w.length, ?_, left, ?_⟩
  · rw [read_suits awaits suits' leads rest, moved, found, tags', changed]
  · show (c'.skip _).rest.drop w.length = r'
    rw [left, List.drop_left]

end Token

namespace Terminal

structure LeadsFrom (a : Terminal) (s : State) : Prop where
  awaited : s.awaitsValue = true → a = .comment ∨ s.Awaits a
  other : s.awaitsValue = false → a.isValue = false

/-- A value comes next neither after the token nor in its place. -/
def Settles (a : Terminal) (s : State) : Prop := s.awaitsValue = false ∧ a ≠ .equals ∨ a.isValue = true

end Terminal

abbrev Tale := Terminal → Span → Text

def Tale.tie (tale : Tale) : Tie := fun a s start stop => start.rest = tale a s ++ stop.rest

def Tale.Keeps (t : Text) (tale : Tale) : Prop := ∀ a s, a.isValue = false → tale a s = s.slice t

theorem Token.read_told {s : State} {a : Terminal} {tags : Option (List Tag)} {t r' : Text} {c c' : Cursor}
    {tale : Tale} (keeps : tale.Keeps t) (leads : a.LeadsFrom s) (inside : c.In t)
    (closed : commentsClosed c.rest = true) (terminal : (read s true tags c).terminal = some a)
    (fills : a.isValue = true → a.Fills (tale a (read s true tags c).span))
    (agree : a.Settles s → Agree (read s true tags c).stop.rest r')
    (rest : c'.rest = (read s true tags c).gap t c ++ (tale a (read s true tags c).span ++ r')) :
    (s.awaitsValue = false → Agree c.rest c'.rest) ∧
      (read s true tags c).Again (read s true tags c') (tale a (read s true tags c).span) r' := by
  cases awaiting : s.awaitsValue with
  | false =>
    rw [keeps a _ (leads.other awaiting)] at rest ⊢
    obtain ⟨agrees, again⟩ := read_outside awaiting inside closed terminal
      (fun other => agree (Or.inl ⟨awaiting, other⟩)) rest
    exact ⟨fun _ => agrees, again⟩
  | true =>
    refine ⟨nofun, ?_⟩
    rcases leads.awaited awaiting with rfl | awaits
    · rw [keeps _ _ rfl] at rest ⊢
      exact read_comment_again awaiting inside terminal rest
    · exact read_value_again awaits inside closed terminal (keeps a _)
        (fun value => ⟨fills value, (agree (Or.inr value)).head?⟩) rest

namespace Tree

variable {t r : Text} {tale : Tale} {a : Terminal}

def gap (t : Text) (x : Tree) : Text := Span.slice ⟨x.info.origin.offset, x.info.start.offset⟩ t

def tell (tale : Tale) (x : Tree) : Text :=
  match x.label with
  | .terminal a => tale a x.span
  | _ => []

theorem tell_terminal {x : Tree} (label : x.label = .terminal a) : x.tell tale = tale a x.span := by
  rw [tell, label]

def retell (t : Text) (tale : Tale) (xs : List Tree) : Text := xs.flatMap fun x => x.gap t ++ x.tell tale

theorem retell_cons {x : Tree} {xs : List Tree} (label : x.label = .terminal a) :
    retell t tale (x :: xs) = x.gap t ++ (tale a x.span ++ retell t tale xs) := by
  rw [retell, List.flatMap_cons, tell_terminal label, List.append_assoc]
  rfl

/-- The trees are tokens, each of which starts where the one before it stops, up to the end of the text. -/
def Tiles (c : Cursor) : List Tree → Prop
  | [] => c.rest = []
  | x :: xs => x.info.origin = c ∧ c.Reaches x.info.start ∧ x.info.start.Reaches x.info.stop ∧
      (∃ a, x.label = .terminal a) ∧ Tiles x.info.stop xs

theorem alike_ofToken {token token' : Token} (c c' : Cursor) (terminal : token.terminal = some a)
    (again : token.Again token' (tale a token.span) r) :
    Alike tale.tie (ofToken c token) (ofToken c' token') ∧
      (ofToken c' token').info.tags = (ofToken c token).info.tags ∧
      (ofToken c' token').info.stop.rest = r := by
  obtain ⟨d, n, rfl, rest, left⟩ := again
  refine ⟨.intro _ _ rfl rfl rfl ?_ rfl nofun, rfl, left⟩
  intro _ b label
  obtain rfl : a = b := by simpa [ofToken, terminal] using label
  exact rest.trans (congrArg _ left.symm)

end Tree

namespace Pile

open Layer TemplateMarkup.Markup.Tree

variable {t t' : Text} {p p' q : Pile} {x : Tree} {xs : List Tree} {a : Terminal} {tale : Tale}

theorem Takes.leads (takes : Takes x a p q) : a.LeadsFrom p.state := by
  constructor
  · intro awaiting
    rcases takes.state with ⟨comment, -⟩ | ⟨s, shifts, rfl | ⟨reduces, -⟩⟩
    · exact Or.inl comment
    · exact Or.inr (State.awaits_of_shift? awaiting shifts)
    · rw [State.reduce?_of_awaits awaiting] at reduces
      cases reduces
  · intro plain
    refine Bool.eq_false_iff.mpr fun value => ?_
    rcases takes.state with ⟨rfl, -⟩ | ⟨s, shifts, rfl | ⟨-, b, n, goes⟩⟩
    · cases value
    · rw [(State.shift?_value shifts value).1] at plain
      cases plain
    · have := (State.shift?_value shifts value).1
      rw [State.goto?_not_awaits goes] at this
      cases this

theorem Takes.settles (takes : Takes x a p q) (settles : a.Settles p.state) :
    q.state.awaitsValue = false := by
  refine Bool.eq_false_iff.mpr fun awaits => ?_
  rcases takes.state with ⟨rfl, same⟩ | ⟨s, shifts, source⟩
  · rcases settles with ⟨plain, -⟩ | value
    · rw [same, plain] at awaits
      cases awaits
    · cases value
  · rcases settles with ⟨plain, other⟩ | value
    · rcases State.shift?_awaits shifts awaits with equals | before
      · exact other equals
      · rcases source with rfl | ⟨-, b, n, goes⟩
        · rw [plain] at before
          cases before
        · rw [State.goto?_not_awaits goes] at before
          cases before
    · rw [(State.shift?_value shifts value).2] at awaits
      cases awaits

theorem use_whole {fuel : Nat} {y : Option Tree} (uses : p.use t x fuel = .whole y) :
    x.label = .terminal .endOfText ∧ p.state.awaitsValue = false := by
  induction fuel generalizing p with
  | zero => simp [use] at uses
  | succ fuel ih =>
    rw [use] at uses
    split at uses
    · rename_i a label
      split at uses
      · cases uses
      · split at uses
        · cases uses
        · split at uses
          · rename_i ends
            obtain ⟨finished, rfl⟩ : p.state = .finished ∧ a = .endOfText := by simpa using ends
            exact ⟨label, by rw [finished]; rfl⟩
          · split at uses
            · rename_i n count reduces
              split at uses
              · refine ⟨(ih uses).1, Bool.eq_false_iff.mpr fun awaits => ?_⟩
                rw [State.reduce?_of_awaits awaits] at reduces
                cases reduces
              · cases uses
            · split at uses <;> cases uses
    · cases uses

theorem ends_leads {fuel : Nat} {y : Option Tree} (ends : p.use t x fuel = .whole y) :
    Terminal.endOfText.LeadsFrom p.state := by
  refine ⟨fun awaiting => ?_, fun _ => rfl⟩
  rw [(use_whole ends).2] at awaiting
  cases awaiting

def Fills (tale : Tale) (xs : List Tree) : Prop :=
  ∀ x ∈ xs, ∀ a, x.label = .terminal a → a.isValue = true → a.Fills (tale a x.span)

theorem in_closed {c : Cursor} (inside : c.In t) (closed : commentsClosed t = true) :
    commentsClosed c.rest = true := by
  obtain ⟨n, rfl⟩ := inside
  exact commentsClosed_drop closed n

theorem step_in (inside : (p.place t).In t) (steps : p.step t = .next q) : (q.place t).In t := by
  have follows := token_follows t p
  rw [(use_next steps).1]
  exact in_reaches inside (reaches_trans follows.lead follows.body)

theorem front_in (inside : (p.place t).In t) : (p.front t).In t := in_reaches inside (reaches_pastMark _)

/-- After a token no byte order mark is passed over. -/
theorem step_front (steps : p.step t = .next q) : q.front t = q.place t := by
  have follows := Token.read_follows p.state true p.tags (p.front t)
  rw [front, (use_next steps).1]
  exact pastMark_reaches (reaches_trans follows.lead follows.body)

/-- What comes before a token is what it is looked for in, after a byte order mark that starts the text. -/
theorem gap_front (inside : (p.place t).In t) : ∃ lead, (p.place t).rest = lead ++ (p.front t).rest ∧
    (p.token t).gap t = lead ++ (Token.read p.state true p.tags (p.front t)).gap t (p.front t) ∧
    (lead = [] ∧ ((p.place t).offset = 0 → (p.place t).rest.head? ≠ some byteOrderMark) ∨
      lead = [byteOrderMark]) := by
  by_cases mark : (p.place t).offset = 0 ∧ (p.place t).rest.head? = some byteOrderMark
  · have front : p.front t = (p.place t).skip 1 := if_pos mark
    obtain ⟨r, rest⟩ := List.head?_eq_some_iff.mp mark.2
    obtain ⟨k, start⟩ := (Token.read_follows p.state true p.tags (p.front t)).lead
    refine ⟨[byteOrderMark], by rw [front, skip, rest]; rfl, ?_, Or.inr rfl⟩
    have first : (p.token t).gap t = (p.place t).rest.take (1 + k) := by
      rw [Tree.gap, token, ofToken]
      dsimp only
      rw [start, front, skip_skip, Cursor.slice_skip inside]
    have second : (Token.read p.state true p.tags (p.front t)).gap t (p.front t) =
        (p.front t).rest.take k := by
      rw [Token.gap, start, Cursor.slice_skip (front_in inside)]
    rw [first, second, front, skip, rest, Nat.add_comm]
    rfl
  · have front : p.front t = p.place t := if_neg mark
    refine ⟨[], by rw [front]; rfl, ?_, Or.inl ⟨rfl, fun start head => mark ⟨start, head⟩⟩⟩
    rw [Tree.gap, token, front]
    rfl

/-- A pile and a place in another text are both at the start, or neither has a mark before it. -/
def Level (t : Text) (p : Pile) (c' : Cursor) : Prop :=
  p.state.awaitsValue = false ∧ (p.place t).offset = 0 ∧ c'.offset = 0 ∨
    p.front t = p.place t ∧ c'.pastMark = c'

section Told

variable (keeps : tale.Keeps t) (closed : commentsClosed t = true)

include keeps closed

theorem token_told (c' : Cursor) {r : Text} (inside : (p.place t).In t)
    (label : (p.token t).label = .terminal a) (leads : a.LeadsFrom p.state)
    (fills : a.isValue = true → a.Fills (tale a (p.token t).span))
    (agree : a.Settles p.state → Agree (p.token t).info.stop.rest r)
    (rest : c'.rest = (p.token t).gap t ++ (tale a (p.token t).span ++ r)) :
    (p.state.awaitsValue = false → Agree (p.place t).rest c'.rest) ∧
      (p.Level t c' → (Token.read p.state true p.tags (p.front t)).Again
        (Token.read p.state true p.tags c'.pastMark) (tale a (p.token t).span) r) := by
  have told : ∀ d : Cursor, d.rest = (Token.read p.state true p.tags (p.front t)).gap t (p.front t) ++
      (tale a (p.token t).span ++ r) → _ := fun d after =>
    Token.read_told keeps leads (front_in inside) (in_closed (front_in inside) closed)
      (token_terminal label) fills agree after
  obtain ⟨lead, whole, gap, sort⟩ := gap_front inside
  rw [gap, List.append_assoc] at rest
  have agrees : p.state.awaitsValue = false → Agree (p.place t).rest c'.rest := by
    intro plain
    rw [whole, rest]
    exact ((told ⟨0, 0, _⟩ rfl).1 plain).append lead
  refine ⟨agrees, fun level => (told c'.pastMark ?_).2⟩
  rcases level with ⟨plain, start, start'⟩ | ⟨same, same'⟩
  · rcases sort with ⟨rfl, other⟩ | rfl
    · rw [pastMark_of_ne (by rw [← (agrees plain).head?]; exact other start), rest]
      rfl
    · exact pastMark_mark start' rest
  · rw [same] at whole
    rw [same', rest, List.self_eq_append_left.mp whole]
    rfl

/-- Up to the first value, the text that is told agrees with what is still to be read. -/
theorem Reads.agree (reads : p.Reads t xs x) (inside : (p.place t).In t) (fills : Fills tale xs)
    (plain : p.state.awaitsValue = false) : Agree (p.place t).rest (retell t tale xs) := by
  induction reads with
  | done ends =>
    have label := (use_whole ends).1
    have last := Token.read_end (token_terminal label)
    refine (token_told keeps closed ⟨0, 0, _⟩ inside label (ends_leads ends) nofun (fun _ => ?_)
      (retell_cons label)).1 plain
    exact last ▸ .same []
  | more steps rest ih =>
    obtain ⟨place, a, takes⟩ := use_next steps
    refine (token_told keeps closed ⟨0, 0, _⟩ inside takes.label takes.leads ?_ ?_
      (retell_cons takes.label)).1 plain
    · exact fills _ (by simp) a takes.label
    · intro settles
      rw [← place]
      exact ih (step_in inside steps) (fun y member => fills y (by simp [member])) (takes.settles settles)

theorem step_alike {r : Text} (inside : (p.place t).In t) (level : p.Level t (p'.place t'))
    (alike : Alike tale.tie p p')
    (label : (p.token t).label = .terminal a) (leads : a.LeadsFrom p.state)
    (fills : a.isValue = true → a.Fills (tale a (p.token t).span))
    (agree : a.Settles p.state → Agree (p.token t).info.stop.rest r)
    (rest : (p'.place t').rest = (p.token t).gap t ++ (tale a (p.token t).span ++ r)) :
    BothCome tale.tie (p.step t) (p'.step t') ∧ (p'.token t').info.stop.rest = r := by
  have again := (token_told keeps closed (p'.place t') inside label leads fills agree rest).2 level
  obtain ⟨tokens, tags, left⟩ := alike_ofToken (p.place t) (p'.place t') (token_terminal label) again
  have same : p'.token t' =
      ofToken (p'.place t') (Token.read p.state true p.tags (p'.place t').pastMark) := by
    rw [token, alike.state, alike.tags]
    rfl
  rw [← same] at tokens tags left
  refine ⟨?_, left⟩
  rw [step, step, alike.size]
  exact alike_use _ alike tokens tags token_extra

theorem Reads.retold (reads : p.Reads t xs x) (inside : (p.place t).In t) (fills : Fills tale xs)
    (level : p.Level t (p'.place t')) (alike : Alike tale.tie p p') (rest : (p'.place t').rest = retell t tale xs) :
    ∃ xs' x', p'.Reads t' xs' x' ∧ Tree.Alike tale.tie x x' := by
  induction reads generalizing p' with
  | done ends =>
    have label := (use_whole ends).1
    have last := Token.read_end (token_terminal label)
    rw [retell_cons label] at rest
    have come := (step_alike keeps closed inside level alike label (ends_leads ends) nofun
      (fun _ => last ▸ .same []) rest).1
    rw [ends] at come
    generalize step' : p'.step t' = o at come
    cases come with
    | whole both =>
      cases both with
      | some alike' => exact ⟨_, _, .done step', alike'⟩
  | more steps later ih =>
    obtain ⟨place, a, takes⟩ := use_next steps
    rw [retell_cons takes.label] at rest
    have inside' := step_in inside steps
    have fills' := fun y member => fills y (List.mem_cons_of_mem _ member)
    obtain ⟨come, left⟩ := step_alike keeps closed inside level alike takes.label takes.leads
      (fills _ (by simp) a takes.label)
      (fun settles => place ▸ later.agree keeps closed inside' fills' (takes.settles settles)) rest
    rw [steps] at come
    generalize step' : p'.step t' = o at come
    cases come with
    | next alike' =>
      obtain ⟨xs', x', reads', whole⟩ := ih inside' fills' (Or.inr ⟨step_front steps, step_front step'⟩)
        alike' (by rw [(use_next step').1, left])
      exact ⟨_, x', .more step' reads', whole⟩

end Told

theorem token_fills (inside : (p.place t).In t) (closed : commentsClosed t = true)
    (label : (p.token t).label = .terminal a) (leads : a.LeadsFrom p.state) (value : a.isValue = true) :
    a.Fills ((p.token t).span.slice t) := by
  have awaiting : p.state.awaitsValue = true := by
    refine Bool.of_not_eq_false fun plain => ?_
    rw [leads.other plain] at value
    cases value
  rcases leads.awaited awaiting with rfl | awaits
  · cases value
  · exact fills_of_suits
      (Token.read_awaited_in awaits (front_in inside) (in_closed (front_in inside) closed)
        (token_terminal label)).2.1

theorem Reads.fills (closed : commentsClosed t = true) (reads : p.Reads t xs x)
    (inside : (p.place t).In t) : Fills (fun _ s => s.slice t) xs := by
  induction reads with
  | done ends =>
    intro y member a label value
    obtain rfl := List.mem_singleton.mp member
    have last := (use_whole ends).1
    rw [last] at label
    cases label
    cases value
  | more steps _ ih =>
    obtain ⟨-, a, takes⟩ := use_next steps
    intro y member b label value
    rcases List.mem_cons.mp member with rfl | later
    · obtain rfl : a = b := by simpa [takes.label] using label
      exact token_fills inside closed label takes.leads value
    · exact ih (step_in inside steps) y later b label value

/-- The tokens and what comes before them make up all that is still to be read. -/
theorem Reads.tiles (reads : p.Reads t xs x) : Tiles (p.place t) xs := by
  induction reads with
  | @done p _ ends =>
    have label := (use_whole ends).1
    have follows := token_follows t p
    exact ⟨rfl, follows.lead, follows.body, ⟨_, label⟩, Token.read_end (token_terminal label)⟩
  | @more p _ _ _ steps _ ih =>
    obtain ⟨place, a, takes⟩ := use_next steps
    have follows := token_follows t p
    exact ⟨rfl, follows.lead, follows.body, ⟨a, takes.label⟩, place ▸ ih⟩

end Pile

end Markup

end TemplateMarkup
