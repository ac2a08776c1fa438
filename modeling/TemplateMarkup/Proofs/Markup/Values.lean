import TemplateMarkup.Proofs.Markup.Lookahead

/-!
The values of attributes as tokens. After an equals sign or an opening quotation mark, a value may be
replaced by another one that suits its place, and the state finds the new value where the old one was.
-/
namespace TemplateMarkup.Markup

open Cursor

def State.awaitsValue : State → Bool
  | attributeEquals _ | quoteOpened _ _ => true
  | _ => false

theorem State.expectation_of_awaits {s : State} (awaits : s.awaitsValue = true) :
    s.expectation = .comment := by
  cases s <;> cases awaits
  case attributeEquals o => cases o <;> rfl
  case quoteOpened q o => cases q <;> cases o <;> rfl

def Terminal.isValue : Terminal → Bool
  | attributeValue | apostropheText | quotationText => true
  | _ => false

def Quote.allows (q : Quote) (c : Char) : Bool := c != q.char && c != '\x00'

/-- The characters of a token after which others may come, in a state that awaits a value. -/
def Suits (a : Terminal) (w r : Text) : State → Prop
  | .attributeEquals _ =>
    a = .attributeValue ∧ w ≠ [] ∧ (∀ c ∈ w, Lexeme.isValueChar c = true) ∧
        (∀ c ∈ r.head?, Lexeme.isValueChar c = false) ∨
      ∃ q : Quote, a = q.mark ∧ w = [q.char]
  | .quoteOpened q _ =>
    a = q.text ∧ w ≠ [] ∧ (∀ c ∈ w, q.allows c = true) ∧ (∀ c ∈ r.head?, q.allows c = false) ∧
        opensComment ((w ++ r).dropWhile isMarkupBlank) = false ∨
      a = q.mark ∧ w = [q.char]
  | _ => False

theorem drop_blanks (r : Text) : r.drop (blanks r) = r.dropWhile isMarkupBlank := by
  have parts := List.takeWhile_append_dropWhile (p := isMarkupBlank) (l := r)
  calc r.drop (blanks r)
      = (r.takeWhile isMarkupBlank ++ r.dropWhile isMarkupBlank).drop (blanks r) := by rw [parts]
    _ = r.dropWhile isMarkupBlank := List.drop_left

namespace Scan

variable {c : Cursor} {tags : List Tag} {s : Scan}

/-- Where only comments are looked for, a comment is found if one begins. -/
theorem read_comment_eq (tags : List Tag) (c : Cursor) :
    read .comment tags c = comment tags (c.skip (blanks c.rest)) := by
  rw [read_eq (by decide)]
  have absent : ∀ {c : Cursor}, peek c ≠ some '<' ∨ peek (c.skip 1) ≠ some '!' →
      comment tags c = none := by
    intro c other
    unfold comment
    split
    · rename_i rest
      rcases other with other | other
      · exact absurd (by simp [peek, rest]) other
      · exact absurd (by simp [peek, skip, rest]) other
    · rfl
  generalize c.skip (blanks c.rest) = d
  cases peeks : peek d with
  | none =>
    rw [readAt_end peeks, absent (Or.inl (by simp [peeks]))]
    rfl
  | some e =>
    by_cases angle : e = '<'
    · subst angle
      rw [readAt_angle peeks]
      split
      · rfl
      · rename_i other
        rw [absent (Or.inr other)]
        rfl
    · rw [absent (Or.inl (by simpa [peeks] using angle))]
      by_cases slash : e = '/'
      · subst slash
        rw [readAt_slash peeks]
        rfl
      · rw [readAt_name peeks angle slash]
        rfl

end Scan

namespace Lexeme

variable {a : Terminal} {w r : Text}

theorem value_plain {c : Char} (other : ∀ q : Quote, c ≠ q.char) (t : Text) :
    value (c :: t) = run .attributeValue isValueChar (c :: t) := by
  have apostrophe := other .single
  have quotation := other .double
  unfold value
  grind [Quote.char]

theorem quoted_plain {q : Quote} {c : Char} (other : c ≠ q.char) (t : Text) :
    quoted q (c :: t) = run q.text q.allows (c :: t) := by
  cases q with
  | single =>
    rw [quoted]
    · rfl
    · exact fun tail same => other (List.cons.inj same).1
  | double =>
    rw [quoted]
    · rfl
    · exact fun tail same => other (List.cons.inj same).1

theorem value_mark (q : Quote) (t : Text) : value (q.char :: t) = .found q.mark 1 := by
  cases q <;> rfl

theorem quoted_mark (q : Quote) (t : Text) : quoted q (q.char :: t) = .found q.mark 1 := by
  cases q <;> rfl

end Lexeme

namespace State

variable {s : State} {a : Terminal} {w r : Text}

/-- A state that awaits a value finds the tokens that suit it. -/
theorem lexeme_of_suits (suits : Suits a w r s) : s.mode.lexeme (w ++ r) = .found a w.length := by
  cases s <;> try cases suits
  case attributeEquals.inl o suits =>
    obtain ⟨rfl, filled, chars, stops⟩ := suits
    have run := (Lexeme.run_found_iff .attributeValue Lexeme.isValueChar).mpr ⟨rfl, filled, chars, stops⟩
    cases w with
    | nil => exact absurd rfl filled
    | cons c w =>
      refine Eq.trans (Lexeme.value_plain (fun q same => ?_) _) run
      have passes := chars c (by simp)
      rw [same] at passes
      cases q <;> cases passes
  case attributeEquals.inr o suits =>
    obtain ⟨q, rfl, rfl⟩ := suits
    exact Lexeme.value_mark q r
  case quoteOpened.inl q o suits =>
    obtain ⟨rfl, filled, chars, stops, -⟩ := suits
    have run := (Lexeme.run_found_iff q.text q.allows).mpr ⟨rfl, filled, chars, stops⟩
    cases w with
    | nil => exact absurd rfl filled
    | cons c w =>
      refine Eq.trans (Lexeme.quoted_plain (fun same => ?_) _) run
      have passes := chars c (by simp)
      rw [same] at passes
      cases q <;> cases passes
  case quoteOpened.inr q o suits =>
    obtain ⟨rfl, rfl⟩ := suits
    exact Lexeme.quoted_mark q r

theorem suits_of_lexeme {n : Nat} (awaits : s.awaitsValue = true)
    (lexed : s.mode.lexeme r = .found a n)
    (shut : opensComment (r.dropWhile isMarkupBlank) = false) :
    n ≤ r.length ∧ Suits a (r.take n) (r.drop n) s := by
  cases s with
  | attributeEquals o =>
    cases r with
    | nil => cases lexed
    | cons c t =>
      by_cases marks : ∃ q : Quote, c = q.char
      · obtain ⟨q, rfl⟩ := marks
        cases (Lexeme.value_mark q t).symm.trans lexed
        exact ⟨by simp, Or.inr ⟨q, rfl, rfl⟩⟩
      · have run := (Lexeme.value_plain (fun q same => marks ⟨q, same⟩) t).symm.trans lexed
        exact ⟨Lexeme.run_bound run, Or.inl (Lexeme.run_parts run)⟩
  | quoteOpened q o =>
    cases r with
    | nil => cases q <;> cases lexed
    | cons c t =>
      by_cases marks : c = q.char
      · subst marks
        cases (Lexeme.quoted_mark q t).symm.trans lexed
        exact ⟨by simp, Or.inr ⟨rfl, rfl⟩⟩
      · have run := (Lexeme.quoted_plain marks t).symm.trans lexed
        obtain ⟨token, filled, chars, stops⟩ := Lexeme.run_parts run
        refine ⟨Lexeme.run_bound run, Or.inl ⟨token, filled, chars, stops, ?_⟩⟩
        rwa [List.take_append_drop]
  | _ => cases awaits

inductive Awaits : State → Terminal → Prop where
  | value (o : Opener) : Awaits (attributeEquals o) .attributeValue
  | opens (o : Opener) (q : Quote) : Awaits (attributeEquals o) q.mark
  | text (o : Opener) (q : Quote) : Awaits (quoteOpened q o) q.text
  | closes (o : Opener) (q : Quote) : Awaits (quoteOpened q o) q.mark

theorem awaits_of_shift? {next : State} (awaits : s.awaitsValue = true)
    (shifts : s.shift? a = some next) : Awaits s a := by
  cases shifts_of_shift? shifts
  case value o => exact .value o
  case quote q o => exact .opens o q
  case quoteText q o => exact .text o q
  case quoteEmpty q o => exact .closes o q
  all_goals cases awaits

theorem Awaits.sort (awaits : Awaits s a) :
    s.awaitsValue = true ∧ a.isScanned = false ∧ a ≠ .selfClose := by
  cases awaits with
  | value o => exact ⟨rfl, rfl, nofun⟩
  | opens o q => cases q <;> exact ⟨rfl, rfl, nofun⟩
  | text o q => cases q <;> exact ⟨rfl, rfl, nofun⟩
  | closes o q => cases q <;> exact ⟨rfl, rfl, nofun⟩

end State

namespace Lexeme

theorem recovery_other {r : Text} {a : Terminal} {n : Nat} (lexed : recovery r = .found a n) :
    a.isValue = false := by
  have plain : ∀ {b : Terminal}, a = b → b.isValue = false → a.isValue = false := by
    rintro b rfl other
    exact other
  unfold recovery at lexed
  split at lexed
  case h_2 =>
    rcases angle_token lexed with same | same | same
    all_goals exact plain same rfl
  case h_4 => exact plain (selfClose_token lexed) rfl
  case h_6 => exact plain (entity_token lexed) rfl
  case h_9 => exact plain (doctypeWord_token lexed) rfl
  all_goals
    cases lexed
    rfl

end Lexeme

namespace Token

variable {s : State} {a : Terminal} {c c' : Cursor} {tags : Option (List Tag)}

theorem scanned_terminal {e : Expectation} {idle : Terminal → Bool} {token : Token}
    (scanned : (Scan.read e (tags.getD []) c).bind (ofScan idle tags c) = some token) :
    ∃ sc, Scan.read e (tags.getD []) c = some sc ∧ token.terminal = some sc.token := by
  obtain ⟨sc, scan, counts⟩ := Option.bind_eq_some_iff.mp scanned
  refine ⟨sc, scan, ?_⟩
  unfold ofScan at counts
  split at counts
  · cases counts
  · cases counts
    rfl

theorem recovery_not_awaited {start stop start' stop' : Cursor} (awaits : s.Awaits a)
    (stuck : s.mode.read c = .stuck start stop)
    (lexed : Mode.recovery.read c = .found a start' stop') : False := by
  rw [Mode.read_eq] at stuck lexed
  cases found : Mode.recovery.lexeme (c.rest.drop (Mode.recovery.lead c.rest)) with
  | stuck n =>
    rw [found] at lexed
    cases lexed
  | found b n =>
    rw [found] at lexed
    cases lexed
    have other := Lexeme.recovery_other found
    cases awaits with
    | value o => cases other
    | text o q => cases q <;> cases other
    | opens o q =>
      obtain ⟨t, rest⟩ := List.head?_eq_some_iff.mp (Mode.lexeme_mark found).1
      have marks := Lexeme.value_mark q t
      rw [← rest] at marks
      rw [show (State.attributeEquals o).mode.lexeme
        (c.rest.drop ((State.attributeEquals o).mode.lead c.rest)) = .found q.mark 1 from marks] at stuck
      cases stuck
    | closes o q =>
      have head := (Mode.lexeme_mark found).1
      cases rest : c.rest with
      | nil =>
        rw [rest] at head
        cases head
      | cons d t =>
        rw [rest] at head stuck
        by_cases marks : d = q.char
        · subst marks
          rw [show (State.quoteOpened q o).mode.lexeme ((q.char :: t).drop
            ((State.quoteOpened q o).mode.lead (q.char :: t))) = .found q.mark 1
            from Lexeme.quoted_mark q t] at stuck
          cases stuck
        · have plain := Lexeme.quoted_plain marks t
          cases run : Lexeme.run q.text q.allows (d :: t) with
          | found b m =>
            rw [show (State.quoteOpened q o).mode.lexeme ((d :: t).drop
              ((State.quoteOpened q o).mode.lead (d :: t))) = .found b m from plain.trans run] at stuck
            cases stuck
          | stuck m =>
            have refused := (Lexeme.run_stuck_iff.mp run).2 d rfl
            have null : d = '\x00' := by simpa [Quote.allows, marks] using refused
            subst null
            have same : some '\x00' = some q.char := head
            cases q <;> exact absurd same (by decide)

/-- Where a state that awaits a value finds nothing, recovery finds nothing for it. -/
theorem recover_not_awaited {start stop : Cursor} (awaits : s.Awaits a)
    (stuck : s.mode.read c = .stuck start stop) : (recover tags c).terminal ≠ some a := by
  intro terminal
  obtain ⟨awaiting, unscanned, other⟩ := awaits.sort
  cases found : (read? .anything .recovery (fun _ => true) tags c).getLeft? with
  | none =>
    rw [recover_of_stuck found] at terminal
    cases terminal
  | some token =>
    rw [recover_of_found found] at terminal
    rw [read?_eq] at found
    cases scanned : (Scan.read .anything (tags.getD []) c).bind (ofScan (fun _ => true) tags c) with
    | some scanned' =>
      rw [scanned] at found
      cases found
      obtain ⟨sc, scan, same⟩ := scanned_terminal scanned
      rw [terminal] at same
      cases same
      rcases Scan.read_token scan with sort | sort
      · rw [unscanned] at sort
        cases sort
      · exact other sort
    | none =>
      rw [scanned, Option.none_or] at found
      cases lexed : Mode.recovery.read c with
      | stuck _ _ =>
        rw [lexed] at found
        cases found
      | found b _ _ =>
        rw [lexed] at found
        cases found
        cases terminal
        exact recovery_not_awaited awaits stuck lexed

theorem awaits_regular (awaits : s.Awaits a) : s ≠ .recovery := by
  rintro rfl
  cases awaits

/-- The blanks before a value are passed over, those between quotation marks are kept. -/
def Leads (lead : Text) : State → Prop
  | .attributeEquals _ => ∀ d ∈ lead, isMarkupBlank d = true
  | _ => lead = []

theorem suits_head {w r : Text} {o : Opener} (suits : Suits a w r (.attributeEquals o)) :
    ∃ d w', w = d :: w' ∧ isMarkupBlank d = false ∧ d ≠ '<' := by
  rcases suits with ⟨-, filled, chars, -⟩ | ⟨q, -, rfl⟩
  · obtain ⟨d, w', rfl⟩ := List.exists_cons_of_ne_nil filled
    have value := chars d (by simp)
    refine ⟨d, w', rfl, ?_, ?_⟩
    · exact (by simpa [Lexeme.isValueChar] using value : isMarkupBlank d = false ∧ _).1
    · rintro rfl
      exact absurd value (by decide)
  · exact ⟨q.char, [], rfl, by cases q <;> rfl, by cases q <;> decide⟩

theorem suits_shut {w r lead : Text} (suits : Suits a w r s) (leads : Leads lead s) :
    opensComment ((lead ++ (w ++ r)).dropWhile isMarkupBlank) = false := by
  cases s with
  | attributeEquals o =>
    obtain ⟨d, w', rfl, solid, other⟩ := suits_head suits
    rw [List.dropWhile_append_of_pos leads, List.cons_append, List.dropWhile_cons_of_neg (by simp [solid])]
    simp [opensComment, List.isPrefixOf, other.symm]
  | quoteOpened q o =>
    rw [show lead = [] from leads, List.nil_append]
    rcases suits with ⟨-, -, -, -, shut⟩ | ⟨-, rfl⟩
    · exact shut
    · cases q <;> rfl
  | _ => exact suits.elim

theorem suits_lead {w r lead : Text} (suits : Suits a w r s) (leads : Leads lead s) :
    s.mode.lead (lead ++ (w ++ r)) = lead.length := by
  cases s with
  | attributeEquals o =>
    obtain ⟨d, w', rfl, solid, -⟩ := suits_head suits
    show blanks (lead ++ (d :: w' ++ r)) = lead.length
    rw [blanks, List.takeWhile_append_of_pos leads, List.cons_append,
      List.takeWhile_cons_of_neg (by simp [solid]), List.append_nil]
  | quoteOpened q o =>
    rw [show lead = [] from leads]
    rfl
  | _ => exact suits.elim

theorem read_suits {w r lead : Text} (awaits : s.Awaits a) (suits : Suits a w r s)
    (leads : Leads lead s) (rest : c.rest = lead ++ (w ++ r)) :
    read s true tags c = ⟨some a, c.skip lead.length, (c.skip lead.length).skip w.length, none, false⟩ := by
  refine read_of_found (awaits_regular awaits) ?_
  have shut := suits_shut suits leads
  rw [← rest, ← drop_blanks] at shut
  have scan : Scan.read s.expectation (tags.getD []) c = none := by
    rw [State.expectation_of_awaits awaits.sort.1, Scan.read_comment_eq]
    exact Scan.comment_of_not_opens shut
  have lexed : s.mode.read c =
      .found a (c.skip lead.length) ((c.skip lead.length).skip w.length) := by
    rw [Mode.read_eq, rest, suits_lead suits leads, List.drop_left, State.lexeme_of_suits suits]
    rfl
  rw [direct, read?_eq, scan, Option.bind_none, Option.none_or, lexed]
  rfl

theorem comment_absent {idle : Terminal → Bool}
    (absent : (Scan.read .comment (tags.getD []) c).bind (ofScan idle tags c) = none) :
    Scan.comment (tags.getD []) (c.skip (blanks c.rest)) = none := by
  cases scan : Scan.read .comment (tags.getD []) c with
  | none => rwa [← Scan.read_comment_eq]
  | some sc =>
    rw [scan, Option.bind_some] at absent
    rw [Scan.read_comment_eq] at scan
    have follows := Scan.comment_follows scan
    have filled := follows.fits.filled (by rw [Scan.comment_token scan]; rfl)
    have before := reaches_offset (reaches_trans (reaches_skip c (blanks c.rest)) follows.lead)
    unfold ofScan at absent
    rw [if_neg (by simp; omega)] at absent
    cases absent

theorem lead_leads (awaits : s.awaitsValue = true) (r : Text) : Leads (r.take (s.mode.lead r)) s := by
  cases s with
  | attributeEquals o =>
    intro d member
    have inside : d ∈ r.takeWhile isMarkupBlank :=
      (List.prefix_iff_eq_take.mp (List.takeWhile_prefix _)).symm ▸ member
    exact List.all_eq_true.mp List.all_takeWhile d inside
  | quoteOpened q o => rfl
  | _ => cases awaits

theorem dropWhile_drop_lead (m : Mode) (r : Text) :
    (r.drop (m.lead r)).dropWhile isMarkupBlank = r.dropWhile isMarkupBlank := by
  unfold Mode.lead
  split
  · have parts := List.takeWhile_append_dropWhile (p := isMarkupBlank) (l := r)
    have blank : ∀ d ∈ r.takeWhile isMarkupBlank, isMarkupBlank d = true :=
      fun d member => List.all_eq_true.mp List.all_takeWhile d member
    calc (r.drop (blanks r)).dropWhile isMarkupBlank
        = (r.dropWhile isMarkupBlank).dropWhile isMarkupBlank := by rw [drop_blanks]
      _ = (r.takeWhile isMarkupBlank ++ r.dropWhile isMarkupBlank).dropWhile isMarkupBlank :=
          (List.dropWhile_append_of_pos blank).symm
      _ = r.dropWhile isMarkupBlank := by rw [parts]
  · rfl

/-- The token that a state awaits stands after blanks and suits the state. -/
theorem read_awaited (awaits : s.Awaits a) (closed : commentsClosed c.rest = true)
    (terminal : (read s true tags c).terminal = some a) :
    ∃ lead w r, c.rest = lead ++ (w ++ r) ∧ Leads lead s ∧ Suits a w r s := by
  have regular := awaits_regular awaits
  obtain ⟨awaiting, unscanned, other⟩ := awaits.sort
  cases found : direct s tags c with
  | none =>
    rw [read_of_stuck regular found] at terminal
    rw [direct, read?_eq, Option.or_eq_none_iff] at found
    cases lexed : s.mode.read c with
    | found b start stop =>
      rw [lexed] at found
      cases found.2
    | stuck start reached => exact absurd terminal (recover_not_awaited awaits lexed)
  | some token =>
    rw [read_of_found regular found] at terminal
    rw [direct, read?_eq] at found
    cases scanned : (Scan.read s.expectation (tags.getD []) c).bind
        (ofScan (fun t => !true || s.next? t == some s) tags c) with
    | some token' =>
      rw [scanned] at found
      cases found
      obtain ⟨sc, scan, same⟩ := scanned_terminal scanned
      rw [terminal] at same
      cases same
      rcases Scan.read_token scan with sort | sort
      · rw [unscanned] at sort
        cases sort
      · exact absurd sort other
    | none =>
      rw [scanned, Option.none_or, Mode.read_eq] at found
      rw [State.expectation_of_awaits awaiting] at scanned
      have shut := Scan.not_opens_of_comment (commentsClosed_drop closed _) (comment_absent scanned)
      rw [show (c.skip (blanks c.rest)).rest = c.rest.drop (blanks c.rest) from rfl, drop_blanks,
        ← dropWhile_drop_lead s.mode] at shut
      cases lexed : s.mode.lexeme (c.rest.drop (s.mode.lead c.rest)) with
      | stuck n =>
        rw [lexed] at found
        cases found
      | found b n =>
        rw [lexed] at found
        cases found
        cases terminal
        obtain ⟨bound, suits⟩ := State.suits_of_lexeme awaiting lexed shut
        refine ⟨_, _, _, ?_, lead_leads awaiting c.rest, suits⟩
        rw [List.take_append_drop, List.take_append_drop]

theorem ofReading_not_comment {m : Mode} {token : Token} (found : ofReading (m.read c) = some token) :
    token.terminal ≠ some .comment := by
  intro same
  cases lexed : m.read c with
  | stuck start reached =>
    rw [lexed] at found
    cases found
  | found b start stop =>
    rw [lexed] at found
    cases found
    cases same
    cases (Mode.read_plain lexed).1

/-- The tokens of recovery hold no comment that the state has not found. -/
theorem recover_not_comment {idle : Terminal → Bool}
    (absent : (Scan.read .comment (tags.getD []) c).bind (ofScan idle tags c) = none) :
    (recover tags c).terminal ≠ some .comment := by
  intro terminal
  cases recovered : (read? .anything .recovery (fun _ => true) tags c).getLeft? with
  | none =>
    rw [recover_of_stuck recovered] at terminal
    cases terminal
  | some token =>
    rw [recover_of_found recovered] at terminal
    rw [read?_eq] at recovered
    cases rescanned : (Scan.read .anything (tags.getD []) c).bind (ofScan (fun _ => true) tags c) with
    | some token' =>
      rw [rescanned] at recovered
      cases recovered
      obtain ⟨sc, scan, same⟩ := scanned_terminal rescanned
      rw [terminal] at same
      have begins := Scan.comment_of_read (by decide) scan (Option.some.inj same).symm
      rw [comment_absent absent] at begins
      cases begins
    | none =>
      rw [rescanned, Option.none_or] at recovered
      exact ofReading_not_comment recovered terminal

/-- A state that waits for a value comes upon a comment by looking for one. -/
theorem comment_scanned (awaiting : s.awaitsValue = true)
    (terminal : (read s true tags c).terminal = some .comment) :
    ∃ token, (Scan.read .comment (tags.getD []) c).bind
      (ofScan (fun t => !true || s.next? t == some s) tags c) = some token := by
  have regular : s ≠ .recovery := by
    rintro rfl
    cases awaiting
  cases scanned : (Scan.read .comment (tags.getD []) c).bind
      (ofScan (fun t => !true || s.next? t == some s) tags c) with
  | some token => exact ⟨token, rfl⟩
  | none =>
    exfalso
    cases found : direct s tags c with
    | some token =>
      rw [read_of_found regular found] at terminal
      rw [direct, read?_eq, State.expectation_of_awaits awaiting, scanned, Option.none_or] at found
      exact ofReading_not_comment found terminal
    | none =>
      rw [read_of_stuck regular found] at terminal
      exact recover_not_comment scanned terminal

theorem comment_filled {sc : Scan} {n : Nat} (scan : Scan.comment (tags.getD []) c = some sc)
    (here : sc = sc.moved c n) : n ≠ 0 := by
  rintro rfl
  have further := (Scan.comment_follows scan).fits.filled (by rw [Scan.comment_token scan]; rfl)
  rw [here] at further
  simp [Scan.moved, skip_zero] at further

/-- The blanks before a comment are the same before another text that begins with it. -/
theorem blanks_comment {sc : Scan} {n : Nat} {u : Text} (filled : n ≠ 0)
    (scan : Scan.comment (tags.getD []) (c.skip (blanks c.rest)) = some sc)
    (rest : c'.rest = c.rest.take (blanks c.rest + n) ++ u) :
    blanks c'.rest = blanks c.rest ∧
      (c'.skip (blanks c.rest)).rest = (c.skip (blanks c.rest)).rest.take n ++ u := by
  obtain ⟨m, rfl⟩ := Nat.exists_eq_succ_of_ne_zero filled
  obtain ⟨t, opens⟩ := Scan.comment_rest scan
  have size : (c.rest.takeWhile isMarkupBlank).length = blanks c.rest := rfl
  have lead : c.rest.take (blanks c.rest) = c.rest.takeWhile isMarkupBlank :=
    (List.prefix_iff_eq_take.mp (List.takeWhile_prefix _)).symm
  have parts : c'.rest = c.rest.takeWhile isMarkupBlank ++
      ((c.skip (blanks c.rest)).rest.take (m + 1) ++ u) := by
    rw [rest, List.take_add, lead, List.append_assoc]
    rfl
  constructor
  · -- the comment begins with a character that is no blank
    rw [blanks, parts, opens, List.takeWhile_append_of_pos fun d member =>
      List.all_eq_true.mp List.all_takeWhile d member]
    simp [isMarkupBlank, blanks]
  · show c'.rest.drop (blanks c.rest) = _
    rw [parts, ← size, List.drop_left]

/-- A comment ends where it does, whatever comes after it. -/
theorem read_comment (awaiting : s.awaitsValue = true)
    (terminal : (read s true tags c).terminal = some .comment) :
    ∃ k n, k + n ≤ c.rest.length ∧ read s true tags c = (read s true tags c).moved (c.skip k) n ∧
      ∀ (c' : Cursor) (u : Text), c'.rest = c.rest.take (k + n) ++ u →
        read s true tags c' = (read s true tags c).moved (c'.skip k) n := by
  have regular : s ≠ .recovery := by
    rintro rfl
    cases awaiting
  have expects := State.expectation_of_awaits awaiting
  obtain ⟨token, scanned⟩ := comment_scanned awaiting terminal
  have found : direct s tags c = some token := by
    rw [direct, read?_eq, expects, scanned, Option.some_or]
  rw [read_of_found regular found]
  obtain ⟨sc, scan, counts⟩ := Option.bind_eq_some_iff.mp scanned
  rw [Scan.read_comment_eq] at scan
  obtain ⟨n, bound, here, again⟩ := Scan.comment_stable scan
  have filled := comment_filled scan here
  have left : 0 < (c.skip (blanks c.rest)).rest.length := by omega
  rw [skip, List.length_drop] at bound left
  refine ⟨blanks c.rest, n, by omega, (ofScan_here counts here).2, fun c' u rest => ?_⟩
  obtain ⟨same, after⟩ := blanks_comment filled scan rest
  have taken : c'.rest.take (blanks c.rest + n) = [] ↔ c.rest.take (blanks c.rest + n) = [] := by
    have some : c.rest ≠ [] := List.length_pos_iff.mp (by omega)
    have some' : c'.rest ≠ [] := by
      rw [rest, Ne, List.append_eq_nil_iff, List.take_eq_nil_iff]
      simp [some, filled]
    simp [List.take_eq_nil_iff, some, some']
  refine read_of_found regular ?_
  rw [direct, read?_eq, expects, Scan.read_comment_eq, same, again _ u after, Option.bind_some,
    ofScan_moved here taken, counts, Option.map_some, Option.some_or]

end Token

end TemplateMarkup.Markup
