import TemplateMarkup.Proofs.Markup.Piles

/-!
Reading takes few steps. Every token brings a reading forward: most of them have characters, an implied
end takes a tag off the open ones, and raw text is asked for once. So the steps that the reader is
given are always enough.
-/
namespace TemplateMarkup

namespace Cursor

theorem reaches_rest {c d : Cursor} (reaches : c.Reaches d) : d.rest.length ≤ c.rest.length := by
  obtain ⟨n, rfl⟩ := reaches
  rw [skip, List.length_drop]
  exact Nat.sub_le _ _

theorem reaches_rest_lt {c d : Cursor} (reaches : c.Reaches d) (further : c.offset < d.offset) :
    d.rest.length < c.rest.length := by
  obtain ⟨n, rfl⟩ := reaches
  have some : n ≠ 0 := by
    rintro rfl
    simp [skip_zero] at further
  have left : c.rest.length ≠ 0 := by
    intro empty
    simp [skip, List.length_eq_zero_iff.mp empty] at further
  rw [skip, List.length_drop]
  omega

end Cursor

namespace Tag

theorem length_recordFrom (used : Nat) (tags : List Tag) :
    (recordFrom used tags).length = tags.length := by
  induction tags generalizing used with
  | nil => rfl
  | cons tag tags ih =>
    rw [recordFrom]
    split
    · rw [List.length_cons, ih, List.length_cons]
    · simp

theorem length_remember (tags : List Tag) : (remember tags).length = tags.length := by
  simp [remember, length_recordFrom]

end Tag

namespace Markup

open Cursor TemplateMarkup.Markup.Tree Layer

/-- How many tags a token leaves open, by its sort. -/
structure Counts (raw : Bool) (token : Terminal) (before after : Nat) : Prop where
  most : after ≤ before + 1
  implied : token = .impliedEnd → after + 1 = before
  raw : token = .rawText → raw = true ∧ after = before

theorem counts_solid {raw : Bool} {token : Terminal} {before after : Nat} (solid : token.isSolid = true)
    (most : after ≤ before + 1) : Counts raw token before after :=
  ⟨most, fun same => by simp [same, Terminal.isSolid] at solid,
    fun same => by simp [same, Terminal.isSolid] at solid⟩

namespace Scan

variable {e : Expectation} {tags : List Tag} {c : Cursor} {s : Scan}

theorem impliedEnd_counts {next : Cursor} (found : impliedEnd tags c next = some s) :
    Counts false s.token tags.length s.tags.length := by
  obtain rfl := impliedEnd_eq found
  have filled : tags ≠ [] := by
    rintro rfl
    simp [impliedEnd] at found
  have positive := List.length_pos_iff.mpr filled
  refine ⟨?_, fun _ => ?_, nofun⟩
  all_goals
    rw [List.length_tail]
    omega

theorem name_counts (found : startName tags c = some s ∨ endName tags c = some s) :
    Counts false s.token tags.length s.tags.length := by
  have shorter : tags.tail.length ≤ tags.length := by simp
  rcases found with found | found
  · unfold startName at found
    grind [counts_solid, Terminal.isSolid]
  · unfold endName at found
    grind [counts_solid, Terminal.isSolid]

theorem selfClose_counts (found : selfClose tags c = some s) :
    Counts false s.token tags.length s.tags.length := by
  unfold selfClose at found
  grind [counts_solid, Terminal.isSolid]

theorem comment_counts (found : comment tags c = some s) :
    Counts false s.token tags.length s.tags.length := by
  unfold comment at found
  split at found
  · obtain ⟨n, -, rfl⟩ := Option.map_eq_some_iff.mp found
    exact counts_solid rfl (Nat.le_succ _)
  · cases found

theorem read_counts (found : read e tags c = some s) :
    Counts (e == .rawText) s.token tags.length s.tags.length := by
  unfold read at found
  split at found
  · rename_i raw
    subst raw
    unfold rawText at found
    split at found
    · cases found
    · cases found
      exact ⟨Nat.le_succ _, nofun, fun _ => ⟨rfl, rfl⟩⟩
  · rename_i other
    rw [beq_false_of_ne other]
    dsimp only at found
    split at found
    · split at found
      · exact comment_counts found
      · split at found
        · exact impliedEnd_counts found
        · cases found
    · split at found
      · exact impliedEnd_counts found
      · cases found
    · split at found
      · exact selfClose_counts found
      · cases found
    · split at found
      · exact name_counts (Or.inl found)
      · exact name_counts (Or.inr found)
      · cases found

end Scan

/-- The tokens that depend on the open tags, and comments. -/
def Terminal.isScanned : Terminal → Bool
  | startName | scriptName | styleName | endName | strayEndName | impliedEnd | rawText | comment => true
  | _ => false

/-- Characters alone decide no token that depends on the open tags, and the end of the text is at its
end. -/
theorem Mode.lexeme_plain {m : Mode} {t : Text} {a : Terminal} {n : Nat}
    (read : m.lexeme t = .found a n) : a.isScanned = false ∧ (a = .endOfText → t = []) := by
  have plain : ∀ {b : Terminal}, b.isScanned = false → b ≠ .endOfText → a = b →
      a.isScanned = false ∧ (a = .endOfText → t = []) := by
    rintro b scanned other rfl
    exact ⟨scanned, fun same => absurd same other⟩
  have angle : ∀ {s : Text}, Lexeme.angle s = .found a n →
      a.isScanned = false ∧ (a = .endOfText → t = []) := by
    intro s same
    rcases Lexeme.angle_token same with same | same | same
    all_goals exact plain rfl (by decide) same
  cases m <;> simp only [lexeme] at read
  case recovery =>
    unfold Lexeme.recovery at read
    split at read
    case h_1 => cases read; simp [Terminal.isScanned]
    case h_2 => exact angle read
    case h_4 => exact plain rfl (by decide) (Lexeme.selfClose_token read)
    case h_6 => exact plain rfl (by decide) (Lexeme.entity_token read)
    case h_9 => exact plain rfl (by decide) (Lexeme.doctypeWord_token read)
    all_goals cases read; simp [Terminal.isScanned]
  case nodes =>
    unfold Lexeme.nodes at read
    split at read
    case h_1 => cases read; simp [Terminal.isScanned]
    case h_2 => exact angle read
    case h_3 => exact plain rfl (by decide) (Lexeme.entity_token read)
    case h_4 => exact plain rfl (by decide) (Lexeme.text_token read)
  case tag =>
    unfold Lexeme.tag at read
    split at read
    case h_2 => exact plain rfl (by decide) (Lexeme.selfClose_token read)
    case h_5 => cases read
    case h_6 => exact plain rfl (by decide) (Lexeme.run_token read)
    all_goals cases read; simp [Terminal.isScanned]
  case value =>
    unfold Lexeme.value at read
    split at read
    case h_3 => exact plain rfl (by decide) (Lexeme.run_token read)
    all_goals cases read; simp [Terminal.isScanned]
  case quoted r =>
    unfold Lexeme.quoted at read
    split at read
    case h_2 | h_4 => exact plain rfl (by decide) (Lexeme.run_token read)
    all_goals cases read; simp [Terminal.isScanned]
  case declaration => exact plain rfl (by decide) (Lexeme.run_token read)

theorem Mode.read_plain {m : Mode} {c start stop : Cursor} {a : Terminal}
    (read : m.read c = .found a start stop) : a.isScanned = false ∧ (a = .endOfText → stop.rest = []) := by
  unfold Mode.read at read
  dsimp only at read
  split at read
  · rename_i lexed
    cases read
    have plain := lexeme_plain lexed
    refine ⟨plain.1, fun ended => ?_⟩
    rw [skip, plain.2 ended, List.drop_nil]
  · cases read

namespace Token

def depth (tags : Option (List Tag)) (token : Token) : Nat := ((token.tags <|> tags).getD []).length

variable {tags : Option (List Tag)} {c : Cursor} {token : Token} {a : Terminal}

theorem read?_counts {e : Expectation} {m : Mode} {idle : Terminal → Bool}
    (found : read? e m idle tags c = .inl token) (terminal : token.terminal = some a) :
    Counts (e == .rawText) a (tags.getD []).length (token.depth tags) := by
  unfold read? at found
  dsimp only at found
  split at found
  · rename_i scanned
    cases found
    obtain ⟨s, scan, rest⟩ := Option.bind_eq_some_iff.mp scanned
    split at rest
    · cases rest
    · cases rest
      cases terminal
      have counts := Scan.read_counts scan
      rwa [← Tag.length_remember s.tags] at counts
  · split at found
    · rename_i b start stop lexed
      cases found
      cases terminal
      have plain := (Mode.read_plain lexed).1
      refine ⟨Nat.le_succ _, fun implied => ?_, fun raw => ?_⟩
      · rw [implied] at plain
        cases plain
      · rw [raw] at plain
        cases plain
    · cases found

theorem skipUnreadable_terminal (start : Cursor) (fuel : Nat) :
    (skipUnreadable tags start fuel c).terminal = none := by
  induction fuel generalizing c with
  | zero => rfl
  | succ fuel ih =>
    rw [skipUnreadable]
    split
    · rfl
    · split
      · split
        · rfl
        · exact ih
      · exact ih

theorem recover_counts (terminal : (recover tags c).terminal = some a) :
    Counts false a (tags.getD []).length ((recover tags c).depth tags) := by
  unfold recover at terminal ⊢
  split at terminal
  · rename_i found
    exact read?_counts found terminal
  · dsimp only at terminal
    rw [skipUnreadable_terminal] at terminal
    cases terminal

theorem read_counts (s : State) (terminal : (read s true tags c).terminal = some a) :
    Counts (s.accepts .rawText) a (tags.getD []).length ((read s true tags c).depth tags) := by
  have recovers : ∀ raw, (recover tags c).terminal = some a →
      Counts raw a (tags.getD []).length ((recover tags c).depth tags) := by
    intro raw terminal
    have counts := recover_counts terminal
    exact ⟨counts.most, counts.implied, fun same => absurd (counts.raw same).1 (by decide)⟩
  unfold read at terminal ⊢
  split at terminal
  · rename_i recovery
    rw [if_pos recovery]
    exact recovers _ terminal
  · rename_i regular
    rw [if_neg regular]
    dsimp only at terminal ⊢
    split at terminal
    · rename_i found
      have counts := read?_counts found terminal
      refine ⟨counts.most, counts.implied, fun same => ⟨?_, (counts.raw same).2⟩⟩
      have expected := (counts.raw same).1
      unfold State.expectation at expected
      grind
    · exact recovers _ terminal

end Token

/-- After a token that may be empty no raw text is asked for. -/
theorem State.shift?_hollow {s next : State} {a : Terminal} (shifts : s.shift? a = some next)
    (hollow : a.isSolid = false) : a ≠ .endOfText ∧ next.accepts .rawText = false := by
  cases State.shifts_of_shift? shifts
  case elementEmpty | elementImplied | rawText => exact ⟨by decide, rfl⟩
  case quote q _ | quoteText q _ | quoteEmpty q _ | quoteFull q _ => cases q <;> cases hollow
  case start node | topNodes node | joinNodes node | elementOpened node | elementContent node =>
    cases node <;> cases hollow
  all_goals cases hollow

namespace Pile

variable {t : Text} {p q : Pile} {xs : List Tree} {x : Tree}

/-- What a reading still has before it: the characters, the tags it may close, and raw text that may
come next. -/
def weight (t : Text) (p : Pile) : Nat :=
  3 * (p.place t).rest.length + (p.tags.getD []).length + if p.state.accepts .rawText then 1 else 0

theorem token_terminal {a : Terminal} (label : (p.token t).label = .terminal a) :
    (Token.read p.state true p.tags (p.front t)).terminal = some a := by
  unfold token ofToken at label
  dsimp only at label
  split at label
  · cases label
    assumption
  · cases label

theorem token_follows (t : Text) (p : Pile) :
    (Token.read p.state true p.tags (p.front t)).Follows (p.place t) :=
  (Token.read_follows _ _ _ _).of_reaches (reaches_pastMark _)

theorem step_weight (steps : p.step t = .next q) : q.weight t < p.weight t := by
  obtain ⟨place, a, takes⟩ := use_next steps
  have terminal := token_terminal takes.label
  have follows := token_follows t p
  have counts := Token.read_counts p.state terminal
  have depth : (Token.read p.state true p.tags (p.front t)).depth p.tags = (q.tags.getD []).length := by
    rw [takes.tags]
    rfl
  rw [depth] at counts
  have most := counts.most
  have back : (q.place t).rest.length ≤ (p.place t).rest.length := by
    rw [place]
    exact reaches_rest (reaches_trans follows.lead follows.body)
  unfold weight
  cases solid : a.isSolid with
  | true =>
    have shorter : (q.place t).rest.length < (p.place t).rest.length := by
      rw [place]
      refine Nat.lt_of_lt_of_le (reaches_rest_lt follows.body ?_) (reaches_rest follows.lead)
      exact (follows.fits a terminal).filled solid
    split <;> split <;> omega
  | false =>
    have shifted : a ≠ .endOfText ∧ q.state.accepts .rawText = false := by
      rcases takes.state with ⟨rfl, -⟩ | ⟨s, shifts, -⟩
      · cases solid
      · exact State.shift?_hollow shifts solid
    rw [shifted.2, if_neg Bool.false_ne_true]
    cases a with
    | endOfText => exact absurd rfl shifted.1
    | impliedEnd =>
      have fewer := counts.implied rfl
      omega
    | rawText =>
      obtain ⟨asked, same⟩ := counts.raw rfl
      rw [asked, if_pos rfl]
      omega
    | _ => cases solid

theorem reads_length (reads : p.Reads t xs x) : xs.length ≤ p.weight t + 1 := by
  induction reads with
  | done => simp
  | more steps _ ih =>
    have less := step_weight steps
    rw [List.length_cons]
    omega

theorem weight_start (t : Text) : Pile.start.weight t ≤ 3 * t.length + 1 := by
  unfold weight
  split <;> simp [Pile.start, place, topPlace, Cursor.start]

theorem read_of_reads (reads : Pile.start.Reads t xs x) : Reader.read t = x := by
  have few : xs.length ≤ 4 * t.length + 64 := by
    have bound := reads_length reads
    have start := weight_start t
    omega
  have finished := Reader.run_reads (4 * t.length + 63) (4 * t.length + 64) 0 (Reader.models_start t)
    (Reader.start_valid t) reads few
  unfold Reader.read
  dsimp only
  rw [finished]
  rfl

/-- Whether reading from a pile on meets no fault and ends with a whole tree, in so many steps. -/
def endsWhole (t : Text) : (steps : Nat) → Pile → Bool
  | 0, _ => false
  | steps + 1, p =>
    match p.step t with
    | .next q => endsWhole t steps q
    | .whole x => x.isSome
    | .fault => false

theorem reads_of_endsWhole {steps : Nat} (ends : p.endsWhole t steps = true) : ∃ xs x, p.Reads t xs x := by
  induction steps generalizing p with
  | zero => cases ends
  | succ steps ih =>
    rw [endsWhole] at ends
    split at ends
    · rename_i q next
      obtain ⟨xs, x, reads⟩ := ih ends
      exact ⟨_, x, .more next reads⟩
    · rename_i y whole
      obtain ⟨x, rfl⟩ := Option.isSome_iff_exists.mp ends
      exact ⟨_, x, .done whole⟩
    · cases ends

theorem endsWhole_of_reads {steps : Nat} (reads : p.Reads t xs x) (enough : xs.length ≤ steps) :
    p.endsWhole t steps = true := by
  induction reads generalizing steps with
  | done ends =>
    obtain ⟨steps, rfl⟩ := Nat.exists_eq_add_of_le' enough
    rw [List.length_singleton, endsWhole, ends]
    rfl
  | more next _ ih =>
    have positive : steps ≠ 0 := Nat.ne_of_gt (Nat.lt_of_lt_of_le (Nat.succ_pos _) enough)
    obtain ⟨steps, rfl⟩ := Nat.exists_eq_succ_of_ne_zero positive
    rw [endsWhole, next]
    exact ih (Nat.le_of_succ_le_succ enough)

end Pile

/-- Whether a text is read without a fault: every token is of use where it stands, up to the end. -/
def isFaultless (t : Text) : Bool := Pile.start.endsWhole t (3 * t.length + 2)

theorem isFaultless_iff {t : Text} : isFaultless t = true ↔ ∃ xs x, Pile.start.Reads t xs x := by
  constructor
  · exact Pile.reads_of_endsWhole
  · rintro ⟨xs, x, reads⟩
    exact Pile.endsWhole_of_reads reads (Nat.le_trans (Pile.reads_length reads)
      (Nat.succ_le_succ (Pile.weight_start t)))

end Markup

end TemplateMarkup
