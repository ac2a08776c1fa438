import TemplateMarkup.Markup.Token

/-!
Places in a text and what reading a token does to them. A place reaches another one if some characters
lie between them. Every token starts at a place that the reader can reach from where it stands, and
stops at one that it can reach from there; so all places of a reading are places of the text.
-/
namespace TemplateMarkup

namespace Text

theorem bytes_eq_zero {t : Text} (empty : bytes t = 0) : t = [] := by
  cases t with
  | nil => rfl
  | cons c t =>
    have size := c.utf8Size_pos
    rw [bytes_cons] at empty
    omega

theorem newlines_append (s t : Text) : newlines (s ++ t) = newlines s + newlines t :=
  List.count_append

end Text

namespace Cursor

theorem skip_zero (c : Cursor) : c.skip 0 = c := by
  simp [skip, Text.newlines]

theorem skip_skip (c : Cursor) (m n : Nat) : (c.skip m).skip n = c.skip (m + n) := by
  simp only [skip, List.take_add, Text.bytes_append, Text.newlines_append, List.drop_drop,
    Nat.add_assoc]

def Reaches (c d : Cursor) : Prop := ∃ n, d = c.skip n

theorem reaches_refl (c : Cursor) : c.Reaches c := ⟨0, (skip_zero c).symm⟩

theorem reaches_skip (c : Cursor) (n : Nat) : c.Reaches (c.skip n) := ⟨n, rfl⟩

theorem reaches_trans {a b c : Cursor} (first : a.Reaches b) (second : b.Reaches c) :
    a.Reaches c := by
  obtain ⟨m, rfl⟩ := first
  obtain ⟨n, rfl⟩ := second
  exact ⟨m + n, skip_skip a m n⟩

theorem reaches_skipWhile (c : Cursor) (p : Char → Bool) : c.Reaches (c.skipWhile p) :=
  reaches_skip c _

theorem reaches_offset {c d : Cursor} (reaches : c.Reaches d) : c.offset ≤ d.offset := by
  obtain ⟨n, rfl⟩ := reaches
  exact Nat.le_add_right _ _

theorem reaches_line {c d : Cursor} (reaches : c.Reaches d) : c.line ≤ d.line := by
  obtain ⟨n, rfl⟩ := reaches
  exact Nat.le_add_right _ _

theorem skip_offset_lt {c : Cursor} {n : Nat} (some : n ≠ 0) (left : c.rest ≠ []) :
    c.offset < (c.skip n).offset := by
  obtain ⟨x, rest, list⟩ := List.exists_cons_of_ne_nil left
  obtain ⟨m, rfl⟩ := Nat.exists_eq_succ_of_ne_zero some
  have size := x.utf8Size_pos
  simp only [skip, list, List.take_succ_cons, Text.bytes_cons]
  omega

theorem skip_same_offset {c : Cursor} {n : Nat} (same : (c.skip n).offset = c.offset) :
    c.skip n = c := by
  have none : Text.bytes (c.rest.take n) = 0 := by
    simp only [skip] at same
    omega
  have empty := Text.bytes_eq_zero none
  have all : c.rest.drop n = c.rest := by
    have whole := List.take_append_drop n c.rest
    rw [empty, List.nil_append] at whole
    exact whole
  simp [skip, empty, all, Text.newlines]

theorem reaches_same_offset {c d : Cursor} (reaches : c.Reaches d) (same : d.offset = c.offset) :
    d = c := by
  obtain ⟨n, rfl⟩ := reaches
  exact skip_same_offset same

theorem reaches_total {a b c : Cursor} (first : a.Reaches b) (second : a.Reaches c) :
    b.Reaches c ∨ c.Reaches b := by
  obtain ⟨m, rfl⟩ := first
  obtain ⟨n, rfl⟩ := second
  rcases Nat.le_total m n with less | less
  · left
    exact ⟨n - m, by rw [skip_skip]; congr; omega⟩
  · right
    exact ⟨m - n, by rw [skip_skip]; congr; omega⟩

def In (t : Text) (c : Cursor) : Prop := (start t).Reaches c

theorem in_start (t : Text) : (start t).In t := reaches_refl _

theorem in_reaches {t : Text} {c d : Cursor} (inside : c.In t) (reaches : c.Reaches d) : d.In t :=
  reaches_trans inside reaches

theorem in_unique {t : Text} {c d : Cursor} (first : c.In t) (second : d.In t)
    (same : c.offset = d.offset) : c = d := by
  rcases reaches_total first second with forward | backward
  · exact (reaches_same_offset forward same.symm).symm
  · exact reaches_same_offset backward same

theorem in_line_le {t : Text} {c d : Cursor} (first : c.In t) (second : d.In t)
    (before : c.offset ≤ d.offset) : c.line ≤ d.line := by
  rcases reaches_total first second with forward | backward
  · exact reaches_line forward
  · have same := reaches_same_offset backward (Nat.le_antisymm before (reaches_offset backward))
    exact Nat.le_of_eq (congrArg line same)

theorem pastMark_of_ne {c : Cursor} (other : c.rest.head? ≠ some byteOrderMark) : c.pastMark = c :=
  if_neg fun mark => other mark.2

theorem pastMark_mark {c : Cursor} {r : Text} (start : c.offset = 0) (mark : c.rest = byteOrderMark :: r) :
    c.pastMark.rest = r := by
  rw [pastMark, if_pos ⟨start, by rw [mark]; rfl⟩, skip, mark]
  rfl

theorem reaches_pastMark (c : Cursor) : c.Reaches c.pastMark := by
  unfold pastMark
  split
  · exact reaches_skip c 1
  · exact reaches_refl c

/-- No mark starts the text once one has been passed. -/
theorem pastMark_reaches {c d : Cursor} (reaches : c.pastMark.Reaches d) : d.pastMark = d := by
  refine if_neg fun ⟨start, mark⟩ => ?_
  have same := reaches_same_offset reaches (by have := reaches_offset reaches; omega)
  rw [same] at start mark
  unfold pastMark at start mark
  split at start
  · rename_i first
    have some : c.rest ≠ [] := by
      intro none
      rw [none] at first
      cases first.2
    have further := skip_offset_lt Nat.one_ne_zero some
    omega
  · rename_i other
    rw [if_neg other] at mark
    exact other ⟨start, mark⟩

/-- A place of a text parts it into what comes before and what is still to be read. -/
theorem in_split {t : Text} {c : Cursor} (inside : c.In t) :
    ∃ lead, t = lead ++ c.rest ∧ c.offset = Text.bytes lead := by
  obtain ⟨n, rfl⟩ := inside
  exact ⟨t.take n, (List.take_append_drop n t).symm, by simp [skip, start]⟩

end Cursor

namespace Markup

open Cursor

def Quote.char : Quote → Char
  | single => '\x27'
  | double => '\x22'

/-- One quotation mark lies between the two places. -/
def Quote.Marks (q : Quote) (start stop : Cursor) : Prop :=
  start.rest.head? = some q.char ∧ stop = start.skip 1

namespace Terminal

def isName : Terminal → Bool
  | startName | scriptName | styleName | endName | strayEndName => true
  | _ => false

/-- All tokens but these have characters. -/
def isSolid : Terminal → Bool
  | endOfText | impliedEnd | rawText => false
  | _ => true

end Terminal

/-- Only ASCII characters lie between the two places, none of them a blank or a control character. -/
def Graphic (start stop : Cursor) : Prop :=
  ∃ n, stop = start.skip n ∧ ∀ c ∈ start.rest.take n, 32 < c.toNat ∧ c.toNat < 128

/-- The places are those of a token of the given sort. -/
structure Terminal.Fits (t : Terminal) (start stop : Cursor) : Prop where
  filled : t.isSolid → start.offset < stop.offset
  named : t.isName → Graphic start stop

theorem Terminal.fits_skip {t : Terminal} {c : Cursor} {n : Nat} (other : t.isName = false)
    (some : n ≠ 0) (left : c.rest ≠ []) : t.Fits c (c.skip n) :=
  ⟨fun _ => skip_offset_lt some left, fun named => by simp [other] at named⟩

theorem Terminal.fits_hollow {t : Terminal} {start stop : Cursor} (hollow : t.isSolid = false)
    (other : t.isName = false) : t.Fits start stop :=
  ⟨fun solid => by simp [hollow] at solid, fun named => by simp [other] at named⟩

namespace Scan

/-- The token lies after the place, fits in there and is no quotation mark. -/
structure Follows (c : Cursor) (s : Scan) : Prop where
  lead : c.Reaches s.start
  body : s.start.Reaches s.stop
  other : ∀ q : Quote, s.token ≠ q.mark
  fits : s.token.Fits s.start s.stop

theorem tagName_reaches (c : Cursor) : c.Reaches (tagName c).2 := reaches_skip c _

theorem isTagNameChar_graphic {c : Char} (name : isTagNameChar c) : 32 < c.toNat ∧ c.toNat < 128 := by
  delta isTagNameChar Char.isAlphanum Char.isAlpha Char.isUpper Char.isLower Char.isDigit at name
  simp only [Bool.or_eq_true, Bool.and_eq_true, decide_eq_true_eq, beq_iff_eq, ge_iff_le,
    UInt32.le_iff_toNat_le] at name
  rcases name with (((upper | lower) | digit) | rfl) | rfl
  · exact ⟨Nat.lt_of_lt_of_le (by decide) upper.1, Nat.lt_of_le_of_lt upper.2 (by decide)⟩
  · exact ⟨Nat.lt_of_lt_of_le (by decide) lower.1, Nat.lt_of_le_of_lt lower.2 (by decide)⟩
  · exact ⟨Nat.lt_of_lt_of_le (by decide) digit.1, Nat.lt_of_le_of_lt digit.2 (by decide)⟩
  · decide
  · decide

theorem tagName_fits (t : Terminal) {c : Cursor} (found : (tagName c).1.isEmpty = false) :
    t.Fits c (tagName c).2 := by
  have filled : c.rest.takeWhile isTagNameChar ≠ [] := by
    intro empty
    simp [tagName, empty] at found
  have left : c.rest ≠ [] := by
    intro empty
    simp [empty] at filled
  refine ⟨fun _ => skip_offset_lt (by simpa using filled) left, fun _ => ⟨_, rfl, ?_⟩⟩
  intro x member
  rw [← List.prefix_iff_eq_take.mp (List.takeWhile_prefix isTagNameChar)] at member
  exact isTagNameChar_graphic (List.all_eq_true.mp List.all_takeWhile x member)

theorem rawText_follows {tags : List Tag} {c : Cursor} {s : Scan}
    (found : rawText tags c = some s) : s.Follows c := by
  unfold rawText at found
  split at found
  · simp at found
  · obtain rfl := Option.some.inj found
    exact ⟨reaches_refl c, reaches_skip c _, fun q => by cases q <;> simp [Quote.mark],
      Terminal.fits_hollow rfl rfl⟩

theorem comment_follows {tags : List Tag} {c : Cursor} {s : Scan}
    (found : comment tags c = some s) : s.Follows c := by
  unfold comment at found
  split at found
  · rename_i left
    obtain ⟨n, _, rfl⟩ := Option.map_eq_some_iff.mp found
    exact ⟨reaches_refl c, reaches_skip c _, fun q => by cases q <;> simp [Quote.mark],
      Terminal.fits_skip rfl (by omega) (by simp [left])⟩
  · simp at found

theorem impliedEnd_eq {tags : List Tag} {c next : Cursor} {s : Scan}
    (found : impliedEnd tags c next = some s) : s = ⟨.impliedEnd, c, c, tags.tail⟩ := by
  unfold impliedEnd at found
  grind

theorem impliedEnd_follows {tags : List Tag} {c next : Cursor} {s : Scan}
    (found : impliedEnd tags c next = some s) : s.Follows c := by
  obtain rfl := impliedEnd_eq found
  exact ⟨reaches_refl c, reaches_refl c, fun q => by cases q <;> simp [Quote.mark],
    Terminal.fits_hollow rfl rfl⟩

theorem selfClose_follows {tags : List Tag} {c : Cursor} {s : Scan}
    (found : selfClose tags c = some s) : s.Follows c := by
  unfold selfClose at found
  split at found
  · rename_i rest left
    have filled : c.offset < (c.skip 2).offset := skip_offset_lt (by decide) (by simp [left])
    split at found
    all_goals
      obtain rfl := Option.some.inj found
      refine ⟨reaches_refl c, reaches_skip c _, fun q => by cases q <;> simp [Quote.mark],
        fun _ => filled, fun _ => ⟨2, rfl, ?_⟩⟩
      rw [left]
      simp
  · simp at found

theorem startName_follows {tags : List Tag} {c : Cursor} {s : Scan}
    (found : startName tags c = some s) : s.Follows c := by
  unfold startName at found
  dsimp only at found
  split at found
  · simp at found
  · rename_i named
    obtain rfl := Option.some.inj found
    refine ⟨reaches_refl c, tagName_reaches c, ?_, tagName_fits _ (by simpa using named)⟩
    intro q
    dsimp only
    split
    · cases q <;> simp [Quote.mark]
    · split
      all_goals cases q <;> simp [Quote.mark]

theorem endName_follows {tags : List Tag} {c : Cursor} {s : Scan}
    (found : endName tags c = some s) : s.Follows c := by
  unfold endName at found
  dsimp only at found
  split at found
  · simp at found
  · rename_i named
    split at found
    all_goals
      obtain rfl := Option.some.inj found
      exact ⟨reaches_refl c, tagName_reaches c, fun q => by cases q <;> simp [Quote.mark],
        tagName_fits _ (by simpa using named)⟩

theorem read_follows {e : Expectation} {tags : List Tag} {c : Cursor} {s : Scan}
    (found : read e tags c = some s) : s.Follows c := by
  unfold read at found
  split at found
  · exact rawText_follows found
  · dsimp only at found
    have here : s.Follows (c.skipWhile isMarkupBlank) := by
      split at found
      · split at found
        · exact comment_follows found
        · split at found
          · exact impliedEnd_follows found
          · simp at found
      · split at found
        · exact impliedEnd_follows found
        · simp at found
      · split at found
        · exact selfClose_follows found
        · simp at found
      · split at found
        · exact startName_follows found
        · exact endName_follows found
        · simp at found
    exact ⟨reaches_trans (reaches_skipWhile c _) here.lead, here.body, here.other, here.fits⟩

end Scan

namespace Lexeme

theorem run_token {token found : Terminal} {p : Char → Bool} {t : Text} {n : Nat}
    (read : run token p t = .found found n) : found = token := by
  unfold run at read
  split at read
  · cases read
  · cases read
    rfl

theorem text_token {found : Terminal} {t : Text} {n : Nat} (read : text t = .found found n) :
    found = .text := by
  unfold text at read
  split at read
  · cases read
  · cases read
    rfl

theorem entity_token {found : Terminal} {t : Text} {n : Nat} (read : entity t = .found found n) :
    found = .entity := by
  unfold entity at read
  split at read
  all_goals
    unfold closeEntity at read
    grind

theorem angle_token {found : Terminal} {t : Text} {n : Nat} (read : angle t = .found found n) :
    found = .declarationOpen ∨ found = .endOpen ∨ found = .tagOpen := by
  unfold angle at read
  grind

theorem selfClose_token {found : Terminal} {t : Text} {n : Nat}
    (read : selfClose t = .found found n) : found = .selfClose := by
  unfold selfClose at read
  grind

theorem doctypeWord_token {found : Terminal} {t : Text} {n : Nat}
    (read : doctypeWord t = .found found n) : found = .doctypeWord := by
  unfold doctypeWord at read
  dsimp only at read
  split at read
  · cases read
    rfl
  · cases read

section Filled

variable {token found : Terminal} {p : Char → Bool} {t : Text} {n : Nat}

theorem run_filled (read : run token p t = .found found n) : n ≠ 0 ∧ t ≠ [] := by
  unfold run at read
  split at read
  · cases read
  · rename_i size
    cases read
    refine ⟨by omega, ?_⟩
    rintro rfl
    simp at size

theorem text_filled (read : text t = .found found n) :
    found.isName = false ∧ (found.isSolid → n ≠ 0 ∧ t ≠ []) := by
  unfold text at read
  split at read
  · cases read
  · rename_i size
    cases read
    refine ⟨rfl, fun _ => ⟨by omega, ?_⟩⟩
    rintro rfl
    simp at size

theorem entity_filled {c : Char} (read : entity t = .found found n) :
    found.isName = false ∧ (found.isSolid → n ≠ 0 ∧ c :: t ≠ []) := by
  refine ⟨entity_token read ▸ rfl, fun _ => ⟨?_, by simp⟩⟩
  unfold entity at read
  split at read
  all_goals
    unfold closeEntity at read
    grind

theorem angle_filled {c : Char} (read : angle t = .found found n) :
    found.isName = false ∧ (found.isSolid → n ≠ 0 ∧ c :: t ≠ []) := by
  unfold angle at read
  split at read
  all_goals cases read; simp [Terminal.isName]

theorem selfClose_filled {c : Char} (read : selfClose t = .found found n) :
    found.isName = false ∧ (found.isSolid → n ≠ 0 ∧ c :: t ≠ []) := by
  unfold selfClose at read
  split at read
  all_goals cases read
  simp [Terminal.isName]

theorem doctypeWord_filled (read : doctypeWord t = .found found n) :
    found.isName = false ∧ (found.isSolid → n ≠ 0 ∧ t ≠ []) := by
  unfold doctypeWord at read
  dsimp only at read
  split at read
  · rename_i shared
    cases read
    refine ⟨rfl, fun _ => ⟨by omega, ?_⟩⟩
    rintro rfl
    simp [sharedLead] at shared
  · cases read

end Filled

end Lexeme

namespace Mode

/-- A quotation mark is found only where one stands. -/
theorem lexeme_mark {m : Mode} {t : Text} {q : Quote} {n : Nat}
    (read : m.lexeme t = .found q.mark n) : t.head? = some q.char ∧ n = 1 := by
  have other : ∀ {found : Terminal} {p : Char → Bool} {s : Text},
      Lexeme.run found p s = .found q.mark n → found = q.mark := by
    intro found p s same
    exact (Lexeme.run_token same).symm
  cases m <;> simp only [lexeme] at read
  case recovery =>
    unfold Lexeme.recovery at read
    split at read
    case h_2 =>
      have token := Lexeme.angle_token read
      cases q <;> simp [Quote.mark] at token
    case h_4 =>
      have token := Lexeme.selfClose_token read
      cases q <;> simp [Quote.mark] at token
    case h_6 =>
      have token := Lexeme.entity_token read
      cases q <;> simp [Quote.mark] at token
    case h_9 =>
      have token := Lexeme.doctypeWord_token read
      cases q <;> simp [Quote.mark] at token
    all_goals cases q <;> simp_all [Quote.mark, Quote.char]
  case nodes =>
    unfold Lexeme.nodes at read
    split at read
    case h_2 =>
      have token := Lexeme.angle_token read
      cases q <;> simp [Quote.mark] at token
    case h_3 =>
      have token := Lexeme.entity_token read
      cases q <;> simp [Quote.mark] at token
    case h_4 =>
      have token := Lexeme.text_token read
      cases q <;> simp [Quote.mark] at token
    all_goals cases q <;> simp_all [Quote.mark]
  case tag =>
    unfold Lexeme.tag at read
    split at read
    case h_2 =>
      have token := Lexeme.selfClose_token read
      cases q <;> simp [Quote.mark] at token
    case h_6 =>
      have token := other read
      cases q <;> simp [Quote.mark] at token
    all_goals cases q <;> simp_all [Quote.mark]
  case value =>
    unfold Lexeme.value at read
    split at read
    case h_3 =>
      have token := other read
      cases q <;> simp [Quote.mark] at token
    all_goals cases q <;> simp_all [Quote.mark, Quote.char]
  case quoted r =>
    unfold Lexeme.quoted at read
    split at read
    case h_2 | h_4 =>
      have token := other read
      cases q <;> simp [Quote.mark] at token
    all_goals cases q <;> simp_all [Quote.mark, Quote.char]
  case declaration =>
    have token := other read
    cases q <;> simp [Quote.mark] at token

/-- A token that characters decide has characters, unless the text has ended, and is no name of a tag. -/
theorem lexeme_filled {m : Mode} {t : Text} {found : Terminal} {n : Nat}
    (read : m.lexeme t = .found found n) :
    found.isName = false ∧ (found.isSolid → n ≠ 0 ∧ t ≠ []) := by
  have run : ∀ {token : Terminal} {p : Char → Bool} {s : Text}, token.isName = false →
      Lexeme.run token p s = .found found n →
      found.isName = false ∧ (found.isSolid → n ≠ 0 ∧ s ≠ []) := by
    intro token p s other same
    exact ⟨Lexeme.run_token same ▸ other, fun _ => Lexeme.run_filled same⟩
  cases m <;> simp only [lexeme] at read
  case recovery =>
    unfold Lexeme.recovery at read
    split at read
    case h_2 => exact Lexeme.angle_filled read
    case h_4 => exact Lexeme.selfClose_filled read
    case h_6 => exact Lexeme.entity_filled read
    case h_9 => exact Lexeme.doctypeWord_filled read
    all_goals cases read; simp [Terminal.isName, Terminal.isSolid]
  case nodes =>
    unfold Lexeme.nodes at read
    split at read
    case h_2 => exact Lexeme.angle_filled read
    case h_3 => exact Lexeme.entity_filled read
    case h_4 => exact Lexeme.text_filled read
    all_goals cases read; simp [Terminal.isName, Terminal.isSolid]
  case tag =>
    unfold Lexeme.tag at read
    split at read
    case h_2 => exact Lexeme.selfClose_filled read
    case h_5 => cases read
    case h_6 => exact run rfl read
    all_goals cases read; simp [Terminal.isName]
  case value =>
    unfold Lexeme.value at read
    split at read
    case h_3 => exact run rfl read
    all_goals cases read; simp [Terminal.isName]
  case quoted r =>
    unfold Lexeme.quoted at read
    split at read
    case h_2 | h_4 => exact run rfl read
    all_goals cases read; simp [Terminal.isName]
  case declaration => exact run rfl read

theorem start_reaches (m : Mode) (c : Cursor) :
    c.Reaches (if m.skipsBlanks then c.skipWhile isMarkupBlank else c) := by
  split
  · exact reaches_skipWhile c _
  · exact reaches_refl c

theorem read_found_reaches {m : Mode} {c start stop : Cursor} {t : Terminal}
    (found : m.read c = .found t start stop) : c.Reaches start ∧ start.Reaches stop := by
  unfold read at found
  dsimp only at found
  split at found
  · cases found
    exact ⟨start_reaches m c, reaches_skip _ _⟩
  · cases found

theorem read_found_mark {m : Mode} {c start stop : Cursor} {q : Quote}
    (found : m.read c = .found q.mark start stop) : q.Marks start stop := by
  unfold read at found
  dsimp only at found
  split at found
  · rename_i token n lexeme
    cases found
    obtain ⟨head, rfl⟩ := lexeme_mark lexeme
    exact ⟨head, rfl⟩
  · cases found

theorem read_found_fits {m : Mode} {c start stop : Cursor} {t : Terminal}
    (found : m.read c = .found t start stop) : t.Fits start stop := by
  unfold read at found
  dsimp only at found
  split at found
  · rename_i token n lexeme
    cases found
    obtain ⟨other, filled⟩ := lexeme_filled lexeme
    refine ⟨fun solid => ?_, fun named => by simp [other] at named⟩
    exact skip_offset_lt (filled solid).1 (filled solid).2
  · cases found

theorem read_stuck_reaches {m : Mode} {c start reached : Cursor}
    (stuck : m.read c = .stuck start reached) : c.Reaches start ∧ start.Reaches reached := by
  unfold read at stuck
  dsimp only at stuck
  split at stuck
  · cases stuck
  · cases stuck
    exact ⟨start_reaches m c, reaches_skip _ _⟩

end Mode

namespace Token

/-- The token lies after the place and fits in there, and is a quotation mark only if one stands there. -/
structure Follows (c : Cursor) (token : Token) : Prop where
  lead : c.Reaches token.start
  body : token.start.Reaches token.stop
  mark : ∀ q : Quote, token.terminal = some q.mark → q.Marks token.start token.stop
  fits : ∀ t, token.terminal = some t → t.Fits token.start token.stop

theorem Follows.of_reaches {c d : Cursor} {token : Token} (reaches : c.Reaches d)
    (follows : token.Follows d) : token.Follows c :=
  ⟨reaches_trans reaches follows.lead, follows.body, follows.mark, follows.fits⟩

theorem read?_follows {e : Expectation} {m : Mode} {idle : Terminal → Bool}
    {tags : Option (List Tag)} {c : Cursor} {token : Token}
    (found : read? e m idle tags c = .inl token) : token.Follows c := by
  unfold read? at found
  dsimp only at found
  split at found
  · rename_i scanned
    obtain ⟨s, scan, rest⟩ := Option.bind_eq_some_iff.mp scanned
    cases found
    split at rest
    · simp at rest
    · obtain rfl := Option.some.inj rest
      have follows := Scan.read_follows scan
      refine ⟨follows.lead, follows.body, ?_, ?_⟩
      · intro q same
        exact absurd (Option.some.inj same) (follows.other q)
      · intro t same
        exact Option.some.inj same ▸ follows.fits
  · split at found
    · rename_i read
      cases found
      obtain ⟨lead, body⟩ := Mode.read_found_reaches read
      refine ⟨lead, body, ?_, ?_⟩
      · intro q same
        obtain rfl := Option.some.inj same
        exact Mode.read_found_mark read
      · intro t same
        obtain rfl := Option.some.inj same
        exact Mode.read_found_fits read
    · cases found

theorem read?_stuck {e : Expectation} {m : Mode} {idle : Terminal → Bool}
    {tags : Option (List Tag)} {c start reached : Cursor}
    (stuck : read? e m idle tags c = .inr (start, reached)) :
    c.Reaches start ∧ start.Reaches reached := by
  unfold read? at stuck
  dsimp only at stuck
  split at stuck
  · cases stuck
  · split at stuck
    · cases stuck
    · rename_i read
      cases stuck
      exact Mode.read_stuck_reaches read

theorem unreadable_follows {place start stop : Cursor} (lead : place.Reaches start)
    (body : start.Reaches stop) : (unreadable start stop).Follows place :=
  ⟨lead, body, fun _ absent => by simp [unreadable] at absent,
    fun _ absent => by simp [unreadable] at absent⟩

theorem skipUnreadable_follows (tags : Option (List Tag)) {place start : Cursor} (fuel : Nat)
    {c : Cursor} (before : place.Reaches start) (reaches : start.Reaches c) :
    (skipUnreadable tags start fuel c).Follows place := by
  induction fuel generalizing c with
  | zero => exact unreadable_follows before reaches
  | succ fuel ih =>
    unfold skipUnreadable
    split
    · exact unreadable_follows before reaches
    · rename_i other reached stuck
      obtain ⟨first, second⟩ := read?_stuck stuck
      have further := reaches_trans reaches (reaches_trans first second)
      split
      · split
        · exact unreadable_follows before reaches
        · exact ih (reaches_trans further (reaches_skip _ 1))
      · exact ih further

theorem recover_follows (tags : Option (List Tag)) (c : Cursor) : (recover tags c).Follows c := by
  unfold recover
  split
  · rename_i token found
    exact read?_follows found
  · rename_i start reached stuck
    obtain ⟨first, second⟩ := read?_stuck stuck
    dsimp only
    apply skipUnreadable_follows tags _ first
    split
    · exact reaches_trans second (reaches_skip _ 1)
    · exact second

theorem read_follows (s : State) (moved : Bool) (tags : Option (List Tag)) (c : Cursor) :
    (read s moved tags c).Follows c := by
  unfold read
  split
  · exact recover_follows tags c
  · dsimp only
    split
    · rename_i token found
      exact read?_follows found
    · exact recover_follows tags c

end Token

end Markup

end TemplateMarkup
