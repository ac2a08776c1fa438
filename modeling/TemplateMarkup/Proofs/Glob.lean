import TemplateMarkup.Glob.Basic
import TemplateMarkup.Proofs.Bytes
import TemplateMarkup.Proofs.Paths
import TemplateMarkup.Proofs.Pattern

/-!
What globs say about the names in a path. A glob is matched against the bytes of a path, and its stars run
over slashes; still, globs that start with the token for leading directories look at whole names, because
that token leads just to the starts of names.
-/
namespace TemplateMarkup

namespace Glob

open TemplateMarkup.Path

def bytesOf (c : Char) : Text := (Text.encodeChar c).map Char.ofNat

theorem byteText_cons (c : Char) (t : Text) : byteText (c :: t) = bytesOf c ++ byteText t := by
  simp [byteText, bytesOf, Text.encode]

theorem bytesOf_ascii {c : Char} (ascii : c.toNat < 0x80) : bytesOf c = [c] := by
  simp [bytesOf, Text.encodeChar_ascii ascii]

theorem bytesOf_wide {c : Char} (wide : 0x80 ≤ c.toNat) :
    ∃ b bs, bytesOf c = b :: bs ∧ ∀ d ∈ bytesOf c, 0x80 ≤ d.toNat := by
  obtain ⟨given, bounds⟩ := Text.encodeChar_wide wide
  obtain ⟨b, bs, whole⟩ := List.exists_cons_of_ne_nil given
  refine ⟨Char.ofNat b, bs.map Char.ofNat, by rw [bytesOf, whole, List.map_cons], fun d member => ?_⟩
  obtain ⟨n, listed, rfl⟩ := List.mem_map.mp member
  have bound := bounds n listed
  have valid : n.isValidChar := Or.inl (by omega)
  have same : (Char.ofNat n).toNat = n := by
    rw [Char.ofNat, dif_pos valid]
    rfl
  rw [same]
  exact bound.1

/-- The first byte tells whether a text starts with a certain character of ASCII. -/
theorem byteText_eq_cons_iff {t u : Text} {c : Char} (ascii : c.toNat < 0x80) :
    byteText t = c :: u ↔ ∃ rest, t = c :: rest ∧ byteText rest = u := by
  cases t with
  | nil => simp [byteText, Text.encode]
  | cons d t =>
    rw [byteText_cons]
    rcases Nat.lt_or_ge d.toNat 0x80 with narrow | wide
    · rw [bytesOf_ascii narrow, List.singleton_append, List.cons.injEq]
      constructor
      · rintro ⟨rfl, same⟩
        exact ⟨t, rfl, same⟩
      · rintro ⟨rest, whole, same⟩
        obtain ⟨rfl, rfl⟩ := List.cons.inj whole
        exact ⟨rfl, same⟩
    · obtain ⟨b, bs, whole, bounds⟩ := bytesOf_wide wide
      have first := bounds b (whole ▸ List.mem_cons_self ..)
      rw [whole]
      constructor
      · intro same
        obtain ⟨rfl, -⟩ := List.cons.inj same
        omega
      · rintro ⟨rest, same, -⟩
        obtain ⟨rfl, -⟩ := List.cons.inj same
        omega

theorem byteText_eq_iff {t name : Text} (ascii : ∀ c ∈ name, c.toNat < 0x80) :
    byteText t = name ↔ t = name := by
  induction name generalizing t with
  | nil =>
    cases t with
    | nil => simp [byteText, Text.encode]
    | cons d t =>
      rw [byteText_cons]
      rcases Nat.lt_or_ge d.toNat 0x80 with narrow | wide
      · simp [bytesOf_ascii narrow]
      · obtain ⟨b, bs, whole, -⟩ := bytesOf_wide wide
        simp [whole]
  | cons c name ih =>
    rw [byteText_eq_cons_iff (ascii c (List.mem_cons_self ..))]
    have later : ∀ {rest}, byteText rest = name ↔ rest = name :=
      ih fun d member => ascii d (List.mem_cons_of_mem _ member)
    constructor
    · rintro ⟨rest, rfl, same⟩
      rw [later.mp same]
    · rintro rfl
      exact ⟨name, rfl, later.mpr rfl⟩

theorem slash_not_in_bytesOf {c : Char} (other : c ≠ '/') : '/' ∉ bytesOf c := by
  rcases Nat.lt_or_ge c.toNat 0x80 with narrow | wide
  · simpa [bytesOf_ascii narrow] using Ne.symm other
  · obtain ⟨-, -, -, bounds⟩ := bytesOf_wide wide
    intro member
    exact absurd (bounds '/' member) (by decide)

/-- Slashes are bytes of slashes only. -/
theorem pieces_byteText (p : Text) : pieces (byteText p) = (pieces p).map byteText := by
  induction p with
  | nil => rfl
  | cons c p ih =>
    obtain ⟨first, rest, whole⟩ := exists_pieces_cons p
    rw [whole, List.map_cons] at ih
    rw [byteText_cons, pieces, whole]
    dsimp only
    split
    · rename_i slash
      rw [slash, show bytesOf '/' = ['/'] from rfl, List.singleton_append, pieces, ih]
      rfl
    · rename_i other
      rw [pieces_plain_append (slash_not_in_bytesOf other) ih, List.map_cons, byteText_cons]

variable {t : Text} {i j k : Nat}

theorem spans_byte {c : Char} : (byte c.toNat).Spans t i j ↔ j = i + 1 ∧ t[i]? = some c := by
  rw [byte, Pattern.Spans]
  refine and_congr_right fun _ => ?_
  constructor
  · rintro ⟨d, here, inside⟩
    have same : d.toNat = c.toNat := by
      simp only [CharSet.contains, inRanges, List.any_cons, List.any_nil, Bool.or_false,
        Bool.and_eq_true, decide_eq_true_eq] at inside
      omega
    rw [here, Char.toNat_inj.mp same]
  · intro here
    exact ⟨c, here, by simp [CharSet.contains, inRanges]⟩

theorem spans_slash : slash.Spans t i j ↔ j = i + 1 ∧ t[i]? = some '/' := @spans_byte t i j '/'

theorem spans_anything : anything.Spans t i j ↔ i ≤ j ∧ (i = j ∨ j ≤ t.length) := by
  refine ⟨Pattern.Spans.forward, ?_⟩
  rintro ⟨ahead, inside⟩
  obtain ⟨n, rfl⟩ := Nat.exists_eq_add_of_le ahead
  refine ⟨n, Nat.zero_le _, by simp, ?_⟩
  clear ahead
  induction n generalizing i with
  | zero => rfl
  | succ n ih =>
    have within : i < t.length := by omega
    refine ⟨i + 1, ⟨rfl, t[i], List.getElem?_eq_getElem within, rfl⟩, ?_⟩
    have rest := @ih (i + 1) (by omega)
    rwa [Nat.add_assoc, Nat.add_comm 1 n] at rest

def SpansPart (t : Text) : Option Pattern → Nat → Nat → Prop
  | some p, i, j => p.Spans t i j
  | none, i, j => i = j

theorem spansPart_andThen {a b : Option Pattern} :
    SpansPart t (andThen a b) i k ↔ ∃ j, SpansPart t a i j ∧ SpansPart t b j k := by
  cases a <;> cases b <;> simp [andThen, SpansPart, Pattern.Spans]

/-- The tokens match the bytes between two places. -/
def SpansTokens (t : Text) (tokens : List Token) (i j : Nat) : Prop :=
  SpansPart t (tokensPattern? tokens) i j

@[simp] theorem spansTokens_nil : SpansTokens t [] i j ↔ i = j := Iff.rfl

theorem spansTokens_cons {token : Token} {tokens : List Token} :
    SpansTokens t (token :: tokens) i k ↔
      ∃ j, SpansPart t token.pattern? i j ∧ SpansTokens t tokens j k :=
  spansPart_andThen

theorem isMatch_iff {g : Glob} {path : Text} (narrow : g.isAll = false) (named : g.endsName = false) :
    g.isMatch path = true ↔ SpansTokens (byteText path) g.tokens 0 (byteText path).length := by
  rw [isMatch, narrow, named, SpansTokens]
  simp only [Bool.false_eq_true, if_false, Bool.and_false]
  cases tokensPattern? g.tokens with
  | none => exact List.isEmpty_iff_length_eq_zero.trans eq_comm
  | some p => simp [SpansPart, Pattern.mem_ends]

theorem spans_leadingDirs : SpansPart t Token.leadingDirs.pattern? 0 j ↔
    ∃ before after, t = before ++ after ∧ before.length = j ∧ PieceStart before := by
  have behind : ∀ k, t[k]? = some '/' →
      ∃ before after, t = before ++ after ∧ before.length = k + 1 ∧ PieceStart before := by
    intro k here
    obtain ⟨within, slash⟩ := List.getElem?_eq_some_iff.mp here
    refine ⟨t.take (k + 1), t.drop (k + 1), (List.take_append_drop ..).symm, ?_, Or.inr ⟨t.take k, ?_⟩⟩
    · rw [List.length_take, Nat.min_eq_left within]
    · rw [List.take_add_one, here]
      rfl
  constructor
  · rintro (⟨n, -, few, times⟩ | ⟨k, -, spans⟩)
    · -- nothing, or the slash of an absolute path
      have few : n ≤ 1 := few 1 rfl
      cases n with
      | zero => exact ⟨[], t, rfl, times, Or.inl rfl⟩
      | succ n =>
        obtain rfl : n = 0 := by omega
        obtain ⟨k, spans, rfl⟩ := times
        obtain ⟨rfl, here⟩ := spans_slash.mp spans
        exact behind 0 here
    · obtain ⟨rfl, here⟩ := spans_slash.mp spans
      exact behind k here
  · rintro ⟨before, after, rfl, rfl, rfl | ⟨b, rfl⟩⟩
    · exact Or.inl ⟨0, Nat.zero_le _, by simp, rfl⟩
    · refine Or.inr ⟨b.length, spans_anything.mpr ⟨Nat.zero_le _, Or.inr ?_⟩, spans_slash.mpr ?_⟩
      · simp
      · simp

theorem spans_name {before rest name : Text} {tokens : List Token} (ascii : ∀ c ∈ name, c.toNat < 0x80) :
    SpansTokens (before ++ rest) (name.map .char ++ tokens) before.length k ↔
      ∃ after, rest = name ++ after ∧
        SpansTokens (before ++ rest) tokens (before.length + name.length) k := by
  induction name generalizing before rest with
  | nil => simp
  | cons c name ih =>
    have narrow := ascii c (List.mem_cons_self ..)
    have one : (Token.char c).pattern? = some (byte c.toNat) := by
      rw [Token.pattern?, Text.encodeChar_ascii narrow]
      rfl
    have later : ∀ rest, SpansTokens (before ++ c :: rest) (name.map .char ++ tokens)
        (before.length + 1) k ↔ ∃ after, rest = name ++ after ∧
          SpansTokens (before ++ c :: rest) tokens (before.length + (name.length + 1)) k := by
      intro rest
      have further := @ih (before ++ [c]) rest fun d member => ascii d (List.mem_cons_of_mem _ member)
      rw [List.append_assoc, List.length_append, List.singleton_append, List.length_singleton,
        Nat.add_assoc, Nat.add_comm 1] at further
      exact further
    rw [List.map_cons, List.cons_append, spansTokens_cons, one, List.length_cons]
    constructor
    · rintro ⟨j, first, spans⟩
      obtain ⟨rfl, here⟩ := spans_byte.mp first
      rw [List.getElem?_append_right (Nat.le_refl _), Nat.sub_self] at here
      cases rest with
      | nil => cases here
      | cons d rest =>
        obtain rfl : d = c := Option.some.inj here
        obtain ⟨after, rfl, spans⟩ := (later _).mp spans
        exact ⟨after, rfl, spans⟩
    · rintro ⟨after, rfl, spans⟩
      refine ⟨before.length + 1, spans_byte.mpr ⟨rfl, ?_⟩, (later _).mpr ⟨after, rfl, spans⟩⟩
      simp

theorem spans_inside {before rest : Text} :
    SpansTokens (before ++ rest) [.inside] before.length (before ++ rest).length ↔
      ∃ after, rest = '/' :: after := by
  constructor
  · rintro ⟨j, spans, -⟩
    obtain ⟨-, here⟩ := spans_slash.mp spans
    rw [List.getElem?_append_right (Nat.le_refl _), Nat.sub_self] at here
    obtain ⟨after, rfl⟩ := List.head?_eq_some_iff.mp (List.head?_eq_getElem? ▸ here)
    exact ⟨after, rfl⟩
  · rintro ⟨after, rfl⟩
    refine ⟨before.length + 1, spans_slash.mpr ⟨rfl, by simp⟩, spans_anything.mpr ⟨?_, Or.inr ?_⟩⟩
    · simp
    · exact Nat.le_refl _

theorem spans_star (before rest : Text) :
    SpansTokens (before ++ rest) [.star] before.length (before ++ rest).length :=
  spans_anything.mpr ⟨by simp, Or.inr (Nat.le_refl _)⟩

def below (name : Text) (tokens : List Token) : Glob := ⟨.leadingDirs :: (name.map .char ++ tokens)⟩

section Below

variable {name path : Text} {tokens : List Token} (given : name ≠ [])
  (ascii : ∀ c ∈ name, c.toNat < 0x80)
include given ascii

theorem below_isMatch_iff (named : (below name tokens).endsName = false) :
    (below name tokens).isMatch path = true ↔
      ∃ before after, byteText path = before ++ name ++ after ∧ PieceStart before ∧
        SpansTokens (byteText path) tokens (before ++ name).length (byteText path).length := by
  have narrow : (below name tokens).isAll = false := by
    obtain ⟨c, rest, rfl⟩ := List.exists_cons_of_ne_nil given
    rfl
  rw [isMatch_iff narrow named, below, spansTokens_cons]
  constructor
  · rintro ⟨j, dirs, spans⟩
    obtain ⟨before, rest, whole, rfl, start⟩ := spans_leadingDirs.mp dirs
    rw [whole] at spans ⊢
    obtain ⟨after, rfl, spans⟩ := (spans_name ascii).mp spans
    refine ⟨before, after, (List.append_assoc ..).symm, start, ?_⟩
    rwa [List.length_append]
  · rintro ⟨before, after, whole, start, spans⟩
    rw [List.append_assoc] at whole
    refine ⟨before.length, spans_leadingDirs.mpr ⟨before, _, whole, rfl, start⟩, ?_⟩
    rw [whole] at spans ⊢
    rw [List.length_append] at spans
    exact (spans_name ascii).mpr ⟨after, rfl, spans⟩

theorem below_name_iff (plain : '/' ∉ name) (named : (below name []).endsName = false) :
    ((below name []).isMatch path || (below name [.inside]).isMatch path) = true ↔
      name ∈ pieces path := by
  have bytes : name ∈ pieces path ↔ name ∈ pieces (byteText path) := by
    rw [pieces_byteText, List.mem_map]
    constructor
    · exact fun member => ⟨name, member, (byteText_eq_iff ascii).mpr rfl⟩
    · rintro ⟨piece, member, same⟩
      exact (byteText_eq_iff ascii).mp same ▸ member
  have inside : (below name [.inside]).endsName = false := by
    have last : (below name [.inside]).tokens.getLast? = some .inside := by
      rw [below, ← List.cons_append, List.getLast?_concat]
    simp [endsName, last, Token.char?]
  rw [Bool.or_eq_true, below_isMatch_iff given ascii named, below_isMatch_iff given ascii inside, bytes,
    mem_pieces_iff]
  constructor
  · rintro (⟨before, after, whole, start, spans⟩ | ⟨before, after, whole, start, spans⟩)
    · rw [whole, spansTokens_nil, @List.length_append _ _ after] at spans
      exact ⟨plain, before, after, whole, start, Or.inl (List.length_eq_zero_iff.mp (by omega))⟩
    · rw [whole] at spans
      exact ⟨plain, before, after, whole, start, Or.inr (spans_inside.mp spans)⟩
  · rintro ⟨-, before, after, whole, start, rfl | slash⟩
    · refine Or.inl ⟨before, [], whole, start, ?_⟩
      rw [whole, spansTokens_nil, List.append_nil]
    · refine Or.inr ⟨before, after, whole, start, ?_⟩
      rw [whole]
      exact spans_inside.mpr slash

end Below

theorem dot_ascii : ∀ c ∈ ['.'], c.toNat < 0x80 := List.forall_mem_singleton.mpr (by decide)

theorem below_dot_iff {path : Text} :
    (below ['.'] [.star]).isMatch path = true ↔ ∃ piece ∈ pieces path, piece.head? = some '.' := by
  rw [below_isMatch_iff (by simp) dot_ascii rfl]
  constructor
  · rintro ⟨before, after, whole, start, -⟩
    obtain ⟨earlier, split⟩ := exists_pieces_before start ('.' :: after)
    obtain ⟨first, later, begins⟩ := exists_pieces_cons after
    have member : '.' :: first ∈ pieces (byteText path) := by
      rw [whole, List.append_assoc, List.singleton_append, split, pieces, begins]
      simp
    rw [pieces_byteText] at member
    obtain ⟨piece, listed, same⟩ := List.mem_map.mp member
    obtain ⟨rest, rfl, -⟩ := (byteText_eq_cons_iff (by decide)).mp same
    exact ⟨_, listed, rfl⟩
  · rintro ⟨piece, listed, dotted⟩
    obtain ⟨rest, rfl⟩ := List.head?_eq_some_iff.mp dotted
    have member : byteText ('.' :: rest) ∈ pieces (byteText path) := by
      rw [pieces_byteText]
      exact List.mem_map_of_mem listed
    obtain ⟨-, before, after, whole, start, -⟩ := mem_pieces_iff.mp member
    rw [byteText_cons, bytesOf_ascii (by decide), ← List.append_assoc, List.append_assoc] at whole
    rw [whole]
    exact ⟨before, byteText rest ++ after, rfl, start, spans_star ..⟩

theorem below_dot_inside {path : Text} (hit : (below ['.'] [.star, .inside]).isMatch path = true) :
    (below ['.'] [.star]).isMatch path = true := by
  rw [below_isMatch_iff (by simp) dot_ascii rfl] at hit ⊢
  obtain ⟨before, after, whole, start, -⟩ := hit
  rw [whole]
  exact ⟨before, after, rfl, start, spans_star ..⟩

end Glob

end TemplateMarkup
