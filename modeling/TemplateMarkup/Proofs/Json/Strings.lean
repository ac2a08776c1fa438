import TemplateMarkup.Json.Source

/-!
How JSON writes strings. A character stands for itself, or is escaped by a letter, by its number or by the
two halves of a surrogate pair. Whichever way its characters are written, the string is read back.
-/
namespace TemplateMarkup.Json

/-- The hexadecimal digits, small and capital, with their values. -/
def hexDigits : List (Char × Nat) := "0123456789abcdef".toList.zipIdx ++ "0123456789ABCDEF".toList.zipIdx

/-- The letters that stand for a character after a backslash. -/
def shortEscapes : List (Char × Char) :=
  [('\x22', '\x22'), ('\\', '\\'), ('/', '/'), ('b', '\x08'), ('f', '\x0c'), ('n', '\n'), ('r', '\r'),
    ('t', '\t')]

/-- A number in four hexadecimal digits. -/
inductive HexText : Nat → Text → Prop where
  | intro {a b c d : Char} {i j k l : Nat} (first : (a, i) ∈ hexDigits) (second : (b, j) ∈ hexDigits)
      (third : (c, k) ∈ hexDigits) (fourth : (d, l) ∈ hexDigits) :
      HexText (((i * 16 + j) * 16 + k) * 16 + l) [a, b, c, d]

inductive CharText (c : Char) : Text → Prop where
  | plain (printed : 32 ≤ c.toNat) (noQuote : c ≠ '\x22') (noSlash : c ≠ '\\') : CharText c [c]
  | short {letter : Char} (listed : (letter, c) ∈ shortEscapes) : CharText c ['\\', letter]
  | unit {digits : Text} (code : HexText c.toNat digits) : CharText c ('\\' :: 'u' :: digits)
  | pair {high low : Nat} {v w : Text} (first : HexText high v) (second : HexText low w)
      (upper : 0xD800 ≤ high ∧ high ≤ 0xDBFF) (lower : 0xDC00 ≤ low ∧ low ≤ 0xDFFF)
      (code : c.toNat = (high - 0xD800) * 0x400 + (low - 0xDC00) + 0x10000) :
      CharText c ('\\' :: 'u' :: v ++ '\\' :: 'u' :: w)

/-- What stands between the quotation marks of a string. -/
inductive BodyText : Text → Text → Prop where
  | nil : BodyText [] []
  | cons {c : Char} {t w body : Text} (first : CharText c w) (later : BodyText t body) :
      BodyText (c :: t) (w ++ body)

inductive StringText (t : Text) : Text → Prop where
  | intro {body : Text} (inner : BodyText t body) : StringText t ('\x22' :: body ++ ['\x22'])

theorem hexDigits_spec {c : Char} {n : Nat} (digit : (c, n) ∈ hexDigits) :
    Source.hexValue? c = some n ∧ c.utf8Size = 1 := by
  have all : hexDigits.all (fun d => Source.hexValue? d.1 == some d.2 && d.1.utf8Size == 1) = true := by
    decide
  simpa using List.all_eq_true.mp all _ digit

theorem bodyText_length {t body : Text} (written : BodyText t body) : t.length ≤ body.length := by
  induction written with
  | nil => exact Nat.le_refl _
  | @cons c t w body first _ ih =>
    have some : 0 < w.length := by cases first <;> simp
    rw [List.length_cons, List.length_append]
    omega

/-! ### Writing -/

theorem hexDigit_mem {n : Nat} (bound : n < 16) : (hexDigit n, n) ∈ hexDigits := by
  have all : (List.range 16).all (fun n => hexDigits.contains (hexDigit n, n)) = true := by decide
  simpa using List.all_eq_true.mp all n (List.mem_range.mpr bound)

theorem charText_escape (c : Char) : CharText c (escape c) := by
  unfold escape
  -- one letter for each of seven characters
  iterate 7
    split
    · subst c
      exact .short (by decide)
  split
  · have zero : ('0', 0) ∈ hexDigits := by decide
    have code := HexText.intro zero zero (hexDigit_mem (n := c.toNat / 16) (by omega))
      (hexDigit_mem (n := c.toNat % 16) (by omega))
    rw [show ((0 * 16 + 0) * 16 + c.toNat / 16) * 16 + c.toNat % 16 = c.toNat by omega] at code
    exact .unit code
  · rename_i noQuote noSlash _ _ _ _ _ printed
    exact .plain (Nat.not_lt.mp printed) noQuote noSlash

theorem bodyText_escape (t : Text) : BodyText t (t.flatMap escape) := by
  induction t with
  | nil => exact .nil
  | cons c t ih => exact .cons (charText_escape c) ih

theorem stringText_quote (t : Text) : StringText t (quote t) := .intro (bodyText_escape t)

/-! ### Reading -/

namespace Source

variable {s : Source} {c : Char} {rest : Text}

theorem tail_rest (s : Source) : s.tail.rest = s.rest.tail := by
  rw [tail]
  split
  · rename_i empty
    simp [empty]
  · rename_i whole
    rw [whole]
    split <;> rfl

theorem tail_of_cons (whole : s.rest = c :: rest) : s.tail.rest = rest := by
  rw [tail_rest, whole, List.tail_cons]

theorem skipBytes_narrow {lead : Text} (narrow : ∀ d ∈ lead, d.utf8Size = 1)
    (whole : s.rest = lead ++ rest) : (s.skipBytes lead.length).rest = rest := by
  induction lead generalizing s with
  | nil => simpa [skipBytes] using whole
  | cons d lead ih =>
    obtain ⟨first, later⟩ := List.forall_mem_cons.mp narrow
    rw [List.length_cons, skipBytes, whole]
    simp only [List.cons_append, first]
    rw [if_pos (by omega), Nat.add_sub_cancel]
    exact ih later (tail_of_cons whole)

theorem hexEscape_digits {n : Nat} {digits : Text} (written : HexText n digits)
    (whole : s.rest = digits ++ rest) : ∃ s', s.hexEscape = .ok (n, s') ∧ s'.rest = rest := by
  cases written with
  | @intro a b c d i j k l first second third fourth =>
    obtain ⟨valueA, sizeA⟩ := hexDigits_spec first
    obtain ⟨valueB, sizeB⟩ := hexDigits_spec second
    obtain ⟨valueC, sizeC⟩ := hexDigits_spec third
    obtain ⟨valueD, sizeD⟩ := hexDigits_spec fourth
    have narrow : ∀ e ∈ [a, b, c, d], e.utf8Size = 1 := by simp [sizeA, sizeB, sizeC, sizeD]
    refine ⟨s.skipBytes 4, ?_, skipBytes_narrow narrow whole⟩
    rw [hexEscape, whole]
    simp only [List.cons_append, valueA, valueB, valueC, valueD]

theorem escape_short {letter : Char} (listed : (letter, c) ∈ shortEscapes)
    (whole : s.rest = letter :: rest) : s.escape false = .ok (c, s.tail) := by
  rw [escape, whole]
  simp only [shortEscapes, List.mem_cons, Prod.mk.injEq, List.not_mem_nil, or_false] at listed
  rcases listed with ⟨rfl, rfl⟩ | ⟨rfl, rfl⟩ | ⟨rfl, rfl⟩ | ⟨rfl, rfl⟩ | ⟨rfl, rfl⟩ | ⟨rfl, rfl⟩ |
    ⟨rfl, rfl⟩ | ⟨rfl, rfl⟩
  all_goals rfl

theorem toNat_not_surrogate (c : Char) : c.toNat < 0xD800 ∨ 0xDFFF < c.toNat := by
  have valid : c.toNat.isValidChar := c.valid
  unfold Nat.isValidChar at valid
  omega

theorem escape_unit {digits : Text} (code : HexText c.toNat digits)
    (whole : s.rest = 'u' :: digits ++ rest) : ∃ s', s.escape false = .ok (c, s') ∧ s'.rest = rest := by
  obtain ⟨s', read, left⟩ := hexEscape_digits code (tail_of_cons whole)
  have outside := toNat_not_surrogate c
  refine ⟨s', ?_, left⟩
  rw [escape, whole]
  simp only [List.cons_append, read, bind, Except.bind, Bool.false_eq_true, if_false]
  rw [if_neg (by omega), if_neg (by omega), Char.ofNat_toNat]

theorem surrogate_low {high low : Nat} {digits : Text} (written : HexText low digits)
    (lower : 0xDC00 ≤ low ∧ low ≤ 0xDFFF)
    (code : c.toNat = (high - 0xD800) * 0x400 + (low - 0xDC00) + 0x10000)
    (whole : s.rest = '\\' :: 'u' :: digits ++ rest) :
    ∃ s', s.surrogate high = .ok (c, s') ∧ s'.rest = rest := by
  obtain ⟨s', read, left⟩ := hexEscape_digits written (tail_of_cons (tail_of_cons whole))
  refine ⟨s', ?_, left⟩
  rw [surrogate, whole]
  simp only [List.cons_append, read, bind, Except.bind]
  rw [if_neg (by omega), ← code, Char.ofNat_toNat]

theorem escape_pair {high low : Nat} {v w : Text} (first : HexText high v) (second : HexText low w)
    (upper : 0xD800 ≤ high ∧ high ≤ 0xDBFF) (lower : 0xDC00 ≤ low ∧ low ≤ 0xDFFF)
    (code : c.toNat = (high - 0xD800) * 0x400 + (low - 0xDC00) + 0x10000)
    (whole : s.rest = 'u' :: v ++ ('\\' :: 'u' :: w ++ rest)) :
    ∃ s', s.escape false = .ok (c, s') ∧ s'.rest = rest := by
  obtain ⟨half, read, left⟩ := hexEscape_digits first (tail_of_cons whole)
  obtain ⟨s', finished, last⟩ := surrogate_low second lower code left
  refine ⟨s', ?_, last⟩
  rw [escape, whole]
  simp only [List.cons_append, read, bind, Except.bind, Bool.false_eq_true, if_false]
  rw [if_neg (by omega), if_pos (by omega), finished]

theorem stringFrom_char {w : Text} (written : CharText c w) (whole : s.rest = w ++ rest) :
    ∃ s', s'.rest = rest ∧ ∀ fuel done,
      stringFrom false (fuel + 1) done s = stringFrom false fuel (c :: done) s' := by
  -- an escape is read after its backslash
  have escaped : ∀ {rest' : Text} {s' : Source}, s.rest = '\\' :: rest' →
      s.tail.escape false = .ok (c, s') → ∀ fuel done,
        stringFrom false (fuel + 1) done s = stringFrom false fuel (c :: done) s' := by
    intro rest' s' slash read fuel done
    rw [stringFrom, slash]
    simp [read, bind, Except.bind]
  cases written with
  | plain printed noQuote noSlash =>
    refine ⟨s.tail, tail_of_cons whole, fun fuel done => ?_⟩
    rw [stringFrom, whole]
    simp [noQuote, noSlash, Nat.not_lt.mpr printed]
  | short listed =>
    have letter := tail_of_cons whole
    exact ⟨s.tail.tail, tail_of_cons letter, escaped whole (escape_short listed letter)⟩
  | unit code =>
    obtain ⟨s', read, left⟩ := escape_unit code (tail_of_cons whole)
    exact ⟨s', left, escaped whole read⟩
  | pair first second upper lower code =>
    rw [List.append_assoc] at whole
    obtain ⟨s', read, left⟩ := escape_pair first second upper lower code (tail_of_cons whole)
    exact ⟨s', left, escaped whole read⟩

theorem stringFrom_body {t body : Text} (written : BodyText t body) {fuel : Nat} (enough : t.length < fuel)
    (done : Text) (whole : s.rest = body ++ '\x22' :: rest) :
    ∃ s', stringFrom false fuel done s = .ok (done.reverse ++ t, s') ∧ s'.rest = rest := by
  induction written generalizing s fuel done with
  | nil =>
    obtain ⟨n, rfl⟩ := Nat.exists_eq_succ_of_ne_zero (Nat.ne_of_gt enough)
    refine ⟨s.tail, ?_, tail_of_cons whole⟩
    rw [stringFrom, whole]
    simp
  | @cons c t w body first _ ih =>
    obtain ⟨n, rfl⟩ := Nat.exists_eq_succ_of_ne_zero (Nat.ne_of_gt (Nat.zero_lt_of_lt enough))
    rw [List.append_assoc] at whole
    obtain ⟨next, left, step⟩ := stringFrom_char first whole
    obtain ⟨s', read, last⟩ := ih (Nat.lt_of_succ_lt_succ enough) (c :: done) left
    refine ⟨s', ?_, last⟩
    rw [step, read]
    simp

theorem string_read {t w : Text} (written : StringText t w) (whole : s.rest = w ++ rest) :
    s.rest.head? = some '\x22' ∧ ∃ s', s.tail.string false = .ok (t, s') ∧ s'.rest = rest := by
  cases written with
  | @intro body inner =>
    have after : s.tail.rest = body ++ '\x22' :: rest := by
      rw [tail_rest, whole]
      simp
    have enough : t.length < s.tail.rest.length + 1 := by
      have size := bodyText_length inner
      rw [after, List.length_append]
      omega
    exact ⟨by rw [whole]; rfl, stringFrom_body inner enough [] after⟩

end Source

end TemplateMarkup.Json
