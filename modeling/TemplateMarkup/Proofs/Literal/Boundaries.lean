import TemplateMarkup.ClassName.Usage
import TemplateMarkup.Proofs.Lists
import TemplateMarkup.Proofs.Literal.Agreement

/-!
Where strings of code begin and end. Each of them stands at a place of its own, and code is read to its end
unless it is cut off after a quote and a backslash; so the classes of a template are found wherever no code
that is looked into is cut off. A character in single quotes moves no boundary if it is one of ASCII; the
closing quote of any other is taken for the opening one of the next character.
-/
namespace TemplateMarkup

namespace Literal

open Text

variable {c : Char} {n : Nat} {t code : Text} {spans : List Span} {bodies : List Text}

def CutOff (code : Text) : Prop := ['\x27', '\\'] <:+ code

instance (code : Text) : Decidable (CutOff code) :=
  inferInstanceAs (Decidable (['\x27', '\\'] <:+ code))

/-- The places of strings: the bodies are slices at ascending spans that do not meet, and a quote follows
each of them. -/
structure Sited (t : Text) (spans : List Span) (bodies : List Text) : Prop where
  slices : spans.map (·.slice? t) = bodies.map some
  closed : ∀ s ∈ spans, ∃ after, dropBytes s.stop t = some ('\x22' :: after)
  apart : spans.Pairwise fun a b => a.stop < b.start

theorem laid_lower (laid : Bytewise.Laid n t spans bodies) : ∀ s ∈ spans, n ≤ s.start := by
  induction laid with
  | nil => simp
  | cons later ih =>
    intro s member
    rcases List.mem_cons.mp member with same | further
    · subst same
      exact Nat.le_add_right _ _
    · have beyond := ih s further
      omega

theorem laid_sited (lead : Text) (laid : Bytewise.Laid (bytes lead) t spans bodies) :
    Sited (lead ++ t) spans bodies := by
  induction size : t.length using Nat.strongRecOn generalizing lead t spans bodies with
  | ind k ih =>
    cases laid with
    | nil => exact ⟨rfl, by simp, List.Pairwise.nil⟩
    | @cons _ gap body rest spans bodies later =>
      have one : ('\x22' : Char).utf8Size = 1 := by decide
      have lower := laid_lower later
      have place : bytes lead + bytes gap + bytes body + 1 = bytes (lead ++ gap ++ body ++ ['\x22']) := by
        simp [one, Nat.add_assoc]
      rw [place] at later
      have sited := ih rest.length (by simp at size; omega) (lead ++ gap ++ body ++ ['\x22']) later rfl
      have whole : lead ++ gap ++ body ++ ['\x22'] ++ rest = lead ++ (gap ++ body ++ '\x22' :: rest) := by simp
      rw [whole] at sited
      have slice := slice?_append (lead ++ gap) body ('\x22' :: rest)
      have stop := dropBytes_append (lead ++ gap ++ body) ('\x22' :: rest)
      rw [bytes_append] at slice
      rw [bytes_append, bytes_append] at stop
      refine ⟨?_, ?_, ?_⟩
      · rw [List.map_cons, List.map_cons, sited.slices]
        simpa [Span.slice?] using slice
      · intro s member
        rcases List.mem_cons.mp member with same | further
        · subst same
          exact ⟨rest, by simpa using stop⟩
        · exact sited.closed s further
      · refine List.pairwise_cons.mpr ⟨?_, sited.apart⟩
        intro s further
        exact lower s further

theorem next_cut (cut : next c t = .cut) : c = '\x27' := by
  have never : ∀ read? otherwise, ofBody read? otherwise ≠ .cut := by
    intro read? otherwise
    cases read? <;> simp [ofBody]
  revert cut
  fun_cases next c t with
  | case3 => intro; rfl
  | case5 | case6 | case7 | case8 | case9 => intro cut; exact absurd cut (never _ _)
  | case1 | case2 | case4 | case10 => intro cut; cases cut

theorem Piece.Within.suffix {piece : Piece} {rest : Text} (within : piece.Within t)
    (follows : piece = .other rest ∨ ∃ body, piece = .literal body rest) : rest <:+ t := by
  rcases follows with rfl | ⟨body, rfl⟩
  · exact within
  · obtain ⟨lead, split⟩ := within
    exact ⟨lead ++ body ++ ['\x22'], by rw [split]; simp⟩

/-- Code is read to its end unless it is cut off. -/
theorem cutOff_of_all? (refused : all? code = none) : CutOff code := by
  induction size : code.length using Nat.strongRecOn generalizing code with
  | ind k ih =>
    cases code with
    | nil => cases refused
    | cons c u =>
      have within := next_within c u
      rw [List.length_cons] at size
      -- what follows a piece is cut off, and with it the code that it ends
      have later : ∀ rest, rest <:+ u → all? rest = none → CutOff (c :: u) := by
        intro rest suffix none
        have shorter := suffix.length_le
        exact ((ih rest.length (by omega) none rfl).trans suffix).trans (List.suffix_cons c u)
      rw [all?_cons] at refused
      cases piece : next c u with
      | cut =>
        rw [piece] at within
        rw [next_cut piece, show u = ['\\'] from within]
        exact List.suffix_refl _
      | other rest =>
        rw [piece] at refused within
        exact later rest (within.suffix (Or.inl rfl)) refused
      | literal body rest =>
        rw [piece] at refused within
        exact later rest (within.suffix (Or.inr ⟨body, rfl⟩)) (Option.map_eq_none_iff.mp refused)

/-- Both ways of reading code that is not cut off end, and they find the same strings. -/
theorem exists_sited (whole : ¬CutOff code) :
    ∃ spans bodies, Bytewise.spans? code = some spans ∧ all? code = some bodies ∧
      Sited code spans bodies := by
  have finds := Bytewise.spansFrom?_laid [] code
  have read : all? code ≠ none := fun refused => whole (cutOff_of_all? refused)
  obtain ⟨bodies, found⟩ := Option.ne_none_iff_exists'.mp read
  rw [Bytewise.Finds, found, List.nil_append] at finds
  generalize spansFrom : Bytewise.spansFrom? code (bytes []) = spans? at finds
  cases finds with
  | @some spans _ laid => exact ⟨spans, bodies, spansFrom, found, laid_sited [] laid⟩

/-- The text reads like a character in single quotes after the first of them. -/
def OpensCharacter (t : Text) : Prop :=
  t.head? = some '\\' ∨ ∃ c rest, t = c :: '\x27' :: rest ∧ c.toNat < 0x80

theorem all?_quote (opens : ¬OpensCharacter t) : all? ('\x27' :: t) = all? t := by
  cases t with
  | nil => rfl
  | cons c u =>
    have plain : c ≠ '\\' := fun escape => opens (Or.inl (by rw [escape]; rfl))
    have unclosed : ¬(c.toNat < 0x80 ∧ u.head? = some '\x27') := by
      intro closed
      obtain ⟨rest, rfl⟩ := List.head?_eq_some_iff.mp closed.2
      exact opens (Or.inr ⟨c, rest, rfl, closed.1⟩)
    rw [all?_cons, next, Bytewise.quotedChar_plain plain, if_neg unclosed]
    rfl

theorem all?_wideCharacter (wide : 0x80 ≤ c.toNat) (rest : Text) :
    all? ('\x27' :: c :: '\x27' :: rest) = all? ('\x27' :: rest) := by
  have clear : ∀ d : Char, d.toNat < 0x80 → c ≠ d := by
    intro d ascii same
    subst same
    omega
  have stays : ¬OpensCharacter (c :: '\x27' :: rest) := by
    rintro (escape | ⟨d, after, same, ascii⟩)
    · exact clear '\\' (by decide) (Option.some.inj escape)
    · exact clear d ascii (List.cons.inj same).1
  have unmarked := next_unmarked ('\x27' :: rest) ⟨clear '/' (by decide), clear '\x27' (by decide),
    clear '\x22' (by decide), clear '@' (by decide), clear '$' (by decide)⟩
  rw [all?_quote stays, all?_cons, unmarked]
  rfl

/-- A character of ASCII in single quotes moves no boundary of what follows. The closing quote of any other
one is read as an opening one, which moves a boundary only if what follows reads like a character. -/
theorem quoted_character_boundaries (c : Char) (rest : Text) (plain : c ≠ '\\') :
    (c.toNat < 0x80 → all? ('\x27' :: c :: '\x27' :: rest) = all? rest) ∧
      (0x80 ≤ c.toNat → all? ('\x27' :: c :: '\x27' :: rest) = all? ('\x27' :: rest)) ∧
      (¬OpensCharacter rest → all? ('\x27' :: c :: '\x27' :: rest) = all? rest) := by
  refine ⟨fun ascii => all?_character rest ascii plain, fun wide => all?_wideCharacter wide rest, ?_⟩
  intro opens
  by_cases ascii : c.toNat < 0x80
  · exact all?_character rest ascii plain
  · rw [all?_wideCharacter (by omega) rest, all?_quote opens]

theorem accented_character_boundaries :
    'é' ≠ '\\' ∧ ¬OpensCharacter "+\"b\"".toList ∧
      all? "'é'+\"b\"".toList = all? "+\"b\"".toList ∧
      all? "+\"b\"".toList = some ["b".toList] := by
  have opens : ¬OpensCharacter "+\"b\"".toList := by
    rintro (escape | ⟨c, rest, same, -⟩)
    · exact absurd escape (by decide)
    · exact absurd (List.cons.inj (List.cons.inj same).2).1 (by decide)
  exact ⟨by decide, opens,
    (quoted_character_boundaries 'é' "+\"b\"".toList (by decide)).2.2 opens, by decide +kernel⟩

/-- The quote after the accented letter is taken for the first of a character, and so the quote in the next
character for the first of a string. -/
theorem accented_character_moves_boundary :
    all? "'é'+'\"'+\"b\"".toList = some ["'+".toList] ∧
      all? "+'\"'+\"b\"".toList = some ["b".toList] := by
  decide +kernel

end Literal

namespace ClassUse

theorem ofLiterals?_isSome (keep : Text → Bool) {code : Text} (whole : ¬Literal.CutOff code) :
    (ofLiterals? keep code).isSome := by
  obtain ⟨_, bodies, _, found, _⟩ := Literal.exists_sited whole
  simp [ofLiterals?, found]

theorem ofAttribute?_isSome {a : Attribute}
    (whole : ClassName.isAttribute a.name → ∀ v ∈ a.value, '@' ∈ v → ¬Literal.CutOff v) :
    (ofAttribute? a).isSome := by
  unfold ofAttribute?
  split
  · rename_i value given
    split
    · rename_i holds
      unfold ofValue?
      split
      · rename_i marked
        have intact := whole holds value given (by simpa using marked)
        simpa using ofLiterals?_isSome ClassName.isValid intact
      · rfl
    · rfl
  · rfl

theorem occurrences?_isSome {t : Text}
    (values : ∀ r ∈ (Document.read t).records, ∀ a ∈ r.attributes, ClassName.isAttribute a.name →
      ∀ v ∈ a.value, '@' ∈ v → ¬Literal.CutOff v)
    (code : ∀ r ∈ Region.codeIn t, ¬Literal.CutOff r.content) : (occurrences? t).isSome := by
  have markup : (((Document.read t).records.flatMap (·.attributes)).mapM ofAttribute?).isSome := by
    apply mapM_isSome_iff.mpr
    intro a member
    obtain ⟨r, listed, inside⟩ := List.mem_flatMap.mp member
    exact ofAttribute?_isSome (values r listed a inside)
  have regions : ((Region.codeIn t).mapM fun r => ofCode? r.content).isSome := by
    apply mapM_isSome_iff.mpr
    intro r member
    simpa [ofCode?] using ofLiterals?_isSome ClassName.isTrusted (code r member)
  obtain ⟨inMarkup, first⟩ := Option.isSome_iff_exists.mp markup
  obtain ⟨inCode, second⟩ := Option.isSome_iff_exists.mp regions
  simp [occurrences?, first, second]

end ClassUse

/-- Code that is not cut off is read byte by byte to its end, in turns that all move on and none of which is
refused. It finds the strings of the code, at ascending places that do not meet, each before a quote. So the
classes of a template are found, unless code in a class attribute or in a code region is cut off. -/
theorem code_is_read_in_place :
    (∀ code, ¬Literal.CutOff code →
      (∀ i turn, Literal.Bytewise.turn? code i = some turn → i < turn.next) ∧
        ∃ spans bodies, Literal.Bytewise.spans? code = some spans ∧ Literal.all? code = some bodies ∧
          Literal.Sited code spans bodies) ∧
      ∀ t, (∀ r ∈ (Document.read t).records, ∀ a ∈ r.attributes, ClassName.isAttribute a.name →
          ∀ v ∈ a.value, '@' ∈ v → ¬Literal.CutOff v) →
        (∀ r ∈ Region.codeIn t, ¬Literal.CutOff r.content) →
        ∃ uses, classUses? t = some uses := by
  refine ⟨fun code whole => ⟨fun i turn => Literal.Bytewise.turn?_advances, Literal.exists_sited whole⟩, ?_⟩
  intro t values code
  obtain ⟨uses, found⟩ := Option.isSome_iff_exists.mp (ClassUse.occurrences?_isSome values code)
  exact ⟨_, by rw [classUses?, found]; rfl⟩

/-- A class list with an escape before a letter of two bytes, and code with a quoted backslash. -/
def quotedTemplate : Text :=
  "<p class='a @(x ? \"b c\" : \"\\é\")'>y</p>@code \x7b var z = '\\\\'; \x7d".toList

theorem quotedTemplate_is_read :
    (∀ r ∈ (Document.read quotedTemplate).records, ∀ a ∈ r.attributes, ClassName.isAttribute a.name →
        ∀ v ∈ a.value, '@' ∈ v → ¬Literal.CutOff v) ∧
      (∀ r ∈ Region.codeIn quotedTemplate, ¬Literal.CutOff r.content) ∧
      (∃ uses, classUses? quotedTemplate = some uses) ∧
      ∃ spans bodies, Literal.Bytewise.spans? quotedTemplate = some spans ∧
        Literal.all? quotedTemplate = some bodies ∧ Literal.Sited quotedTemplate spans bodies ∧
        bodies = ["b c".toList, "\\é".toList] := by
  have values : ∀ r ∈ (Document.read quotedTemplate).records, ∀ a ∈ r.attributes,
      ClassName.isAttribute a.name → ∀ v ∈ a.value, '@' ∈ v → ¬Literal.CutOff v := by decide +kernel
  have code : ∀ r ∈ Region.codeIn quotedTemplate, ¬Literal.CutOff r.content := by decide +kernel
  obtain ⟨-, spans, bodies, placed, found, sited⟩ :=
    code_is_read_in_place.1 quotedTemplate (by decide)
  have strings : Literal.all? quotedTemplate = some ["b c".toList, "\\é".toList] := by decide +kernel
  exact ⟨values, code, code_is_read_in_place.2 quotedTemplate values code, spans, bodies, placed, found,
    sited, Option.some.inj (found.symm.trans strings)⟩

end TemplateMarkup
