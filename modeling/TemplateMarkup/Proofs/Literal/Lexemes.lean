import TemplateMarkup.Proofs.Bytes
import TemplateMarkup.Proofs.Literal.Pieces

/-!
Code written as a row of lexemes: plain runs, comments, characters in quotes, and strings in three forms.
Each lexeme is read back as one piece or a few, whatever its text looks like inside, so that reading the
whole row gives the bodies of its strings.
-/
namespace TemplateMarkup.Literal

open Text

inductive StringPart
  | plain (c : Char) (unmarked : c ≠ '\x22' ∧ c ≠ '\\' ∧ c ≠ '\n')
  | escaped (c : Char)

/-- A character of a verbatim string as it is written; a quote is written twice. -/
inductive VerbatimPart
  | plain (c : Char) (unmarked : c ≠ '\x22')
  | quote

inductive HolePart
  | plain (c : Char) (unmarked : c ≠ '\x7b' ∧ c ≠ '\x7d' ∧ c ≠ '\\' ∧ c ≠ '\x22')
  | string (parts : List StringPart)

/-- What an interpolated string is made of; braces that open no hole are written twice. -/
inductive InterpolatedPart
  | plain (c : Char) (unmarked : c ≠ '\x22' ∧ c ≠ '\\' ∧ c ≠ '\n' ∧ c ≠ '\x7b' ∧ c ≠ '\x7d')
  | escaped (c : Char)
  | openBrace
  | closeBrace
  | hole (parts : List HolePart) (filled : parts ≠ [])

def StringPart.text : StringPart → Text
  | plain c _ => [c]
  | escaped c => ['\\', c]

def VerbatimPart.text : VerbatimPart → Text
  | plain c _ => [c]
  | quote => ['\x22', '\x22']

def HolePart.text : HolePart → Text
  | plain c _ => [c]
  | string parts => '\x22' :: parts.flatMap StringPart.text ++ ['\x22']

def InterpolatedPart.text : InterpolatedPart → Text
  | plain c _ => [c]
  | escaped c => ['\\', c]
  | openBrace => ['\x7b', '\x7b']
  | closeBrace => ['\x7d', '\x7d']
  | hole parts _ => '\x7b' :: parts.flatMap HolePart.text ++ ['\x7d']

inductive Lexeme
  | run (t : Text)
      (unmarked : ∀ c ∈ t, c ≠ '/' ∧ c ≠ '\x27' ∧ c ≠ '\x22' ∧ c ≠ '@' ∧ c ≠ '$')
  | lineComment (t : Text) (oneLine : '\n' ∉ t)
  | blockComment (t : Text) (unclosed : ∀ before after, t ≠ before ++ ['*', '/'] ++ after)
  | character (c : Char) (ascii : c.toNat < 0x80) (unmarked : c ≠ '\x27' ∧ c ≠ '\\' ∧ c ≠ '\n')
  | escapedCharacter (c : Char) (ascii : c.toNat < 0x80)
  | regular (parts : List StringPart)
  | verbatim (parts : List VerbatimPart)
  | interpolated (parts : List InterpolatedPart)

namespace Lexeme

/-- The body of a string; other lexemes have none. -/
def body? : Lexeme → Option Text
  | regular parts => some (parts.flatMap StringPart.text)
  | verbatim parts => some (parts.flatMap VerbatimPart.text)
  | interpolated parts => some (parts.flatMap InterpolatedPart.text)
  | _ => none

def text : Lexeme → Text
  | run t _ => t
  | lineComment t _ => '/' :: '/' :: t ++ ['\n']
  | blockComment t _ => '/' :: '*' :: t ++ ['*', '/']
  | character c _ _ => ['\x27', c, '\x27']
  | escapedCharacter c _ => ['\x27', '\\', c, '\x27']
  | regular parts => '\x22' :: parts.flatMap StringPart.text ++ ['\x22']
  | verbatim parts => '@' :: '\x22' :: parts.flatMap VerbatimPart.text ++ ['\x22']
  | interpolated parts => '$' :: '\x22' :: parts.flatMap InterpolatedPart.text ++ ['\x22']

def source (ls : List Lexeme) : Text := ls.flatMap text

/-- A quote directly after a string would belong to it, so there is none. -/
def Separated : List Lexeme → Prop
  | [] => True
  | l :: ls => (l.body?.isSome → (source ls).head? ≠ some '\x22') ∧ Separated ls

instance Separated.decide : (ls : List Lexeme) → Decidable (Separated ls)
  | [] => isTrue trivial
  | l :: ls =>
    have := Separated.decide ls
    inferInstanceAs (Decidable ((l.body?.isSome → (source ls).head? ≠ some '\x22') ∧ Separated ls))

end Lexeme

variable {c : Char} {t rest : Text}

theorem regular?_read (parts : List StringPart) (rest : Text) :
    regular? (parts.flatMap StringPart.text ++ '\x22' :: rest) =
      some (parts.flatMap StringPart.text, rest) := by
  induction parts with
  | nil => rfl
  | cons part parts ih =>
    rw [List.flatMap_cons, List.append_assoc]
    cases part with
    | plain c unmarked =>
      obtain ⟨quote, backslash, newline⟩ := unmarked
      show regular? (c :: (parts.flatMap StringPart.text ++ '\x22' :: rest)) = _
      rw [regular?, ih]
      · rfl
      all_goals simp [quote, backslash, newline]
    | escaped c =>
      show regular? ('\\' :: c :: (parts.flatMap StringPart.text ++ '\x22' :: rest)) = _
      rw [regular?, ih]
      rfl

theorem verbatim?_read (parts : List VerbatimPart) (ends : rest.head? ≠ some '\x22') :
    verbatim? (parts.flatMap VerbatimPart.text ++ '\x22' :: rest) =
      some (parts.flatMap VerbatimPart.text, rest) := by
  induction parts with
  | nil =>
    show verbatim? ('\x22' :: rest) = some ([], rest)
    rw [verbatim?]
    rintro t rfl
    exact ends rfl
  | cons part parts ih =>
    rw [List.flatMap_cons, List.append_assoc]
    cases part with
    | plain c unmarked =>
      show verbatim? (c :: (parts.flatMap VerbatimPart.text ++ '\x22' :: rest)) = _
      rw [verbatim?, ih]
      · rfl
      all_goals simp [unmarked]
    | quote =>
      show verbatim? ('\x22' :: '\x22' :: (parts.flatMap VerbatimPart.text ++ '\x22' :: rest)) = _
      rw [verbatim?, ih]
      rfl

/-- A character that is neither a brace, a quote nor a backslash is passed over; a newline ends the line
only outside of holes. -/
theorem move_plain (depth : Nat) (t : Text)
    (unmarked : c ≠ '\x7b' ∧ c ≠ '\x7d' ∧ c ≠ '\\' ∧ c ≠ '\x22') (inLine : c = '\n' → 0 < depth) :
    move false depth c t = .goes [c] depth t := by
  obtain ⟨opening, closing, backslash, quote⟩ := unmarked
  have goesOn : ¬((c = '\n' && !false && depth == 0) = true) := by
    simp only [Bool.and_eq_true, decide_eq_true_eq, beq_iff_eq]
    rintro ⟨⟨newline, -⟩, outside⟩
    have positive := inLine newline
    omega
  unfold move
  rw [if_neg opening, if_neg closing, if_neg quote, if_neg (by simp [backslash]), if_neg goesOn]

theorem interpolatedAt?_holePart (part : HolePart) (t : Text) :
    interpolatedAt? false 1 (part.text ++ t) =
      (interpolatedAt? false 1 t).map fun x => (part.text ++ x.1, x.2) := by
  cases part with
  | plain c unmarked =>
    show interpolatedAt? false 1 (c :: t) = _
    rw [interpolatedAt?_cons, move_plain 1 t unmarked fun _ => by omega]
    rfl
  | string parts =>
    have read := regular?_read parts t
    have here : move false 1 '\x22' (parts.flatMap StringPart.text ++ '\x22' :: t) =
        .goes ('\x22' :: parts.flatMap StringPart.text ++ ['\x22']) 1 t := by
      simp [move, read]
    have text : (HolePart.string parts).text ++ t =
        '\x22' :: (parts.flatMap StringPart.text ++ '\x22' :: t) := by
      simp [HolePart.text]
    rw [text, interpolatedAt?_cons, here]
    rfl

theorem interpolatedAt?_hole (parts : List HolePart) (t : Text) :
    interpolatedAt? false 1 (parts.flatMap HolePart.text ++ '\x7d' :: t) =
      (interpolatedAt? false 0 t).map fun x => (parts.flatMap HolePart.text ++ '\x7d' :: x.1, x.2) := by
  induction parts with
  | nil =>
    show interpolatedAt? false 1 ('\x7d' :: t) = _
    rw [interpolatedAt?_cons]
    rfl
  | cons part parts ih =>
    rw [List.flatMap_cons, List.append_assoc, interpolatedAt?_holePart, ih, Option.map_map]
    simp [Function.comp_def]

theorem HolePart.head?_text (part : HolePart) (t : Text) : (part.text ++ t).head? ≠ some '\x7b' := by
  cases part with
  | plain c unmarked => simpa [text] using unmarked.1
  | string parts => simp [text]

theorem interpolatedAt?_part (part : InterpolatedPart) (t : Text) :
    interpolatedAt? false 0 (part.text ++ t) =
      (interpolatedAt? false 0 t).map fun x => (part.text ++ x.1, x.2) := by
  cases part with
  | plain c unmarked =>
    obtain ⟨quote, backslash, newline, opening, closing⟩ := unmarked
    show interpolatedAt? false 0 (c :: t) = _
    rw [interpolatedAt?_cons, move_plain 0 t ⟨opening, closing, backslash, quote⟩ fun same =>
      absurd same newline]
    rfl
  | escaped c =>
    show interpolatedAt? false 0 ('\\' :: c :: t) = _
    rw [interpolatedAt?_cons]
    rfl
  | openBrace =>
    show interpolatedAt? false 0 ('\x7b' :: '\x7b' :: t) = _
    rw [interpolatedAt?_cons]
    rfl
  | closeBrace =>
    show interpolatedAt? false 0 ('\x7d' :: '\x7d' :: t) = _
    rw [interpolatedAt?_cons]
    rfl
  | hole parts filled =>
    obtain ⟨part, parts, rfl⟩ := List.exists_cons_of_ne_nil filled
    have text : (InterpolatedPart.hole (part :: parts) filled).text ++ t =
        '\x7b' :: ((part :: parts).flatMap HolePart.text ++ '\x7d' :: t) := by
      simp [InterpolatedPart.text]
    have opens : move false 0 '\x7b' ((part :: parts).flatMap HolePart.text ++ '\x7d' :: t) =
        .goes ['\x7b'] 1 ((part :: parts).flatMap HolePart.text ++ '\x7d' :: t) := by
      have head := part.head?_text (parts.flatMap HolePart.text ++ '\x7d' :: t)
      rw [List.flatMap_cons, List.append_assoc]
      generalize part.text ++ (parts.flatMap HolePart.text ++ '\x7d' :: t) = u at head
      unfold move
      rw [if_pos rfl]
      split
      · exact absurd rfl head
      · rfl
    rw [text, interpolatedAt?_cons, opens, Move.run, interpolatedAt?_hole, Option.map_map]
    simp [Function.comp_def, InterpolatedPart.text]

theorem interpolated?_read (parts : List InterpolatedPart) (rest : Text) :
    interpolated? false (parts.flatMap InterpolatedPart.text ++ '\x22' :: rest) =
      some (parts.flatMap InterpolatedPart.text, rest) := by
  rw [interpolated?_eq]
  induction parts with
  | nil =>
    show interpolatedAt? false 0 ('\x22' :: rest) = _
    rw [interpolatedAt?_cons]
    rfl
  | cons part parts ih =>
    rw [List.flatMap_cons, List.append_assoc, interpolatedAt?_part, ih]
    rfl

theorem next_unmarked (t : Text)
    (unmarked : c ≠ '/' ∧ c ≠ '\x27' ∧ c ≠ '\x22' ∧ c ≠ '@' ∧ c ≠ '$') : next c t = .other t := by
  obtain ⟨slash, single, double, verbatim, interpolated⟩ := unmarked
  rw [next] <;> simp [slash, single, double, verbatim, interpolated]

theorem all?_run (t rest : Text)
    (unmarked : ∀ c ∈ t, c ≠ '/' ∧ c ≠ '\x27' ∧ c ≠ '\x22' ∧ c ≠ '@' ∧ c ≠ '$') :
    all? (t ++ rest) = all? rest := by
  induction t with
  | nil => rfl
  | cons c t ih =>
    obtain ⟨first, later⟩ := List.forall_mem_cons.mp unmarked
    rw [List.cons_append, all?_cons, next_unmarked _ first]
    exact ih later

theorem all?_lineComment (rest : Text) (oneLine : '\n' ∉ t) :
    all? ('/' :: '/' :: t ++ '\n' :: rest) = all? rest := by
  have passed : (t ++ '\n' :: rest).dropWhile (· != '\n') = '\n' :: rest := by
    rw [List.dropWhile_append_of_pos]
    · simp
    · intro c member
      simp only [bne_iff_ne]
      rintro rfl
      exact oneLine member
  have newline := all?_run ['\n'] rest (by simp)
  rw [List.cons_append, all?_cons, List.cons_append, next, passed]
  exact newline

theorem splitAt?_comment (unclosed : ∀ before after, t ≠ before ++ ['*', '/'] ++ after) (rest : Text) :
    splitAt? ['*', '/'] (t ++ '*' :: '/' :: rest) = some (t, rest) := by
  induction t with
  | nil => rfl
  | cons c t ih =>
    have later := ih fun before after split => unclosed (c :: before) after (by rw [split]; rfl)
    have here : stripLead? ['*', '/'] (c :: (t ++ '*' :: '/' :: rest)) = none := by
      rw [Option.eq_none_iff_forall_ne_some]
      intro after strip
      have split := stripLead?_eq_some_iff.mp strip
      cases t with
      | nil => simp at split
      | cons d t =>
        obtain ⟨rfl, tail⟩ := List.cons.inj split
        obtain ⟨rfl, -⟩ := List.cons.inj tail
        exact unclosed [] t rfl
    rw [List.cons_append, splitAt?, here]
    dsimp only
    rw [later]
    rfl

theorem all?_blockComment (unclosed : ∀ before after, t ≠ before ++ ['*', '/'] ++ after) (rest : Text) :
    all? ('/' :: '*' :: t ++ '*' :: '/' :: rest) = all? rest := by
  have passed : Literal.after "*/" (t ++ '*' :: '/' :: rest) = rest := by
    show ((splitAt? ['*', '/'] (t ++ '*' :: '/' :: rest)).map (·.2)).getD [] = rest
    rw [splitAt?_comment unclosed]
    rfl
  rw [List.cons_append, all?_cons, List.cons_append, next, passed]
  rfl

theorem all?_character (rest : Text) (ascii : c.toNat < 0x80) (plain : c ≠ '\\') :
    all? ('\x27' :: c :: '\x27' :: rest) = all? rest := by
  have passed : quotedChar (c :: '\x27' :: rest) = .other rest := by
    rw [quotedChar, if_pos (utf8Size_ascii ascii)]
    all_goals simp [plain]
  rw [all?_cons, next, passed]
  rfl

theorem all?_escapedCharacter (rest : Text) (ascii : c.toNat < 0x80) :
    all? ('\x27' :: '\\' :: c :: '\x27' :: rest) = all? rest := by
  have ended : escapedEnd? 0 (c :: '\x27' :: rest) = some rest := by
    rw [escapedEnd?, if_neg (by omega), if_neg (by simp), utf8Size_ascii ascii]
    rfl
  have passed : quotedChar ('\\' :: c :: '\x27' :: rest) = .other rest := by
    rw [quotedChar, ended]
    · rfl
    · simp
  rw [all?_cons, next, passed]
  rfl

/-- Only the empty string has its closing quote right after the first one. -/
theorem head?_strings (parts : List StringPart) (rest : Text) :
    parts = [] ∨ (parts.flatMap StringPart.text ++ rest).head? ≠ some '\x22' := by
  cases parts with
  | nil => exact Or.inl rfl
  | cons part parts =>
    right
    cases part with
    | plain c unmarked => simpa [StringPart.text] using unmarked.1
    | escaped c => simp [StringPart.text]

theorem all?_regular (parts : List StringPart) (ends : rest.head? ≠ some '\x22') :
    all? ('\x22' :: parts.flatMap StringPart.text ++ '\x22' :: rest) =
      (all? rest).map (parts.flatMap StringPart.text :: ·) := by
  have read := regular?_read parts rest
  rw [List.cons_append, all?_cons, next, read]
  · rfl
  · intro raw same
    rcases head?_strings parts ('\x22' :: rest) with rfl | other
    · obtain ⟨-, tail⟩ := List.cons.inj same
      exact ends (by rw [tail]; rfl)
    · exact other (by rw [same]; rfl)

theorem all?_verbatim (parts : List VerbatimPart) (ends : rest.head? ≠ some '\x22') :
    all? ('@' :: '\x22' :: parts.flatMap VerbatimPart.text ++ '\x22' :: rest) =
      (all? rest).map (parts.flatMap VerbatimPart.text :: ·) := by
  rw [List.cons_append, all?_cons, List.cons_append, next, verbatim?_read parts ends]
  rfl

theorem all?_interpolated (parts : List InterpolatedPart) (rest : Text) :
    all? ('$' :: '\x22' :: parts.flatMap InterpolatedPart.text ++ '\x22' :: rest) =
      (all? rest).map (parts.flatMap InterpolatedPart.text :: ·) := by
  rw [List.cons_append, all?_cons, List.cons_append, next, interpolated?_read parts rest]
  rfl

/-- A lexeme is read, and what follows it is read next. -/
theorem all?_lexeme (l : Lexeme) (ends : l.body?.isSome → rest.head? ≠ some '\x22') :
    all? (l.text ++ rest) = (all? rest).map (l.body?.toList ++ ·) := by
  cases l with
  | run t unmarked => simpa [Lexeme.text, Lexeme.body?] using all?_run t rest unmarked
  | lineComment t oneLine => simpa [Lexeme.text, Lexeme.body?] using all?_lineComment rest oneLine
  | blockComment t unclosed => simpa [Lexeme.text, Lexeme.body?] using all?_blockComment unclosed rest
  | character c ascii unmarked =>
    simpa [Lexeme.text, Lexeme.body?] using all?_character rest ascii unmarked.2.1
  | escapedCharacter c ascii =>
    simpa [Lexeme.text, Lexeme.body?] using all?_escapedCharacter rest ascii
  | regular parts => simpa [Lexeme.text, Lexeme.body?] using all?_regular parts (ends rfl)
  | verbatim parts => simpa [Lexeme.text, Lexeme.body?] using all?_verbatim parts (ends rfl)
  | interpolated parts => simpa [Lexeme.text, Lexeme.body?] using all?_interpolated parts rest

/-- Reading a row of lexemes gives the bodies of its strings, in order. -/
theorem lexemes_read_back (ls : List Lexeme) (separated : Lexeme.Separated ls) :
    all? (Lexeme.source ls) = some (ls.filterMap Lexeme.body?) := by
  induction ls with
  | nil => rfl
  | cons l ls ih =>
    obtain ⟨ends, later⟩ := separated
    have source : Lexeme.source (l :: ls) = l.text ++ Lexeme.source ls := rfl
    rw [source, all?_lexeme l ends, ih later]
    cases body : l.body? with
    | none => simp [body]
    | some b => simp [body]

/-- Quotes in comments, in characters and in other strings, and a hole with a string in it. -/
def tangledLexemes : List Lexeme :=
  [.character '\x22' (by decide) (by decide), .run ['+'] (by simp),
    .verbatim [.plain '\\' (by decide), .quote], .lineComment ['\x22', '/', '*'] (by decide),
    .interpolated [.openBrace, .hole [.string [.escaped '\x22'], .plain '\n' (by decide)] (by simp),
      .plain '/' (by decide)],
    .blockComment ['\x27', '\x22'] (by
      intro before after same
      have lengths := congrArg List.length same
      obtain rfl : before = [] := List.length_eq_zero_iff.mp (by simp at lengths; omega)
      simp at same),
    .escapedCharacter '\x27' (by decide), .regular []]

theorem tangledLexemes_read :
    Lexeme.Separated tangledLexemes ∧
      Lexeme.source tangledLexemes =
        "'\"'+@\"\\\"\"\"//\"/*\n$\"\x7b\x7b\x7b\"\\\"\"\n\x7d/\"/*'\"*/'\\''\"\"".toList ∧
      all? (Lexeme.source tangledLexemes) =
        some ["\\\"\"".toList, "\x7b\x7b\x7b\"\\\"\"\n\x7d/".toList, []] := by
  have separated : Lexeme.Separated tangledLexemes := by decide
  exact ⟨separated, by decide, lexemes_read_back tangledLexemes separated⟩

end TemplateMarkup.Literal
