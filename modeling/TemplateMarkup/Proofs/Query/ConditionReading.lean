import TemplateMarkup.Proofs.Query.Grammar

/-!
Reading conditions. What the reader of a form returns is what the grammar derives, and the other way
round. A reader skips blanks as soon as it meets them, while a derivation leaves them to the sign that
follows; the two therefore agree up to the blanks after a condition.
-/
namespace TemplateMarkup.Query

open Grammar

section Cursor

variable {c after : Cursor} {lead rest : Text}

theorem skip_rest (c : Cursor) (n : Nat) : (c.skip n).rest = c.rest.drop n := rfl

theorem skipWhile_rest (c : Cursor) (p : Char → Bool) :
    (c.skipWhile p).rest = c.rest.dropWhile p := by
  have whole := List.takeWhile_append_dropWhile (p := p) (l := c.rest)
  have dropped := congrArg (List.drop (c.rest.takeWhile p).length) whole
  rw [List.drop_left] at dropped
  exact dropped.symm

@[simp] theorem skipBlanks_rest (c : Cursor) : (skipBlanks c).rest = c.rest.dropWhile isBlank :=
  skipWhile_rest c isBlank

theorem eat?_some (eaten : eat? c lead = some after) : c.rest = lead ++ after.rest := by
  unfold eat? at eaten
  split at eaten
  · rename_i starts
    obtain ⟨rest, stripped⟩ := Option.isSome_iff_exists.mp starts
    have split := Text.stripLead?_eq_some_iff.mp stripped
    rw [← Option.some.inj eaten, skip_rest, split, List.drop_left]
  · simp at eaten

theorem eat?_append (lead : Text) (split : c.rest = lead ++ rest) :
    ∃ after, eat? c lead = some after ∧ after.rest = rest := by
  have starts : Text.startsWith c.rest lead := by
    rw [Text.startsWith, Text.stripLead?_eq_some_iff.mpr split]
    rfl
  refine ⟨c.skip lead.length, by rw [eat?, if_pos starts], ?_⟩
  rw [skip_rest, split, List.drop_left]

theorem eat?_none (apart : ∀ rest, c.rest ≠ lead ++ rest) : eat? c lead = none := by
  cases eaten : eat? c lead with
  | none => rfl
  | some after => exact absurd (eat?_some eaten) (apart after.rest)

theorem eat?_other {a : Char} (head : c.rest.head? = some a)
    (other : lead.head?.any (· != a) = true) : eat? c lead = none := by
  apply eat?_none
  intro rest split
  cases lead with
  | nil => simp at other
  | cons b l =>
    rw [split] at head
    have same : b = a := by simpa using head
    simp [same] at other

theorem expect_ok (expected : expect c lead = .ok after) : c.rest = lead ++ after.rest := by
  unfold expect at expected
  split at expected
  · rename_i found eaten
    rw [← Except.ok.inj expected]
    exact eat?_some eaten
  · simp at expected

theorem expect_append (lead : Text) (split : c.rest = lead ++ rest) :
    ∃ after, expect c lead = .ok after ∧ after.rest = rest := by
  obtain ⟨after, eaten, left⟩ := eat?_append _ split
  exact ⟨after, by rw [expect, eaten], left⟩

end Cursor

theorem bind_ok {α β : Type} {x : Except Fault α} {f : α → Except Fault β} {b : β}
    (done : x >>= f = .ok b) : ∃ a, x = .ok a ∧ f a = .ok b := by
  cases x with
  | error fault => simp [bind, Except.bind] at done
  | ok a => exact ⟨a, rfl, done⟩

section Names

variable {c after : Cursor} {name value rest : Text}

theorem attributeName_sound (read : attributeName c = .ok (name, after)) :
    Run isAttributeChar c.rest name after.rest := by
  unfold attributeName takeRun at read
  dsimp only at read
  split at read
  · simp at read
  · rename_i nonempty
    obtain ⟨rfl, rfl⟩ := Prod.mk.inj (Except.ok.inj read)
    rw [skipWhile_rest]
    exact run_takeWhile (by simpa using nonempty)

theorem attributeName_complete (named : Run isAttributeChar c.rest name rest) :
    ∃ after, attributeName c = .ok (name, after) ∧ after.rest = rest := by
  obtain ⟨run, left⟩ := run_unique named
  refine ⟨c.skipWhile isAttributeChar, ?_, by rw [skipWhile_rest, left]⟩
  have nonempty : name.isEmpty = false := by simp [named.nonempty]
  simp [attributeName, takeRun, run, nonempty]

theorem literal_sound (read : literal c = .ok (value, after)) : Quoted c.rest value after.rest := by
  unfold literal at read
  split at read
  · rename_i q l whole
    split at read
    · rename_i quote
      unfold takeRun at read
      dsimp only at read
      split at read
      · simp at read
      · rename_i more
        obtain ⟨rfl, rfl⟩ := Prod.mk.inj (Except.ok.inj read)
        have inner : (c.skip 1).rest = l := by rw [skip_rest, whole, List.drop_one, List.tail_cons]
        rw [Cursor.atEnd, skipWhile_rest, inner] at more
        rw [inner, skip_rest _ 1, skipWhile_rest, inner, whole]
        -- the value stops at the first quote of its kind
        cases tail : l.dropWhile (· != q) with
        | nil => simp [tail] at more
        | cons d rest =>
          have stop := List.head?_dropWhile_not (· != q) l
          rw [tail] at stop
          have same : d = q := by simpa using stop
          have split := List.takeWhile_append_dropWhile (p := (· != q)) (l := l)
          rw [tail, same] at split
          have free : q ∉ l.takeWhile (· != q) := by
            intro member
            have apart := List.mem_takeWhile_imp member
            simp at apart
          have quoted : Quoted (q :: (l.takeWhile (· != q) ++ q :: rest)) _ rest := .mk quote free
          rw [split] at quoted
          exact quoted
    · simp at read
  · simp at read

theorem literal_complete (quoted : Quoted c.rest value rest) :
    ∃ after, literal c = .ok (value, after) ∧ after.rest = rest := by
  generalize whole : c.rest = t at quoted
  obtain ⟨quote, free⟩ := quoted
  rename_i q
  have inner : (c.skip 1).rest = value ++ q :: rest := by
    rw [skip_rest, whole, List.drop_one, List.tail_cons]
  have clear : ∀ d ∈ value, (d != q) = true := by
    intro d member
    simp only [bne_iff_ne]
    intro same
    exact free (same ▸ member)
  have taken : (c.skip 1).rest.takeWhile (· != q) = value := by
    rw [inner, List.takeWhile_append_of_pos clear]
    simp
  have left : ((c.skip 1).skipWhile (· != q)).rest = q :: rest := by
    rw [skipWhile_rest, inner, List.dropWhile_append_of_pos clear]
    simp
  refine ⟨((c.skip 1).skipWhile (· != q)).skip 1, ?_, by rw [skip_rest, left]; rfl⟩
  unfold literal
  rw [whole]
  simp [quote, takeRun, taken, Cursor.atEnd, left]

end Names

section Conditions

variable {c after : Cursor} {value rest : Text}

theorem literal_skip_sound (read : literal (skipBlanks c) = .ok (value, after)) :
    ∃ t, Blanks c.rest t ∧ Quoted t value after.rest := by
  have quoted := literal_sound read
  rw [skipBlanks_rest] at quoted
  exact ⟨_, blanks_dropWhile c.rest, quoted⟩

theorem literal_skip_complete {t : Text} (blanks : Blanks c.rest t) (quoted : Quoted t value rest) :
    ∃ after, literal (skipBlanks c) = .ok (value, after) ∧ after.rest = rest := by
  apply literal_complete
  rw [skipBlanks_rest, dropWhile_of_blanks blanks, quoted_solid quoted]
  exact quoted

theorem expect_skip_sound {lead : Text} (read : expect (skipBlanks c) lead = .ok after) :
    Blanks c.rest (lead ++ after.rest) := by
  have split := expect_ok read
  rw [skipBlanks_rest] at split
  exact split ▸ blanks_dropWhile c.rest

theorem expect_skip_complete (lead : Text) (blanks : Blanks c.rest (lead ++ rest))
    (solid : lead.head?.any (!isBlank ·) = true) :
    ∃ after, expect (skipBlanks c) lead = .ok after ∧ after.rest = rest := by
  apply expect_append
  rw [skipBlanks_rest]
  cases lead with
  | nil => simp at solid
  | cons a l => exact blanks_solid blanks (by simpa using solid)

/-- Blanks and what may follow them do not make an attribute condition longer. -/
def Ends (t : Text) : Prop := ∀ d ∈ (t.dropWhile isBlank).head?, d ≠ '=' ∧ d ≠ '!'

theorem ends_of_blanks {t : Text} {d : Char} (blanks : Blanks t (d :: rest)) (solid : isBlank d = false)
    (apart : d ≠ '=' ∧ d ≠ '!') : Ends t := by
  intro e head
  rw [blanks_solid blanks solid] at head
  have same : d = e := by simpa using head
  exact same ▸ apart

theorem attributeCondition_sound {x : Condition} (read : attributeCondition c = .ok (x, after)) :
    ∃ t, IsCondition ('@' :: c.rest) x t ∧ Blanks t after.rest := by
  unfold attributeCondition at read
  obtain ⟨⟨name, c₁⟩, nameRead, read⟩ := bind_ok read
  have named := attributeName_sound nameRead
  dsimp only at read
  split at read
  · rename_i c₂ eaten
    obtain ⟨⟨value, c₃⟩, literalRead, read⟩ := bind_ok read
    obtain ⟨rfl, rfl⟩ := Prod.mk.inj (Except.ok.inj read)
    obtain ⟨t, blanks, quoted⟩ := literal_skip_sound literalRead
    have sign := eat?_some eaten
    rw [skipBlanks_rest] at sign
    exact ⟨_, .attributeDiffers named ⟨_, sign ▸ blanks_dropWhile c₁.rest, blanks⟩ quoted,
      blanks_refl _⟩
  · split at read
    · rename_i c₂ eaten
      obtain ⟨⟨value, c₃⟩, literalRead, read⟩ := bind_ok read
      obtain ⟨rfl, rfl⟩ := Prod.mk.inj (Except.ok.inj read)
      obtain ⟨t, blanks, quoted⟩ := literal_skip_sound literalRead
      have sign := eat?_some eaten
      rw [skipBlanks_rest] at sign
      exact ⟨_, .attributeEquals named ⟨_, sign ▸ blanks_dropWhile c₁.rest, blanks⟩ quoted,
        blanks_refl _⟩
    · obtain ⟨rfl, rfl⟩ := Prod.mk.inj (Except.ok.inj read)
      refine ⟨_, .hasAttribute named, ?_⟩
      rw [skipBlanks_rest]
      exact blanks_dropWhile c₁.rest

theorem attributeEquals_complete {name a b : Text} (named : Run isAttributeChar c.rest name a)
    (sign : Sign ['='] a b) (quoted : Quoted b value rest) :
    ∃ after, attributeCondition c = .ok (.attributeEquals name value, after) ∧
      after.rest = rest := by
  obtain ⟨c₁, nameRead, left⟩ := attributeName_complete named
  obtain ⟨inner, before, blanks⟩ := sign
  have signed : (skipBlanks c₁).rest = '=' :: inner := by
    rw [skipBlanks_rest, left]
    exact blanks_solid before rfl
  have other : eat? (skipBlanks c₁) "!=" = none := eat?_other (by rw [signed]; rfl) rfl
  obtain ⟨c₂, eaten, left₂⟩ := eat?_append "=" signed
  obtain ⟨c₃, literalRead, left₃⟩ := literal_skip_complete (left₂ ▸ blanks) quoted
  refine ⟨c₃, ?_, left₃⟩
  simp only [attributeCondition, bind, Except.bind, nameRead, other, eaten, literalRead, pure,
    Except.pure]

theorem attributeDiffers_complete {name a b : Text} (named : Run isAttributeChar c.rest name a)
    (sign : Sign ['!', '='] a b) (quoted : Quoted b value rest) :
    ∃ after, attributeCondition c = .ok (.attributeDiffers name value, after) ∧
      after.rest = rest := by
  obtain ⟨c₁, nameRead, left⟩ := attributeName_complete named
  obtain ⟨inner, before, blanks⟩ := sign
  have signed : (skipBlanks c₁).rest = '!' :: '=' :: inner := by
    rw [skipBlanks_rest, left]
    exact blanks_solid before rfl
  obtain ⟨c₂, eaten, left₂⟩ := eat?_append "!=" signed
  obtain ⟨c₃, literalRead, left₃⟩ := literal_skip_complete (left₂ ▸ blanks) quoted
  refine ⟨c₃, ?_, left₃⟩
  simp only [attributeCondition, bind, Except.bind, nameRead, eaten, literalRead, pure, Except.pure]

theorem hasAttribute_complete {name t : Text} (named : Run isAttributeChar c.rest name t)
    (ends : Ends t) :
    ∃ after, attributeCondition c = .ok (.hasAttribute name, after) ∧
      after.rest = t.dropWhile isBlank := by
  obtain ⟨c₁, nameRead, left⟩ := attributeName_complete named
  have rest : (skipBlanks c₁).rest = t.dropWhile isBlank := by rw [skipBlanks_rest, left]
  have differs : eat? (skipBlanks c₁) "!=" = none := by
    apply eat?_none
    intro u split
    rw [rest] at split
    exact (ends '!' (by rw [split]; rfl)).2 rfl
  have equals : eat? (skipBlanks c₁) "=" = none := by
    apply eat?_none
    intro u split
    rw [rest] at split
    exact (ends '=' (by rw [split]; rfl)).1 rfl
  refine ⟨skipBlanks c₁, ?_, rest⟩
  simp only [attributeCondition, bind, Except.bind, nameRead, differs, equals, pure, Except.pure]

theorem arguments_sound {subject : Option Text} (read : arguments c = .ok (subject, value, after)) :
    ∃ t, FirstArgument c.rest subject t ∧ SecondArgument t value after.rest := by
  -- both kinds of the first argument go on to the same reading of the second one
  have last : ∀ (first : Option Text) (c₁ : Cursor),
      (do
        let c ← expect (skipBlanks c₁) ","
        let second ← literal (skipBlanks c)
        let c ← expect (skipBlanks second.2) ")"
        return (first, second.1, c)) = Except.ok (subject, value, after) →
      first = subject ∧ SecondArgument c₁.rest value after.rest := by
    intro first c₁ read
    obtain ⟨c₂, comma, read⟩ := bind_ok read
    obtain ⟨⟨second, c₃⟩, literalRead, read⟩ := bind_ok read
    obtain ⟨c₄, bracket, read⟩ := bind_ok read
    simp only [pure, Except.pure, Except.ok.injEq, Prod.mk.injEq] at read
    obtain ⟨rfl, rfl, rfl⟩ := read
    obtain ⟨t, blanks, quoted⟩ := literal_skip_sound literalRead
    exact ⟨rfl, t, c₃.rest, ⟨_, expect_skip_sound comma, blanks⟩, quoted,
      expect_skip_sound bracket⟩
  unfold arguments at read
  dsimp only at read
  split at read
  · rename_i c₁ eaten
    obtain ⟨rfl, second⟩ := last none c₁ read
    have split := eat?_some eaten
    rw [skipBlanks_rest] at split
    exact ⟨c₁.rest, .ofText (split ▸ blanks_dropWhile c.rest), second⟩
  · obtain ⟨c₀, atSign, read⟩ := bind_ok read
    obtain ⟨⟨name, c₁⟩, nameRead, read⟩ := bind_ok read
    obtain ⟨rfl, second⟩ := last (some name) c₁ read
    exact ⟨c₁.rest, .ofAttribute (expect_skip_sound atSign) (attributeName_sound nameRead), second⟩

theorem arguments_complete {subject : Option Text} {t : Text}
    (first : FirstArgument c.rest subject t) (second : SecondArgument t value rest) :
    ∃ after, arguments c = .ok (subject, value, after) ∧ after.rest = rest := by
  obtain ⟨_, _, ⟨_, comma, blanks⟩, quoted, bracket⟩ := second
  have last : ∀ c₁ : Cursor, c₁.rest = t → ∃ c₂ c₃ after,
      expect (skipBlanks c₁) "," = .ok c₂ ∧ literal (skipBlanks c₂) = .ok (value, c₃) ∧
        expect (skipBlanks c₃) ")" = .ok after ∧ after.rest = rest := by
    intro c₁ left
    obtain ⟨c₂, commaRead, left₂⟩ := expect_skip_complete "," (left ▸ comma) rfl
    obtain ⟨c₃, literalRead, left₃⟩ := literal_skip_complete (left₂ ▸ blanks) quoted
    obtain ⟨after, bracketRead, left₄⟩ := expect_skip_complete ")" (left₃ ▸ bracket) rfl
    exact ⟨c₂, c₃, after, commaRead, literalRead, bracketRead, left₄⟩
  cases first with
  | ofText blanks =>
    have solid : (skipBlanks c).rest = "text()".toList ++ t := by
      rw [skipBlanks_rest]
      exact blanks_solid blanks rfl
    obtain ⟨c₁, eaten, left⟩ := eat?_append _ solid
    obtain ⟨c₂, c₃, after, commaRead, literalRead, bracketRead, done⟩ := last c₁ left
    refine ⟨after, ?_, done⟩
    simp only [arguments, bind, Except.bind, eaten, commaRead, literalRead, bracketRead, pure,
      Except.pure]
  | ofAttribute blanks named =>
    rename_i a name
    have solid : (skipBlanks c).rest = '@' :: a := by
      rw [skipBlanks_rest]
      exact blanks_solid blanks rfl
    have other : eat? (skipBlanks c) "text()" = none :=
      eat?_other (by rw [solid]; rfl) rfl
    obtain ⟨c₀, atSign, left⟩ := expect_append "@" solid
    obtain ⟨c₁, nameRead, left₁⟩ := attributeName_complete (left ▸ named)
    obtain ⟨c₂, c₃, after, commaRead, literalRead, bracketRead, done⟩ := last c₁ left₁
    refine ⟨after, ?_, done⟩
    simp only [arguments, bind, Except.bind, other, atSign, nameRead, commaRead, literalRead,
      bracketRead, pure, Except.pure]

theorem condition_sound {x : Condition} (read : condition c = .ok (x, after)) :
    ∃ t, IsCondition c.rest x t ∧ Blanks t after.rest := by
  unfold condition at read
  split at read
  · rename_i c₁ eaten
    rw [eat?_some eaten]
    exact attributeCondition_sound read
  · split at read
    · rename_i c₁ eaten
      obtain ⟨c₂, sign, read⟩ := bind_ok read
      obtain ⟨⟨value, c₃⟩, literalRead, read⟩ := bind_ok read
      obtain ⟨rfl, rfl⟩ := Prod.mk.inj (Except.ok.inj read)
      obtain ⟨t, blanks, quoted⟩ := literal_skip_sound literalRead
      rw [eat?_some eaten]
      exact ⟨_, .textEquals ⟨_, expect_skip_sound sign, blanks⟩ quoted, blanks_refl _⟩
    · split at read
      · rename_i c₁ eaten
        obtain ⟨⟨subject, value, c₂⟩, argumentsRead, read⟩ := bind_ok read
        obtain ⟨t, first, second⟩ := arguments_sound argumentsRead
        rw [eat?_some eaten]
        cases subject with
        | some name =>
          obtain ⟨rfl, rfl⟩ := Prod.mk.inj (Except.ok.inj read)
          exact ⟨_, .attributeContains first second, blanks_refl _⟩
        | none =>
          obtain ⟨rfl, rfl⟩ := Prod.mk.inj (Except.ok.inj read)
          exact ⟨_, .textContains first second, blanks_refl _⟩
      · split at read
        · rename_i c₁ eaten
          obtain ⟨⟨subject, value, c₂⟩, argumentsRead, read⟩ := bind_ok read
          obtain ⟨t, first, second⟩ := arguments_sound argumentsRead
          rw [eat?_some eaten]
          cases subject with
          | some name =>
            obtain ⟨rfl, rfl⟩ := Prod.mk.inj (Except.ok.inj read)
            exact ⟨_, .attributeStartsWith first second, blanks_refl _⟩
          | none => simp at read
        · simp at read

theorem call_complete {lead t u : Text} {subject : Option Text} (split : c.rest = lead ++ t)
    (first : FirstArgument t subject u) (second : SecondArgument u value rest) :
    ∃ inner after, eat? c lead = some inner ∧ arguments inner = .ok (subject, value, after) ∧
      after.rest = rest := by
  obtain ⟨inner, eaten, left⟩ := eat?_append lead split
  obtain ⟨after, read, done⟩ := arguments_complete (left ▸ first) second
  exact ⟨inner, after, eaten, read, done⟩

/-- A condition starts with a character that tells its kind, so no other lead is there. -/
theorem condition_complete {x : Condition} {t : Text} (form : IsCondition c.rest x t)
    (ends : Ends t) :
    ∃ after, condition c = .ok (x, after) ∧
      after.rest.dropWhile isBlank = t.dropWhile isBlank := by
  generalize whole : c.rest = u at form
  have attributes : ∀ {u : Text} {x : Condition}, c.rest = '@' :: u →
      (∀ c₁ : Cursor, c₁.rest = u → ∃ after, attributeCondition c₁ = .ok (x, after) ∧
        after.rest.dropWhile isBlank = t.dropWhile isBlank) →
      ∃ after, condition c = .ok (x, after) ∧
        after.rest.dropWhile isBlank = t.dropWhile isBlank := by
    intro u x head next
    obtain ⟨c₁, eaten, left⟩ := eat?_append "@" head
    obtain ⟨after, read, done⟩ := next c₁ left
    exact ⟨after, by simp only [condition, eaten, read], done⟩
  cases form with
  | hasAttribute named =>
    refine attributes whole ?_
    intro c₁ left
    obtain ⟨after, read, done⟩ := hasAttribute_complete (left ▸ named) ends
    refine ⟨after, read, ?_⟩
    rw [done]
    exact (dropWhile_of_blanks (blanks_dropWhile t)).symm
  | attributeEquals named sign quoted =>
    refine attributes whole ?_
    intro c₁ left
    obtain ⟨after, read, done⟩ := attributeEquals_complete (left ▸ named) sign quoted
    exact ⟨after, read, by rw [done]⟩
  | attributeDiffers named sign quoted =>
    refine attributes whole ?_
    intro c₁ left
    obtain ⟨after, read, done⟩ := attributeDiffers_complete (left ▸ named) sign quoted
    exact ⟨after, read, by rw [done]⟩
  | textEquals sign quoted =>
    obtain ⟨inner, before, blanks⟩ := sign
    have atSign : eat? c "@" = none := eat?_other (by rw [whole]; rfl) rfl
    obtain ⟨c₁, eaten, left⟩ := eat?_append _ whole
    obtain ⟨c₂, signRead, left₂⟩ := expect_skip_complete "=" (left ▸ before) rfl
    obtain ⟨c₃, literalRead, left₃⟩ := literal_skip_complete (left₂ ▸ blanks) quoted
    refine ⟨c₃, ?_, by rw [left₃]⟩
    simp only [condition, atSign, eaten, bind, Except.bind, signRead, literalRead, pure,
      Except.pure]
  | attributeContains first second =>
    have atSign : eat? c "@" = none := eat?_other (by rw [whole]; rfl) rfl
    have text : eat? c "text()" = none := eat?_other (by rw [whole]; rfl) rfl
    obtain ⟨c₁, after, eaten, argumentsRead, done⟩ := call_complete whole first second
    refine ⟨after, ?_, by rw [done]⟩
    simp only [condition, atSign, text, eaten, bind, Except.bind, argumentsRead, pure, Except.pure]
  | textContains first second =>
    have atSign : eat? c "@" = none := eat?_other (by rw [whole]; rfl) rfl
    have text : eat? c "text()" = none := eat?_other (by rw [whole]; rfl) rfl
    obtain ⟨c₁, after, eaten, argumentsRead, done⟩ := call_complete whole first second
    refine ⟨after, ?_, by rw [done]⟩
    simp only [condition, atSign, text, eaten, bind, Except.bind, argumentsRead, pure, Except.pure]
  | attributeStartsWith first second =>
    have atSign : eat? c "@" = none := eat?_other (by rw [whole]; rfl) rfl
    have text : eat? c "text()" = none := eat?_other (by rw [whole]; rfl) rfl
    have contains : eat? c "contains(" = none := eat?_other (by rw [whole]; rfl) rfl
    obtain ⟨c₁, after, eaten, argumentsRead, done⟩ := call_complete whole first second
    refine ⟨after, ?_, by rw [done]⟩
    simp only [condition, atSign, text, contains, eaten, bind, Except.bind, argumentsRead, pure,
      Except.pure]

end Conditions

end TemplateMarkup.Query
