import TemplateMarkup.Proofs.Query.ConditionReading

/-!
Reading predicates: conditions joined by `and`, positions, and rows of predicates in brackets. The fuel
of the readers is never used up, since every form takes a character at least.
-/
namespace TemplateMarkup.Query

open Grammar

variable {c after : Cursor} {t rest : Text}

/-- Conditions that follow one that is read already, and the blanks after them. -/
def Joined (t : Text) (xs : List Condition) (rest : Text) : Prop :=
  xs = [] ∧ Blanks t rest ∨
    ∃ a b, Sign "and".toList t a ∧ AreConditions a xs b ∧ Blanks b rest

theorem conditions_iff {xs : List Condition} :
    (∃ a, AreConditions t xs a ∧ Blanks a rest) ↔
      ∃ x others a, xs = x :: others ∧ IsCondition t x a ∧ Joined a others rest := by
  constructor
  · rintro ⟨a, form, blanks⟩
    cases form with
    | one first => exact ⟨_, _, _, rfl, first, Or.inl ⟨rfl, blanks⟩⟩
    | more first sign others => exact ⟨_, _, _, rfl, first, Or.inr ⟨_, _, sign, others, blanks⟩⟩
  · rintro ⟨x, others, a, rfl, first, ⟨rfl, blanks⟩ | ⟨b, e, sign, more, blanks⟩⟩
    · exact ⟨a, .one first, blanks⟩
    · exact ⟨e, .more first sign more, blanks⟩

theorem joined_of_blanks {s : Text} {xs : List Condition} (blanks : Blanks s t)
    (joined : Joined t xs rest) : Joined s xs rest := by
  rcases joined with ⟨rfl, left⟩ | ⟨a, b, sign, more, left⟩
  · exact Or.inl ⟨rfl, blanks_trans blanks left⟩
  · exact Or.inr ⟨a, b, sign_of_blanks blanks sign, more, left⟩

theorem joined_ends {z : Text} {xs : List Condition} (joined : Joined t xs (']' :: z)) : Ends t := by
  rcases joined with ⟨_, closed⟩ | ⟨_, _, ⟨_, before, _⟩, _⟩
  · exact ends_of_blanks closed rfl (by decide)
  · exact ends_of_blanks before rfl (by decide)

theorem moreConditions_sound {fuel : Nat} {xs : List Condition}
    (read : moreConditions fuel c = .ok (xs, after)) : Joined c.rest xs after.rest := by
  induction fuel generalizing c xs with
  | zero =>
    obtain ⟨rfl, rfl⟩ := Prod.mk.inj (Except.ok.inj read)
    exact Or.inl ⟨rfl, blanks_refl _⟩
  | succ fuel ih =>
    unfold moreConditions at read
    dsimp only at read
    split at read
    · obtain ⟨rfl, rfl⟩ := Prod.mk.inj (Except.ok.inj read)
      rw [skipBlanks_rest]
      exact Or.inl ⟨rfl, blanks_dropWhile c.rest⟩
    · rename_i c₁ eaten
      obtain ⟨⟨x, c₂⟩, conditionRead, read⟩ := bind_ok read
      obtain ⟨⟨others, c₃⟩, othersRead, read⟩ := bind_ok read
      obtain ⟨rfl, rfl⟩ := Prod.mk.inj (Except.ok.inj read)
      obtain ⟨t, form, blanks⟩ := condition_sound conditionRead
      have split := eat?_some eaten
      rw [skipBlanks_rest] at split form
      have sign : Sign "and".toList c.rest (c₁.rest.dropWhile isBlank) :=
        ⟨c₁.rest, split ▸ blanks_dropWhile c.rest, blanks_dropWhile c₁.rest⟩
      have joined := joined_of_blanks blanks (ih othersRead)
      obtain ⟨a, conditions, left⟩ := conditions_iff.mpr ⟨x, others, t, rfl, form, joined⟩
      exact Or.inr ⟨_, a, sign, conditions, left⟩

theorem moreConditions_complete {fuel : Nat} {xs : List Condition} {z : Text}
    (joined : Joined t xs (']' :: z)) (same : c.rest.dropWhile isBlank = t.dropWhile isBlank)
    (enough : c.rest.length < fuel) :
    ∃ after, moreConditions fuel c = .ok (xs, after) ∧
      after.rest.dropWhile isBlank = ']' :: z := by
  induction fuel generalizing c t xs with
  | zero => omega
  | succ fuel ih =>
    rcases joined with ⟨rfl, closed⟩ | ⟨a, b, ⟨inner, before, blanks⟩, form, closed⟩
    · have bracket : (skipBlanks c).rest = ']' :: z := by
        rw [skipBlanks_rest, same, blanks_solid closed rfl]
      have none : eat? (skipBlanks c) "and" = none := eat?_other (by rw [bracket]; rfl) rfl
      refine ⟨skipBlanks c, by simp only [moreConditions, none, pure, Except.pure], ?_⟩
      rw [bracket]
      rfl
    · have sign : (skipBlanks c).rest = "and".toList ++ inner := by
        rw [skipBlanks_rest, same]
        exact blanks_solid before rfl
      obtain ⟨c₁, eaten, left⟩ := eat?_append _ sign
      have start : (skipBlanks c₁).rest = a := by
        rw [skipBlanks_rest, left, dropWhile_of_blanks blanks, conditions_solid form]
      obtain ⟨x, others, r, whole, first, next⟩ := conditions_iff.mp ⟨b, form, closed⟩
      obtain ⟨c₂, conditionRead, sameRest⟩ := condition_complete (start ▸ first) (joined_ends next)
      -- the sign and the condition make what is left shorter
      have bound : c₂.rest.length < fuel := by
        obtain ⟨u, formRead, after⟩ := condition_sound conditionRead
        have := condition_length formRead
        have := blanks_length after
        have := blanks_length blanks
        have whole := blanks_length (blanks_dropWhile c.rest)
        rw [← skipBlanks_rest, sign, List.length_append] at whole
        rw [start] at *
        omega
      obtain ⟨after, othersRead, done⟩ := ih next sameRest bound
      refine ⟨after, ?_, done⟩
      subst whole
      simp only [moreConditions, eaten, bind, Except.bind, conditionRead, othersRead, pure,
        Except.pure]

theorem numberOf_eq (digits : Text) : numberOf digits = Nat.ofDigitChars 10 digits 0 := rfl

theorem predicate_sound {x : Predicate} (read : predicate c = .ok (x, after)) :
    ∃ t, IsPredicate c.rest x t ∧ Blanks t after.rest := by
  unfold predicate takeRun at read
  dsimp only at read
  split at read
  · rename_i digits
    split at read
    · simp at read
    · rename_i most
      split at read
      · simp at read
      · rename_i least
        obtain ⟨rfl, rfl⟩ := Prod.mk.inj (Except.ok.inj read)
        rw [skipWhile_rest]
        refine ⟨_, .position (run_takeWhile (by simpa using digits)) (numberOf_eq _)
          (Nat.one_le_iff_ne_zero.mpr least) ?_, blanks_refl _⟩
        rw [maxPosition] at most
        omega
  · split at read
    · rename_i c₁ eaten
      obtain ⟨rfl, rfl⟩ := Prod.mk.inj (Except.ok.inj read)
      rw [eat?_some eaten]
      exact ⟨_, .last, blanks_refl _⟩
    · obtain ⟨⟨first, c₁⟩, conditionRead, read⟩ := bind_ok read
      obtain ⟨⟨others, c₂⟩, othersRead, read⟩ := bind_ok read
      obtain ⟨rfl, rfl⟩ := Prod.mk.inj (Except.ok.inj read)
      obtain ⟨t, form, blanks⟩ := condition_sound conditionRead
      have joined := joined_of_blanks blanks (moreConditions_sound othersRead)
      obtain ⟨a, conditions, left⟩ := conditions_iff.mpr ⟨first, others, t, rfl, form, joined⟩
      exact ⟨a, .all conditions, left⟩

theorem predicate_complete {x : Predicate} {z : Text} (form : IsPredicate c.rest x t)
    (closed : Blanks t (']' :: z)) :
    ∃ after, predicate c = .ok (x, after) ∧ after.rest.dropWhile isBlank = ']' :: z := by
  generalize whole : c.rest = u at form
  have noDigits : ∀ d, u.head? = some d → d.isDigit = false →
      ¬ (!(c.rest.takeWhile Char.isDigit).isEmpty) = true := by
    intro d head other
    cases u with
    | nil => simp at head
    | cons e u =>
      have same : e = d := by simpa using head
      simp [whole, same, other]
  cases form with
  | position number value least most =>
    obtain ⟨run, left⟩ := run_unique (whole ▸ number)
    refine ⟨c.skipWhile Char.isDigit, ?_, by rw [skipWhile_rest, left, blanks_solid closed rfl]⟩
    subst value
    have nonempty := number.nonempty
    have small : ¬ maxPosition < numberOf (c.rest.takeWhile Char.isDigit) := by
      rw [run, numberOf_eq, maxPosition]
      omega
    have positive : numberOf (c.rest.takeWhile Char.isDigit) ≠ 0 := by
      rw [run, numberOf_eq]
      omega
    unfold predicate takeRun
    dsimp only
    rw [if_pos (by simp [run, nonempty]), if_neg small, if_neg positive, run, numberOf_eq]
  | last =>
    obtain ⟨c₁, eaten, left⟩ := eat?_append _ whole
    refine ⟨c₁, ?_, by rw [left, blanks_solid closed rfl]⟩
    unfold predicate takeRun
    dsimp only
    rw [if_neg (noDigits 'l' rfl rfl), eaten]
  | all conditions =>
    obtain ⟨d, head, kind⟩ := conditions_head conditions
    obtain ⟨x, others, r, same, first, joined⟩ := conditions_iff.mp ⟨t, conditions, closed⟩
    obtain ⟨c₁, conditionRead, sameRest⟩ := condition_complete (whole ▸ first) (joined_ends joined)
    obtain ⟨after, othersRead, done⟩ := moreConditions_complete joined sameRest (Nat.lt_succ_self _)
    refine ⟨after, ?_, done⟩
    have other : d.isDigit = false := by
      rcases kind with rfl | rfl | rfl | rfl <;> rfl
    have last : eat? c "last()" = none := by
      refine eat?_other (whole ▸ head) ?_
      rcases kind with rfl | rfl | rfl | rfl <;> rfl
    subst same
    unfold predicate takeRun
    dsimp only
    rw [if_neg (noDigits d head other), last]
    simp only [bind, Except.bind, conditionRead, othersRead, pure, Except.pure]

theorem predicates_sound {fuel : Nat} {xs : List Predicate}
    (read : predicates fuel c = .ok (xs, after)) : ArePredicates c.rest xs after.rest := by
  induction fuel generalizing c xs with
  | zero =>
    obtain ⟨rfl, rfl⟩ := Prod.mk.inj (Except.ok.inj read)
    exact .none
  | succ fuel ih =>
    unfold predicates at read
    split at read
    · obtain ⟨rfl, rfl⟩ := Prod.mk.inj (Except.ok.inj read)
      exact .none
    · rename_i c₁ eaten
      obtain ⟨⟨x, c₂⟩, predicateRead, read⟩ := bind_ok read
      obtain ⟨c₃, bracket, read⟩ := bind_ok read
      obtain ⟨⟨others, c₄⟩, othersRead, read⟩ := bind_ok read
      obtain ⟨rfl, rfl⟩ := Prod.mk.inj (Except.ok.inj read)
      obtain ⟨t, form, blanks⟩ := predicate_sound predicateRead
      rw [skipBlanks_rest] at form
      rw [eat?_some eaten]
      exact .more (blanks_dropWhile c₁.rest) form
        (blanks_trans blanks (expect_skip_sound bracket)) (ih othersRead)

theorem predicates_complete {fuel : Nat} {xs : List Predicate}
    (form : ArePredicates c.rest xs rest) (ends : rest.head? ≠ some '[')
    (enough : c.rest.length < fuel) :
    ∃ after, predicates fuel c = .ok (xs, after) ∧ after.rest = rest := by
  induction fuel generalizing c xs with
  | zero => omega
  | succ fuel ih =>
    generalize whole : c.rest = u at form
    cases form with
    | none =>
      have other : eat? c "[" = none := by
        apply eat?_none
        intro u split
        rw [whole] at split
        exact ends (by rw [split]; rfl)
      exact ⟨c, by simp only [predicates, other], whole⟩
    | more opened first closed others =>
      rename_i t a b z x xs
      obtain ⟨c₁, eaten, left⟩ := eat?_append "[" whole
      have start : (skipBlanks c₁).rest = a := by
        rw [skipBlanks_rest, left, dropWhile_of_blanks opened, predicate_solid first]
      obtain ⟨c₂, predicateRead, bracket⟩ := predicate_complete (start ▸ first) closed
      obtain ⟨c₃, bracketRead, left₃⟩ :=
        expect_append (c := skipBlanks c₂) "]" (by rw [skipBlanks_rest, bracket]; rfl)
      have bound : c₃.rest.length < fuel := by
        have := blanks_length opened
        have := predicate_length first
        have := blanks_length closed
        rw [whole] at enough
        rw [left₃]
        simp only [List.length_cons] at *
        omega
      obtain ⟨after, othersRead, done⟩ := ih (left₃ ▸ others) bound
      refine ⟨after, ?_, done⟩
      simp only [predicates, eaten, bind, Except.bind, predicateRead, bracketRead, othersRead, pure,
        Except.pure]

end TemplateMarkup.Query
