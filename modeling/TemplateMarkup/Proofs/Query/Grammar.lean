import Mathlib.Algebra.Ring.Nat
import Mathlib.Data.List.TakeWhile
import TemplateMarkup.Error

/-!
The grammar of path queries. Each relation says that a text starts with a form, what the form denotes,
and what is left after it. Runs of tag and attribute characters are the longest possible; blanks are
free where `Blanks` and `Sign` stand and nowhere else.
-/
namespace TemplateMarkup.Query.Grammar

def Blanks (t rest : Text) : Prop := ∃ lead : Text, (∀ c ∈ lead, isBlank c) ∧ t = lead ++ rest

def Sign (sign t rest : Text) : Prop := ∃ inner, Blanks t (sign ++ inner) ∧ Blanks inner rest

structure Run (p : Char → Bool) (t run rest : Text) : Prop where
  split : t = run ++ rest
  nonempty : run ≠ []
  inside : ∀ c ∈ run, p c
  longest : ∀ c ∈ rest.head?, ¬ p c

/-- A text in quotes; the other quote may occur in it. -/
inductive Quoted : Text → Text → Text → Prop where
  | mk {q : Char} {value rest : Text} (quote : q = '\x27' ∨ q = '\x22') (free : q ∉ value) :
      Quoted (q :: (value ++ q :: rest)) value rest

/-- The first argument of a function, after its bracket: an attribute, or else the text. -/
inductive FirstArgument : Text → Option Text → Text → Prop where
  | ofAttribute {t a name rest : Text} (blanks : Blanks t ('@' :: a))
      (named : Run isAttributeChar a name rest) : FirstArgument t (some name) rest
  | ofText {t rest : Text} (blanks : Blanks t ("text()".toList ++ rest)) : FirstArgument t none rest

/-- The second argument of a function, with the comma before and the bracket after it. -/
def SecondArgument (t value rest : Text) : Prop :=
  ∃ a b, Sign [','] t a ∧ Quoted a value b ∧ Blanks b (')' :: rest)

inductive IsCondition : Text → Condition → Text → Prop where
  | hasAttribute {t name rest : Text} (named : Run isAttributeChar t name rest) :
      IsCondition ('@' :: t) (.hasAttribute name) rest
  | attributeEquals {t name a b value rest : Text} (named : Run isAttributeChar t name a)
      (sign : Sign ['='] a b) (quoted : Quoted b value rest) :
      IsCondition ('@' :: t) (.attributeEquals name value) rest
  | attributeDiffers {t name a b value rest : Text} (named : Run isAttributeChar t name a)
      (sign : Sign ['!', '='] a b) (quoted : Quoted b value rest) :
      IsCondition ('@' :: t) (.attributeDiffers name value) rest
  | textEquals {t a value rest : Text} (sign : Sign ['='] t a) (quoted : Quoted a value rest) :
      IsCondition ("text()".toList ++ t) (.textEquals value) rest
  | attributeContains {t name a value rest : Text} (first : FirstArgument t (some name) a)
      (second : SecondArgument a value rest) :
      IsCondition ("contains(".toList ++ t) (.attributeContains name value) rest
  | textContains {t a value rest : Text} (first : FirstArgument t none a)
      (second : SecondArgument a value rest) :
      IsCondition ("contains(".toList ++ t) (.textContains value) rest
  | attributeStartsWith {t name a value rest : Text} (first : FirstArgument t (some name) a)
      (second : SecondArgument a value rest) :
      IsCondition ("starts-with(".toList ++ t) (.attributeStartsWith name value) rest

inductive AreConditions : Text → List Condition → Text → Prop where
  | one {t rest : Text} {x : Condition} (first : IsCondition t x rest) : AreConditions t [x] rest
  | more {t a b rest : Text} {x : Condition} {xs : List Condition} (first : IsCondition t x a)
      (sign : Sign "and".toList a b) (others : AreConditions b xs rest) :
      AreConditions t (x :: xs) rest

inductive IsPredicate : Text → Predicate → Text → Prop where
  | position {t digits rest : Text} {n : Nat} (number : Run Char.isDigit t digits rest)
      (value : n = Nat.ofDigitChars 10 digits 0) (least : 1 ≤ n) (most : n ≤ 2 ^ 64 - 1) :
      IsPredicate t (.position n) rest
  | last {rest : Text} : IsPredicate ("last()".toList ++ rest) .last rest
  | all {t rest : Text} {xs : List Condition} (conditions : AreConditions t xs rest) :
      IsPredicate t (.all xs) rest

inductive ArePredicates : Text → List Predicate → Text → Prop where
  | none {rest : Text} : ArePredicates rest [] rest
  | more {t a b c rest : Text} {x : Predicate} {xs : List Predicate} (opened : Blanks t a)
      (first : IsPredicate a x b) (closed : Blanks b (']' :: c)) (others : ArePredicates c xs rest) :
      ArePredicates ('[' :: t) (x :: xs) rest

inductive IsAxis : (first : Bool) → Text → Axis → Text → Prop where
  | descendantOrSelf {first : Bool} {rest : Text} :
      IsAxis first ('/' :: '/' :: rest) .descendantOrSelf rest
  | child {first : Bool} {rest : Text} : IsAxis first ('/' :: rest) .child rest
  | omitted {rest : Text} : IsAxis true rest .child rest

inductive IsTest : Text → NodeTest → Text → Prop where
  | any {rest : Text} : IsTest ('*' :: rest) .any rest
  | name {t tag rest : Text} (named : Run isTagChar t tag rest) : IsTest t (.name tag) rest

inductive IsStep (first : Bool) : Text → Step → Text → Prop where
  | mk {t a b rest : Text} {x : Axis} {test : NodeTest} {ps : List Predicate}
      (axis : IsAxis first t x a) (tested : IsTest a test b) (predicates : ArePredicates b ps rest) :
      IsStep first t ⟨x, test, ps⟩ rest

inductive AreSteps : (first : Bool) → Text → List Step → Prop where
  | one {first : Bool} {t : Text} {x : Step} (last : IsStep first t x []) : AreSteps first t [x]
  | more {first : Bool} {t a : Text} {x : Step} {xs : List Step} (head : IsStep first t x a)
      (others : AreSteps false a xs) : AreSteps first t (x :: xs)

variable {s t u value rest : Text}

theorem blanks_refl (t : Text) : Blanks t t := ⟨[], by simp, rfl⟩

theorem blanks_trans (first : Blanks s t) (second : Blanks t u) : Blanks s u := by
  obtain ⟨a, blankA, splitA⟩ := first
  obtain ⟨b, blankB, splitB⟩ := second
  refine ⟨a ++ b, ?_, by rw [splitA, splitB, List.append_assoc]⟩
  intro c member
  rcases List.mem_append.mp member with inA | inB
  · exact blankA c inA
  · exact blankB c inB

theorem blanks_dropWhile (t : Text) : Blanks t (t.dropWhile isBlank) :=
  ⟨t.takeWhile isBlank, fun _ member => List.mem_takeWhile_imp member,
    List.takeWhile_append_dropWhile.symm⟩

theorem dropWhile_of_blanks (blanks : Blanks t rest) :
    t.dropWhile isBlank = rest.dropWhile isBlank := by
  obtain ⟨lead, blank, split⟩ := blanks
  rw [split, List.dropWhile_append_of_pos blank]

/-- Blanks before a form that starts with another character are all the blanks there are. -/
theorem blanks_solid {c : Char} (blanks : Blanks t (c :: rest)) (solid : isBlank c = false) :
    t.dropWhile isBlank = c :: rest := by
  rw [dropWhile_of_blanks blanks, List.dropWhile_cons_of_neg (by simp [solid])]

theorem sign_of_blanks {sign : Text} (blanks : Blanks s t) (signed : Sign sign t rest) :
    Sign sign s rest := by
  obtain ⟨inner, before, after⟩ := signed
  exact ⟨inner, blanks_trans blanks before, after⟩

theorem run_takeWhile {p : Char → Bool} (nonempty : t.takeWhile p ≠ []) :
    Run p t (t.takeWhile p) (t.dropWhile p) where
  split := List.takeWhile_append_dropWhile.symm
  nonempty := nonempty
  inside := fun _ member => List.mem_takeWhile_imp member
  longest := by
    intro c head
    have stop := List.head?_dropWhile_not p t
    rw [Option.mem_def.mp head] at stop
    simpa using stop

theorem run_unique {p : Char → Bool} {run : Text} (longest : Run p t run rest) :
    t.takeWhile p = run ∧ t.dropWhile p = rest := by
  obtain ⟨split, _, inside, longest⟩ := longest
  rw [split, List.takeWhile_append_of_pos inside, List.dropWhile_append_of_pos inside]
  cases rest with
  | nil => simp
  | cons c rest =>
    have stop : ¬ p c := longest c rfl
    simp [stop]

theorem run_head {p : Char → Bool} {run : Text} (longest : Run p t run rest) {d : Char}
    (head : t.head? = some d) : p d := by
  obtain ⟨e, tail, whole⟩ := List.exists_cons_of_ne_nil longest.nonempty
  have inside := longest.inside e (by simp [whole])
  rw [longest.split, whole] at head
  have same : e = d := by simpa using head
  exact same ▸ inside

theorem blanks_length (blanks : Blanks t rest) : rest.length ≤ t.length := by
  obtain ⟨lead, _, rfl⟩ := blanks
  simp

theorem run_length {p : Char → Bool} {run : Text} (longest : Run p t run rest) :
    rest.length < t.length := by
  have positive := List.length_pos_iff.mpr longest.nonempty
  rw [longest.split, List.length_append]
  omega

theorem quoted_length (quoted : Quoted t value rest) : rest.length < t.length := by
  obtain ⟨_, _⟩ := quoted
  simp only [List.length_cons, List.length_append]
  omega

theorem sign_length {sign : Text} (signed : Sign sign t rest) :
    rest.length + sign.length ≤ t.length := by
  obtain ⟨inner, before, after⟩ := signed
  have whole := blanks_length before
  have left := blanks_length after
  rw [List.length_append] at whole
  omega

theorem firstArgument_length {subject : Option Text} (first : FirstArgument t subject rest) :
    rest.length < t.length := by
  cases first with
  | ofAttribute blanks named =>
    have whole := blanks_length blanks
    have left := run_length named
    simp only [List.length_cons] at whole
    omega
  | ofText blanks =>
    have whole := blanks_length blanks
    simp at whole
    omega

theorem secondArgument_length (second : SecondArgument t value rest) :
    rest.length < t.length := by
  obtain ⟨a, b, comma, quoted, bracket⟩ := second
  have whole := sign_length comma
  have inner := quoted_length quoted
  have left := blanks_length bracket
  simp only [List.length_cons] at left
  omega

theorem condition_length {x : Condition} (form : IsCondition t x rest) :
    rest.length < t.length := by
  cases form with
  | hasAttribute named =>
    have := run_length named
    simp only [List.length_cons]
    omega
  | attributeEquals named sign quoted | attributeDiffers named sign quoted =>
    have := run_length named
    have := sign_length sign
    have := quoted_length quoted
    simp only [List.length_cons]
    omega
  | textEquals sign quoted =>
    have := sign_length sign
    have := quoted_length quoted
    rw [List.length_append]
    omega
  | attributeContains first second | textContains first second | attributeStartsWith first second =>
    have := firstArgument_length first
    have := secondArgument_length second
    rw [List.length_append]
    omega

theorem conditions_length {xs : List Condition} (form : AreConditions t xs rest) :
    rest.length < t.length := by
  induction form with
  | one first => exact condition_length first
  | more first sign _ ih =>
    have := condition_length first
    have := sign_length sign
    omega

theorem predicate_length {x : Predicate} (form : IsPredicate t x rest) :
    rest.length < t.length := by
  cases form with
  | position number => exact run_length number
  | last =>
    rw [List.length_append]
    exact Nat.lt_add_of_pos_left (by decide)
  | all conditions => exact conditions_length conditions

theorem predicates_length {xs : List Predicate} (form : ArePredicates t xs rest) :
    rest.length ≤ t.length := by
  induction form with
  | none => omega
  | more opened first closed _ ih =>
    have := blanks_length opened
    have := predicate_length first
    have := blanks_length closed
    simp only [List.length_cons] at *
    omega

theorem step_length {first : Bool} {x : Step} (form : IsStep first t x rest) :
    rest.length < t.length := by
  obtain ⟨axis, tested, predicates⟩ := form
  rename_i a b _ _ _
  have left := predicates_length predicates
  have middle : b.length < a.length := by
    cases tested with
    | any => simp
    | name named => exact run_length named
  have whole : a.length ≤ t.length := by
    cases axis with
    | descendantOrSelf | child =>
      simp only [List.length_cons]
      omega
    | omitted => omega
  omega

theorem quoted_solid (quoted : Quoted t value rest) :
    t.dropWhile isBlank = t := by
  obtain ⟨quote, _⟩ := quoted
  rcases quote with single | double
  · subst single
    rfl
  · subst double
    rfl

theorem digit_solid {d : Char} (digit : d.isDigit = true) : isBlank d = false := by
  obtain ⟨lower, upper⟩ := Char.isDigit_iff_toNat.mp digit
  have low : 48 ≤ d.toNat := lower
  have high : d.toNat ≤ 57 := upper
  simp only [isBlank, Bool.or_eq_false_iff, Bool.and_eq_false_iff, decide_eq_false_iff_not,
    beq_eq_false_iff_ne]
  omega

/-- A condition starts with a letter or with `@`. -/
theorem condition_head {x : Condition} (form : IsCondition t x rest) :
    ∃ d, t.head? = some d ∧ (d = '@' ∨ d = 't' ∨ d = 'c' ∨ d = 's') := by
  cases form with
  | hasAttribute | attributeEquals | attributeDiffers => exact ⟨'@', rfl, by simp⟩
  | textEquals => exact ⟨'t', rfl, by simp⟩
  | attributeContains | textContains => exact ⟨'c', rfl, by simp⟩
  | attributeStartsWith => exact ⟨'s', rfl, by simp⟩

theorem conditions_head {xs : List Condition} (form : AreConditions t xs rest) :
    ∃ d, t.head? = some d ∧ (d = '@' ∨ d = 't' ∨ d = 'c' ∨ d = 's') := by
  cases form with
  | one first | more first => exact condition_head first

theorem head_solid {d : Char} (head : t.head? = some d) (solid : isBlank d = false) :
    t.dropWhile isBlank = t := by
  cases t with
  | nil => simp at head
  | cons a t =>
    have same : a = d := by simpa using head
    exact List.dropWhile_cons_of_neg (by simp [same, solid])

theorem conditions_solid {xs : List Condition} (form : AreConditions t xs rest) :
    t.dropWhile isBlank = t := by
  obtain ⟨d, head, kind⟩ := conditions_head form
  refine head_solid head ?_
  rcases kind with rfl | rfl | rfl | rfl <;> rfl

theorem predicate_solid {x : Predicate} (form : IsPredicate t x rest) :
    t.dropWhile isBlank = t := by
  cases form with
  | position number =>
    obtain ⟨d, digits, whole⟩ := List.exists_cons_of_ne_nil number.nonempty
    have digit := number.inside d (by simp [whole])
    refine head_solid (d := d) ?_ (digit_solid digit)
    rw [number.split, whole]
    rfl
  | last => rfl
  | all conditions => exact conditions_solid conditions

theorem test_head {x : NodeTest} (form : IsTest t x rest) : t.head? ≠ some '/' := by
  intro head
  cases form with
  | any => exact absurd head (by simp)
  | name named => exact absurd (run_head named head) (by decide)

theorem steps_nonempty {first : Bool} {xs : List Step} (form : AreSteps first t xs) : t ≠ [] := by
  intro empty
  subst empty
  cases form with
  | one last => exact absurd (step_length last) (by simp)
  | more head _ => exact absurd (step_length head) (by simp)

theorem steps_head {xs : List Step} (form : AreSteps false t xs) :
    t.head? = some '/' := by
  have axis : ∀ {x : Step} {rest : Text}, IsStep false t x rest → t.head? = some '/' := by
    intro x rest step
    obtain ⟨axis, _, _⟩ := step
    cases axis with
    | descendantOrSelf | child => rfl
  cases form with
  | one last => exact axis last
  | more head _ => exact axis head

end TemplateMarkup.Query.Grammar
