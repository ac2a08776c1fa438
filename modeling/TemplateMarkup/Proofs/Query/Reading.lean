import TemplateMarkup.Proofs.Query.PredicateReading

/-!
Reading whole queries. A text is accepted with a row of steps exactly if the grammar derives that row
from the text without its outer blanks; every other text is refused as an invalid query.
-/
namespace TemplateMarkup

namespace Query

open Grammar

section Steps

variable {c after : Cursor} {first : Bool} {rest : Text}

theorem axis_sound {x : Axis} (read : axis c first = .ok (x, after)) :
    IsAxis first c.rest x after.rest := by
  unfold axis at read
  split at read
  · rename_i c₁ eaten
    obtain ⟨rfl, rfl⟩ := Prod.mk.inj (Except.ok.inj read)
    rw [eat?_some eaten]
    exact .descendantOrSelf
  · split at read
    · rename_i c₁ eaten
      obtain ⟨rfl, rfl⟩ := Prod.mk.inj (Except.ok.inj read)
      rw [eat?_some eaten]
      exact .child
    · split at read
      · rename_i isFirst
        obtain ⟨rfl, rfl⟩ := Prod.mk.inj (Except.ok.inj read)
        rw [isFirst]
        exact .omitted
      · simp at read

theorem axis_complete {x : Axis} (form : IsAxis first c.rest x rest)
    (ends : rest.head? ≠ some '/') :
    ∃ after, axis c first = .ok (x, after) ∧ after.rest = rest := by
  generalize whole : c.rest = u at form
  have single : ∀ u : Text, u.head? ≠ some '/' → c.rest = '/' :: u → eat? c "//" = none := by
    intro u other split
    apply eat?_none
    intro v double
    rw [split] at double
    exact other (by rw [(List.cons.inj double).2]; rfl)
  cases form with
  | descendantOrSelf =>
    obtain ⟨after, eaten, left⟩ := eat?_append "//" whole
    exact ⟨after, by simp only [axis, eaten], left⟩
  | child =>
    obtain ⟨after, eaten, left⟩ := eat?_append "/" whole
    exact ⟨after, by simp only [axis, single _ ends whole, eaten], left⟩
  | omitted =>
    have double : eat? c "//" = none := eat?_none fun v split => ends (by rw [← whole, split]; rfl)
    have slash : eat? c "/" = none := eat?_none fun v split => ends (by rw [← whole, split]; rfl)
    exact ⟨c, by simp only [axis, double, slash, ↓reduceIte], whole⟩

theorem nodeTest_sound {x : NodeTest} (read : nodeTest c = .ok (x, after)) :
    IsTest c.rest x after.rest := by
  unfold nodeTest takeRun at read
  dsimp only at read
  split at read
  · rename_i c₁ eaten
    obtain ⟨rfl, rfl⟩ := Prod.mk.inj (Except.ok.inj read)
    rw [eat?_some eaten]
    exact .any
  · split at read
    · simp at read
    · rename_i nonempty
      obtain ⟨rfl, rfl⟩ := Prod.mk.inj (Except.ok.inj read)
      rw [skipWhile_rest]
      exact .name (run_takeWhile (by simpa using nonempty))

theorem nodeTest_complete {x : NodeTest} (form : IsTest c.rest x rest) :
    ∃ after, nodeTest c = .ok (x, after) ∧ after.rest = rest := by
  generalize whole : c.rest = u at form
  cases form with
  | any =>
    obtain ⟨after, eaten, left⟩ := eat?_append "*" whole
    exact ⟨after, by simp only [nodeTest, eaten], left⟩
  | name named =>
    obtain ⟨run, left⟩ := run_unique (whole ▸ named)
    have other : eat? c "*" = none := by
      apply eat?_none
      intro v split
      have star := run_head named (d := '*') (by rw [← whole, split]; rfl)
      exact absurd star (by decide)
    refine ⟨c.skipWhile isTagChar, ?_, by rw [skipWhile_rest, left]⟩
    have nonempty := named.nonempty
    unfold nodeTest takeRun
    dsimp only
    rw [other, if_neg (by simp [run, nonempty]), run]

theorem step_sound {x : Step} (read : step c first = .ok (x, after)) :
    IsStep first c.rest x after.rest := by
  unfold step at read
  obtain ⟨⟨axis, c₁⟩, axisRead, read⟩ := bind_ok read
  obtain ⟨⟨test, c₂⟩, testRead, read⟩ := bind_ok read
  obtain ⟨⟨predicates, c₃⟩, predicatesRead, read⟩ := bind_ok read
  obtain ⟨rfl, rfl⟩ := Prod.mk.inj (Except.ok.inj read)
  exact .mk (axis_sound axisRead) (nodeTest_sound testRead) (predicates_sound predicatesRead)

theorem step_complete {x : Step} (form : IsStep first c.rest x rest)
    (ends : rest.head? ≠ some '[') :
    ∃ after, step c first = .ok (x, after) ∧ after.rest = rest := by
  generalize whole : c.rest = u at form
  obtain ⟨axisForm, tested, predicatesForm⟩ := form
  obtain ⟨c₁, axisRead, left₁⟩ := axis_complete (whole ▸ axisForm) (test_head tested)
  obtain ⟨c₂, testRead, left₂⟩ := nodeTest_complete (left₁ ▸ tested)
  obtain ⟨after, predicatesRead, done⟩ :=
    predicates_complete (left₂ ▸ predicatesForm) ends (Nat.lt_succ_self _)
  refine ⟨after, ?_, done⟩
  simp only [step, bind, Except.bind, axisRead, testRead, predicatesRead, pure, Except.pure]

theorem stepsFrom_sound {fuel : Nat} {xs : List Step} (read : stepsFrom fuel first c = .ok xs)
    (enough : c.rest.length < fuel) : xs = [] ∧ c.rest = [] ∨ AreSteps first c.rest xs := by
  induction fuel generalizing c first xs with
  | zero => omega
  | succ fuel ih =>
    unfold stepsFrom at read
    split at read
    · rename_i atEnd
      exact Or.inl ⟨(Except.ok.inj read).symm, by simpa [Cursor.atEnd] using atEnd⟩
    · obtain ⟨⟨x, c₁⟩, stepRead, read⟩ := bind_ok read
      obtain ⟨others, othersRead, read⟩ := bind_ok read
      have form := step_sound stepRead
      have shorter := step_length form
      rw [← Except.ok.inj read]
      right
      rcases ih othersRead (by omega) with ⟨rfl, empty⟩ | more
      · exact .one (empty ▸ form)
      · exact .more form more

theorem stepsFrom_complete {fuel : Nat} {xs : List Step} (form : AreSteps first c.rest xs)
    (enough : c.rest.length < fuel) : stepsFrom fuel first c = .ok xs := by
  induction fuel generalizing c first xs with
  | zero => omega
  | succ fuel ih =>
    have more : ¬ c.atEnd = true := by simpa [Cursor.atEnd] using steps_nonempty form
    unfold stepsFrom
    rw [if_neg more]
    generalize whole : c.rest = u at form
    cases form with
    | one last =>
      obtain ⟨after, stepRead, done⟩ := step_complete (whole ▸ last) (by simp)
      have atEnd : after.atEnd = true := by simp [Cursor.atEnd, done]
      have othersRead : stepsFrom fuel false after = .ok [] := by
        cases fuel with
        | zero => rfl
        | succ fuel => rw [stepsFrom, if_pos atEnd]
      simp only [bind, Except.bind, stepRead, othersRead, pure, Except.pure]
    | more head others =>
      have slash := steps_head others
      obtain ⟨after, stepRead, done⟩ := step_complete (whole ▸ head) (by rw [slash]; decide)
      have shorter := step_length head
      have othersRead := ih (done ▸ others) (by rw [whole] at enough; rw [done]; omega)
      simp only [bind, Except.bind, stepRead, othersRead, pure, Except.pure]

end Steps

theorem read_ok_iff (text : Text) (q : Query) :
    read text = .ok q ↔ q.text = text.trim ∧ AreSteps true text.trim q.steps := by
  have enough : (Cursor.start text.trim).rest.length < text.trim.length + 1 := Nat.lt_succ_self _
  constructor
  · intro ok
    unfold read at ok
    dsimp only at ok
    split at ok
    · simp at ok
    · rename_i nonempty
      obtain ⟨steps, stepsRead, ok⟩ := bind_ok ok
      rw [← Except.ok.inj ok]
      refine ⟨rfl, ?_⟩
      rcases stepsFrom_sound stepsRead enough with ⟨_, empty⟩ | form
      · have blank : text.trim = [] := empty
        simp [blank] at nonempty
      · exact form
  · rintro ⟨sameText, form⟩
    have stepsRead := stepsFrom_complete (c := Cursor.start text.trim) form enough
    have nonempty := steps_nonempty form
    unfold read
    dsimp only
    rw [if_neg (by simpa using nonempty), stepsRead, ← sameText]
    rfl

theorem readQuery_ok_iff (text : Text) (q : Query) :
    readQuery text = .ok q ↔ q.text = text.trim ∧ AreSteps true text.trim q.steps := by
  rw [← read_ok_iff, readQuery]
  split
  · rename_i other read
    rw [read]
    simp
  · rename_i fault read
    rw [read]
    simp

end Query

open Query Grammar

/-- The accepted queries are those of the grammar, with the steps that they denote there. All other
texts are invalid queries. -/
theorem readQuery_exact (text : Text) :
    (∀ steps, (∃ q, readQuery text = .ok q ∧ q.steps = steps) ↔
      text.trim ≠ [] ∧ AreSteps true text.trim steps) ∧
    ((¬ ∃ steps, text.trim ≠ [] ∧ AreSteps true text.trim steps) ↔
      ∃ fault, readQuery text = .error (.invalidQuery text.trim fault)) := by
  have accepted : ∀ steps, (∃ q, readQuery text = .ok q ∧ q.steps = steps) ↔
      text.trim ≠ [] ∧ AreSteps true text.trim steps := by
    intro steps
    constructor
    · rintro ⟨q, ok, rfl⟩
      have form := (readQuery_ok_iff text q).mp ok
      exact ⟨steps_nonempty form.2, form.2⟩
    · rintro ⟨_, form⟩
      exact ⟨⟨text.trim, steps⟩, (readQuery_ok_iff text _).mpr ⟨rfl, form⟩, rfl⟩
  refine ⟨accepted, ?_⟩
  constructor
  · intro none
    cases result : Query.read text with
    | error fault => exact ⟨fault, by rw [readQuery, result]⟩
    | ok q =>
      have ok : readQuery text = .ok q := by rw [readQuery, result]
      exact absurd ⟨q.steps, (accepted q.steps).mp ⟨q, ok, rfl⟩⟩ none
  · rintro ⟨fault, refused⟩ ⟨steps, form⟩
    obtain ⟨q, ok, _⟩ := (accepted steps).mpr form
    rw [refused] at ok
    simp at ok

end TemplateMarkup
