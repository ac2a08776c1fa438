import TemplateMarkup.Proofs.Outline
import TemplateMarkup.Proofs.Query.Reading

/-!
What a query means: an element is found if a chain of elements leads to it from the whole document, one
link for each step. Evaluation works on ranges of indices and on sorted lists without repetitions; it
finds exactly these elements, in document order.
-/
namespace TemplateMarkup

/-- What a predicate leaves of a row of candidates. Positions count from 1. -/
inductive Predicate.Narrows (d : Document) : Predicate → List Nat → List Nat → Prop where
  | position {n i : Nat} {before after : List Nat} (place : before.length + 1 = n) :
      Narrows d (.position n) (before ++ i :: after) [i]
  | beyond {n : Nat} {row : List Nat} (short : row.length < n) : Narrows d (.position n) row []
  | last {i : Nat} {before : List Nat} : Narrows d .last (before ++ [i]) [i]
  | lastOfNone : Narrows d .last [] []
  | all {conditions : List Condition} {row : List Nat} :
      Narrows d (.all conditions) row
        (row.filter fun i => (d.record? i).any fun r => conditions.all (Condition.holds r))

inductive Predicate.NarrowsAll (d : Document) : List Predicate → List Nat → List Nat → Prop where
  | nil {row : List Nat} : NarrowsAll d [] row row
  | cons {p : Predicate} {ps : List Predicate} {row middle left : List Nat}
      (first : p.Narrows d row middle) (rest : NarrowsAll d ps middle left) :
      NarrowsAll d (p :: ps) row left

def NodeTest.among (d : Document) (ignoreCase : Bool) (test : NodeTest) (scope : Option Nat) :
    List Nat :=
  (d.childrenOf scope).filter fun i => (d.record? i).any fun r => test.passes r.tag ignoreCase

def Step.Keeps (d : Document) (ignoreCase : Bool) (step : Step) (scope : Option Nat) (i : Nat) :
    Prop :=
  ∃ left, Predicate.NarrowsAll d step.predicates (step.test.among d ignoreCase scope) left ∧ i ∈ left

def Axis.Opens (d : Document) : Axis → Option Nat → Option Nat → Prop
  | .child, context, scope => scope = context
  | .descendantOrSelf, context, scope =>
    scope = context ∨ ∃ i, scope = some i ∧ d.Descends context i

/-- Steps lead from one element to another through a chain with a link for each step. -/
inductive Query.Leads (d : Document) (ignoreCase : Bool) :
    Option Nat → List Step → Option Nat → Prop where
  | stay {context : Option Nat} : Leads d ignoreCase context [] context
  | link {context scope target : Option Nat} {i : Nat} {step : Step} {steps : List Step}
      (opened : step.axis.Opens d context scope) (kept : step.Keeps d ignoreCase scope i)
      (rest : Leads d ignoreCase (some i) steps target) :
      Leads d ignoreCase context (step :: steps) target

variable {d : Document}

namespace Predicate

theorem narrows_apply {p : Predicate} {row left : List Nat} (narrows : p.Narrows d row left) :
    p.apply d row = left := by
  cases narrows with
  | position place =>
    subst place
    simp [apply]
  | beyond short =>
    rw [apply, List.getElem?_eq_none (by omega)]
    rfl
  | last => simp [apply]
  | lastOfNone => rfl
  | all => rfl

theorem apply_narrows {p : Predicate} (proper : p ≠ .position 0) (row : List Nat) :
    p.Narrows d row (p.apply d row) := by
  cases p with
  | position n =>
    have positive : n ≠ 0 := fun zero => proper (zero ▸ rfl)
    by_cases short : row.length < n
    · rw [narrows_apply (Narrows.beyond short)]
      exact .beyond short
    · have bound : n - 1 < row.length := by omega
      have split : row = row.take (n - 1) ++ row[n - 1] :: row.drop n := by
        have rest := List.drop_eq_getElem_cons bound
        rw [show n - 1 + 1 = n by omega] at rest
        rw [← rest, List.take_append_drop]
      have narrows : Narrows d (.position n) (row.take (n - 1) ++ row[n - 1] :: row.drop n)
          [row[n - 1]] := .position (by rw [List.length_take]; omega)
      rw [← split] at narrows
      rw [narrows_apply narrows]
      exact narrows
  | last =>
    rcases List.eq_nil_or_concat row with rfl | ⟨before, i, rfl⟩
    · exact .lastOfNone
    · rw [List.concat_eq_append]
      rw [narrows_apply Narrows.last]
      exact .last
  | all conditions => exact .all

theorem narrowsAll_iff {ps : List Predicate} (proper : ∀ p ∈ ps, p ≠ .position 0)
    (row left : List Nat) : NarrowsAll d ps row left ↔ ps.foldl (Predicate.apply d) row = left := by
  induction ps generalizing row with
  | nil =>
    constructor
    · intro narrows
      cases narrows
      rfl
    · intro same
      subst same
      exact .nil
  | cons p ps ih =>
    have others := ih (fun q member => proper q (List.mem_cons_of_mem p member))
    rw [List.foldl_cons]
    constructor
    · intro narrows
      cases narrows with
      | cons first rest =>
        rw [narrows_apply first]
        exact (others _).mp rest
    · intro same
      exact .cons (apply_narrows (proper p (by simp)) row) ((others _).mpr same)

end Predicate

def Step.Proper (step : Step) : Prop := ∀ p ∈ step.predicates, p ≠ .position 0

namespace Query

theorem mem_matchesIn_iff (ignoreCase : Bool) {step : Step} (proper : step.Proper)
    (scope : Option Nat) (i : Nat) :
    i ∈ matchesIn d ignoreCase step scope ↔ step.Keeps d ignoreCase scope i := by
  constructor
  · intro member
    exact ⟨_, (Predicate.narrowsAll_iff proper _ _).mpr rfl, member⟩
  · rintro ⟨left, narrows, member⟩
    have same := (Predicate.narrowsAll_iff proper _ _).mp narrows
    rw [← same] at member
    exact member

section Repetitions

variable {α : Type} [BEq α] [LawfulBEq α]

theorem mem_eraseReps_loop {x a : α} {l acc : List α} :
    x ∈ List.eraseRepsBy.loop (· == ·) a l acc ↔ x ∈ acc ∨ x = a ∨ x ∈ l := by
  induction l generalizing a acc with
  | nil => simp [List.eraseRepsBy.loop, or_comm]
  | cons b l ih =>
    rw [List.eraseRepsBy.loop]
    split
    · rename_i same
      rw [ih, eq_of_beq same]
      simp
    · rw [ih]
      simp only [List.mem_cons]
      grind

theorem mem_eraseReps {x : α} {l : List α} : x ∈ l.eraseReps ↔ x ∈ l := by
  cases l with
  | nil => simp [List.eraseReps, List.eraseRepsBy]
  | cons a l => simp [List.eraseReps, List.eraseRepsBy, mem_eraseReps_loop]

end Repetitions

/-- The loop keeps what it has put aside, with its current number, strictly ascending. -/
theorem eraseReps_loop_ascending {a : Nat} {l acc : List Nat}
    (aside : (acc.reverse ++ [a]).Pairwise (· < ·)) (sorted : (a :: l).Pairwise (· ≤ ·)) :
    (List.eraseRepsBy.loop (· == ·) a l acc).Pairwise (· < ·) := by
  induction l generalizing a acc with
  | nil => simpa [List.eraseRepsBy.loop] using aside
  | cons b l ih =>
    obtain ⟨first, rest⟩ := List.pairwise_cons.mp sorted
    have least := first b (by simp)
    rw [List.eraseRepsBy.loop]
    split
    · rename_i same
      exact ih aside (eq_of_beq same ▸ rest)
    · rename_i differ
      have apart : a ≠ b := by simpa using differ
      refine ih ?_ rest
      rw [List.reverse_cons, List.pairwise_append]
      refine ⟨aside, List.pairwise_singleton _ _, ?_⟩
      intro x member y last
      obtain rfl := List.mem_singleton.mp last
      rcases List.mem_append.mp member with before | current
      · have lower := (List.pairwise_append.mp aside).2.2 x before a (by simp)
        omega
      · obtain rfl := List.mem_singleton.mp current
        omega

theorem sorted_eraseReps_ascending (l : List Nat) :
    ((l.mergeSort fun i j => decide (i ≤ j)).eraseReps).Pairwise (· < ·) := by
  have sorted : (l.mergeSort fun i j => decide (i ≤ j)).Pairwise fun i j => decide (i ≤ j) := by
    apply List.pairwise_mergeSort
    · simp only [decide_eq_true_eq]
      omega
    · simp only [Bool.or_eq_true, decide_eq_true_eq]
      omega
  cases whole : l.mergeSort fun i j => decide (i ≤ j) with
  | nil => exact List.Pairwise.nil
  | cons a rest =>
    rw [whole] at sorted
    refine eraseReps_loop_ascending (by simp) ?_
    exact sorted.imp (by simp)

theorem mem_scopes_iff (arena : d.Arena) {axis : Axis} {contexts : List (Option Nat)}
    {scope : Option Nat} :
    scope ∈ scopes d axis contexts ↔ ∃ context ∈ contexts, axis.Opens d context scope := by
  unfold scopes
  rw [mem_eraseReps, List.mem_mergeSort]
  cases axis with
  | child => simp [Axis.Opens]
  | descendantOrSelf =>
    simp only [List.mem_flatMap, withDescendants, List.mem_cons, List.mem_map, Axis.Opens]
    apply exists_congr
    intro context
    apply and_congr_right
    intro _
    apply or_congr_right
    apply exists_congr
    intro i
    have range : i ∈ List.range' (d.descendants context).1
        ((d.descendants context).2 - (d.descendants context).1) ↔ d.Covers context i := by
      rw [List.mem_range'_1, Document.Covers]
      omega
    rw [range, arena.covers_iff_descends, and_comm, eq_comm]

theorem mem_evaluateFrom_iff (arena : d.Arena) (ignoreCase : Bool) {steps : List Step}
    (proper : ∀ step ∈ steps, step.Proper) (contexts : List (Option Nat)) (target : Option Nat) :
    target ∈ evaluateFrom d ignoreCase contexts steps ↔
      ∃ context ∈ contexts, Leads d ignoreCase context steps target := by
  induction steps generalizing contexts with
  | nil =>
    rw [evaluateFrom]
    constructor
    · intro member
      exact ⟨target, member, .stay⟩
    · rintro ⟨context, member, leads⟩
      cases leads
      exact member
  | cons step steps ih =>
    have others := ih (fun s member => proper s (List.mem_cons_of_mem step member))
    have first := proper step (by simp)
    rw [evaluateFrom, others]
    simp only [List.mem_map, mem_eraseReps, List.mem_mergeSort, List.mem_flatMap, mem_scopes_iff arena,
      mem_matchesIn_iff ignoreCase first]
    constructor
    · rintro ⟨_, ⟨i, ⟨scope, ⟨context, member, opened⟩, kept⟩, rfl⟩, leads⟩
      exact ⟨context, member, .link opened kept leads⟩
    · rintro ⟨context, member, leads⟩
      cases leads with
      | link opened kept rest => exact ⟨_, ⟨_, ⟨_, ⟨context, member, opened⟩, kept⟩, rfl⟩, rest⟩

theorem evaluateFrom_ascending (ignoreCase : Bool) {steps : List Step}
    {contexts : List (Option Nat)} (ascending : (contexts.filterMap id).Pairwise (· < ·)) :
    ((evaluateFrom d ignoreCase contexts steps).filterMap id).Pairwise (· < ·) := by
  induction steps generalizing contexts with
  | nil => exact ascending
  | cons step steps ih =>
    rw [evaluateFrom]
    apply ih
    rw [List.filterMap_map, Function.id_comp, List.filterMap_some]
    exact sorted_eraseReps_ascending _

open Grammar Document

theorem predicates_proper {t rest : Text} {ps : List Predicate} (form : ArePredicates t ps rest) :
    ∀ p ∈ ps, p ≠ .position 0 := by
  induction form with
  | none => simp
  | more _ first _ _ ih =>
    intro p member
    rcases List.mem_cons.mp member with same | later
    · subst same
      rintro rfl
      cases first with
      | position _ _ least _ => exact absurd least (by decide)
    · exact ih p later

theorem steps_proper {first : Bool} {t : Text} {steps : List Step} (form : AreSteps first t steps) :
    ∀ step ∈ steps, step.Proper := by
  have one : ∀ {first : Bool} {t rest : Text} {step : Step}, IsStep first t step rest →
      step.Proper := by
    intro first t rest step isStep
    obtain ⟨_, _, predicates⟩ := isStep
    exact predicates_proper predicates
  induction form with
  | one last =>
    intro step member
    exact List.mem_singleton.mp member ▸ one last
  | more head _ ih =>
    intro step member
    rcases List.mem_cons.mp member with same | later
    · exact same ▸ one head
    · exact ih step later

/-- Evaluation is the meaning of the query: it finds the ends of all chains, ascending and each once,
and it never asks for a position before the first. -/
theorem evaluate_exact (t : Text) (root : Markup.Node) {text : Text} {q : Query}
    (accepted : readQuery text = .ok q) (ignoreCase : Bool) :
    (q.evaluate (ofNode t root) ignoreCase).Pairwise (· < ·) ∧
    (∀ i, i ∈ q.evaluate (ofNode t root) ignoreCase ↔
      Leads (ofNode t root) ignoreCase none q.steps (some i)) ∧
    ∀ step ∈ q.steps, ∀ n, Predicate.position n ∈ step.predicates → n ≠ 0 := by
  have proper := steps_proper ((readQuery_ok_iff text q).mp accepted).2
  refine ⟨evaluateFrom_ascending ignoreCase (by simp), ?_, ?_⟩
  · intro i
    have members := mem_evaluateFrom_iff (ofNode_arena t root) ignoreCase proper [none]
      (some i)
    rw [evaluate]
    simpa using members
  · intro step member n position zero
    exact proper step member _ position (by rw [zero])

/-- The query `//*[@a]//b[1]`. -/
def nestedQuery : Query where
  text := "//*[@a]//b[1]"
  steps :=
    [⟨.descendantOrSelf, .any, [.all [.hasAttribute "a"]]⟩,
      ⟨.descendantOrSelf, .name "b", [.position 1]⟩]

/-- The chain goes through the element with index 0. -/
theorem nestedQuery_leads :
    Leads (ofNode "<p a><b/></p><i>" strayTagTree) false none nestedQuery.steps (some 1) := by
  have inner : (NodeTest.name "b").among (ofNode "<p a><b/></p><i>" strayTagTree) false (some 0) =
      [] ++ 1 :: [] := by decide
  refine .link (.inl rfl) (i := 0) ⟨_, .cons .all .nil, by decide⟩ ?_
  refine .link (.inl rfl) (i := 1) ⟨[1], .cons ?_ .nil, by simp⟩ .stay
  rw [inner]
  exact .position rfl

theorem nestedQuery_exact :
    readQuery "//*[@a]//b[1]" = .ok nestedQuery ∧
    (nestedQuery.evaluate (ofNode "<p a><b/></p><i>" strayTagTree) false).Pairwise (· < ·) ∧
    1 ∈ nestedQuery.evaluate (ofNode "<p a><b/></p><i>" strayTagTree) false := by
  have accepted : readQuery "//*[@a]//b[1]" = .ok nestedQuery := rfl
  obtain ⟨ascending, members, _⟩ :=
    evaluate_exact "<p a><b/></p><i>" strayTagTree accepted false
  exact ⟨accepted, ascending, (members 1).mpr nestedQuery_leads⟩

end Query

end TemplateMarkup
