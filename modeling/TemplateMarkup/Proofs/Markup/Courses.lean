import TemplateMarkup.Proofs.Markup.Piles

/-!
The trees on a pile lead from state to state. So the parts of a rule that is complete have been put on
one after the other from a state that goes on with the rule. The tree of a reading without faults has
nothing but tokens of the text and rules, and each rule in it is a course of the automaton.
-/
namespace TemplateMarkup.Markup

open TemplateMarkup.Markup.Tree

namespace State

def inQuote : State → Bool
  | quoteOpened _ _ | quoteText _ _ | quoteEmpty _ _ | quoteFull _ _ => true
  | _ => false

theorem moves_inQuote {s s' : State} {l : Label} (moves : Moves s l s') (quote : s'.inQuote = true) :
    ∃ q : Quote, l = .terminal q.mark ∨ l = .terminal q.text := by
  cases moves with
  | shift step =>
    cases step
    case quote q _ | quoteEmpty q _ | quoteFull q _ => exact ⟨q, Or.inl rfl⟩
    case quoteText q _ => exact ⟨q, Or.inr rfl⟩
    case start node | topNodes node | joinNodes node | elementOpened node | elementContent node =>
      cases node <;> cases quote
    all_goals cases quote
  | goto step =>
    cases step
    case start part | topNodes part | joinNodes part | elementOpened part | elementContent part =>
      cases part <;> cases quote
    all_goals cases quote

theorem inQuote_of_back {s s' : State} {count m : Nat}
    (complete : s'.completed? = some (.quotedValue, count)) (less : m < count) (back : Back m s s') :
    s.inQuote = true := by
  obtain ⟨q, o, ⟨rfl, rfl⟩ | ⟨rfl, rfl⟩⟩ := completed?_quotedValue complete
  · match m with
    | 0 => exact back ▸ rfl
    | 1 => exact back_one.mp back ▸ rfl
  · match m with
    | 0 => exact back ▸ rfl
    | 1 => exact back_one.mp back ▸ rfl
    | 2 =>
      obtain ⟨_, rfl, before⟩ := back
      exact back_one.mp before ▸ rfl

end State

namespace Tree

/-- Trees that lead from one state to another; so many of them are parts of a rule. -/
inductive Course : State → List Tree → Nat → State → Prop where
  | nil {s : State} : Course s [] 0 s
  | extra {s s' : State} {x : Tree} {xs : List Tree} {count : Nat} (extra : x.isExtra = true)
      (comment : x.label = .terminal .comment) (rest : Course s xs count s') : Course s (x :: xs) count s'
  | part {s u s' : State} {x : Tree} {xs : List Tree} {count : Nat} (plain : x.isExtra = false)
      (step : s.after? x.label = some u) (rest : Course u xs count s') : Course s (x :: xs) (count + 1) s'

section Courses

variable {s u s' : State} {xs ys : List Tree} {count : Nat}

theorem Course.back (course : Course s xs count s') : State.Back count s s' := by
  induction course with
  | nil => rfl
  | extra _ _ _ ih => exact ih
  | part _ step _ ih => exact State.back_after step ih

theorem course_extras (course : Course s xs count s') (extras : ∀ x ∈ xs, x.isExtra = true) :
    count = 0 ∧ s = s' ∧ ∀ x ∈ xs, x.label = .terminal .comment := by
  induction course with
  | nil => exact ⟨rfl, rfl, by simp⟩
  | extra _ comment _ ih =>
    obtain ⟨_, later⟩ := List.forall_mem_cons.mp extras
    obtain ⟨none, same, comments⟩ := ih later
    exact ⟨none, same, List.forall_mem_cons.mpr ⟨comment, comments⟩⟩
  | part plain _ _ _ =>
    rw [(List.forall_mem_cons.mp extras).1] at plain
    cases plain

theorem course_split (course : Course s (xs ++ ys) count s') :
    ∃ u m k, Course s xs m u ∧ Course u ys k s' ∧ count = m + k := by
  induction xs generalizing s count with
  | nil => exact ⟨s, 0, count, .nil, course, (Nat.zero_add count).symm⟩
  | cons x xs ih =>
    cases course with
    | extra extra comment rest =>
      obtain ⟨u, m, k, first, second, rfl⟩ := ih rest
      exact ⟨u, m, k, .extra extra comment first, second, rfl⟩
    | part plain step rest =>
      obtain ⟨u, m, k, first, second, rfl⟩ := ih rest
      exact ⟨u, m + 1, k, .part plain step first, second, by omega⟩

/-- The parts of a rule, without the extras after them. -/
theorem course_splitTrailing (course : Course s xs count s') :
    Course s (splitTrailing xs).1 count s' ∧
      ∀ x ∈ (splitTrailing xs).2, x.isExtra = true ∧ x.label = .terminal .comment := by
  rw [← splitTrailing_append xs] at course
  obtain ⟨u, m, k, parts, extras, rfl⟩ := course_split course
  have trailing := splitTrailing_extras xs
  obtain ⟨rfl, rfl, comments⟩ := course_extras extras trailing
  exact ⟨parts, fun x member => ⟨trailing x member, comments x member⟩⟩

theorem course_parts (course : Course s xs count s') {x : Tree} (member : x ∈ xs) :
    x.label = .terminal .comment ∨
      ∃ u u' m, m < count ∧ State.Moves u x.label u' ∧ State.Back m u' s' := by
  induction course with
  | nil => cases member
  | extra _ comment _ ih =>
    rcases List.mem_cons.mp member with rfl | later
    · exact Or.inl comment
    · exact ih later
  | part _ step rest ih =>
    rcases List.mem_cons.mp member with rfl | later
    · exact Or.inr ⟨_, _, _, Nat.lt_succ_self _, State.moves_of_after? step, rest.back⟩
    · rcases ih later with comment | ⟨u, u', m, less, moves, back⟩
      · exact Or.inl comment
      · exact Or.inr ⟨u, u', m, Nat.lt_succ_of_lt less, moves, back⟩

end Courses

inductive Ruled : Tree → Prop where
  | intro (x : Tree) (fits : x.label ≠ .fault) (present : x.info.missing = false)
      (rule : ∀ n, x.label = .nonterminal n → n ≠ .document →
        ∃ (s s' : State) (count : Nat), s'.completed? = some (n, count) ∧ Course s x.children count s')
      (below : ∀ y ∈ x.children, Ruled y) : Ruled x

theorem Ruled.clean {x : Tree} (ruled : x.Ruled) : x.Clean := by
  induction ruled with
  | intro x fits present _ _ ih => exact .intro x fits present ih

/-- A quoted value has nothing but quotation marks, the text between them and comments. -/
theorem Ruled.quoted {x y : Tree} (ruled : x.Ruled) (label : x.label = .nonterminal .quotedValue)
    (member : y ∈ x.children) :
    ∃ a : Terminal, y.label = .terminal a ∧ a.isShown = true ∧ a ≠ .attributeValue := by
  cases ruled with
  | intro _ _ _ rule _ =>
    obtain ⟨s, s', count, complete, course⟩ := rule _ label (by decide)
    rcases course_parts course member with comment | ⟨u, u', m, less, moves, back⟩
    · exact ⟨_, comment, rfl, by decide⟩
    · obtain ⟨q, mark | text⟩ := State.moves_inQuote moves (State.inQuote_of_back complete less back)
      · exact ⟨_, mark, by cases q <;> rfl, by cases q <;> decide⟩
      · exact ⟨_, text, by cases q <;> rfl, by cases q <;> decide⟩

theorem Ruled.child {x y : Tree} (ruled : x.Ruled) (member : y ∈ x.children) : y.Ruled := by
  cases ruled with
  | intro _ _ _ _ below => exact below y member

end Tree

namespace Layer

/-- Each tree leads to the state after it. -/
def Ordered : List Layer → Prop
  | [] => True
  | l :: ls => (l.tree.isExtra = true ∧ l.tree.label = .terminal .comment ∧ l.state = topState ls ∨
      l.tree.isExtra = false ∧ (topState ls).after? l.tree.label = some l.state) ∧ Ordered ls

variable {ls below : List Layer} {xs above : List Tree} {count m : Nat} {s : State}

theorem take_course (ordered : Ordered ls) (course : Course (topState ls) above m s)
    (taken : take count ls above = some (xs, below)) :
    Course (topState below) xs (count + m) s ∧ Ordered below := by
  induction ls generalizing count above m with
  | nil =>
    cases count with
    | zero =>
      cases taken
      exact ⟨by rwa [Nat.zero_add], ordered⟩
    | succ count => cases taken
  | cons l ls ih =>
    cases count with
    | zero =>
      cases taken
      exact ⟨by rwa [Nat.zero_add], ordered⟩
    | succ count =>
      rw [take] at taken
      obtain ⟨⟨extra, comment, same⟩ | ⟨plain, step⟩, rest⟩ := ordered
      · rw [if_pos extra] at taken
        exact ih rest (.extra extra comment (same ▸ course)) taken
      · rw [plain] at taken
        have := ih rest (.part plain step course) taken
        rwa [Nat.add_right_comm]

theorem putAll_ordered {x : Tree} (ordered : Ordered ls) (plain : x.isExtra = false)
    (step : (topState ls).after? x.label = some s)
    (extras : ∀ y ∈ xs, y.isExtra = true ∧ y.label = .terminal .comment) :
    Ordered (putAll ls s (x :: xs)) := by
  have more : ∀ (xs : List Tree) (ls : List Layer), Ordered ls → topState ls = s →
      (∀ y ∈ xs, y.isExtra = true ∧ y.label = .terminal .comment) → Ordered (putAll ls s xs) := by
    intro xs
    induction xs with
    | nil => exact fun ls ordered _ _ => ordered
    | cons y xs ih =>
      intro ls ordered top extras
      obtain ⟨⟨extra, comment⟩, later⟩ := List.forall_mem_cons.mp extras
      exact ih (⟨y, s⟩ :: ls) ⟨Or.inl ⟨extra, comment, top.symm⟩, ordered⟩ rfl later
  exact more xs (⟨x, s⟩ :: ls) ⟨Or.inr ⟨plain, step⟩, ordered⟩ rfl extras

theorem mem_putAll {l : Layer} (member : l ∈ putAll ls s xs) : l ∈ ls ∨ l.tree ∈ xs := by
  induction xs generalizing ls with
  | nil => exact Or.inl member
  | cons x xs ih =>
    rcases ih member with here | later
    · rcases List.mem_cons.mp here with rfl | below
      · exact Or.inr (by simp)
      · exact Or.inl below
    · exact Or.inr (List.mem_cons_of_mem x later)

theorem mem_take (taken : take count ls above = some (xs, below)) :
    (∀ l ∈ below, l ∈ ls) ∧ ∀ x ∈ xs, x ∈ above ∨ ∃ l ∈ ls, l.tree = x := by
  induction ls generalizing count above with
  | nil =>
    cases count with
    | zero =>
      cases taken
      exact ⟨by simp, fun x member => Or.inl member⟩
    | succ count => cases taken
  | cons l ls ih =>
    cases count with
    | zero =>
      cases taken
      exact ⟨fun l member => member, fun x member => Or.inl member⟩
    | succ count =>
      obtain ⟨layers, trees⟩ := ih taken
      refine ⟨fun k member => List.mem_cons_of_mem l (layers k member), fun x member => ?_⟩
      rcases trees x member with first | ⟨k, listed, same⟩
      · rcases List.mem_cons.mp first with rfl | given
        · exact Or.inr ⟨l, by simp, rfl⟩
        · exact Or.inl given
      · exact Or.inr ⟨k, List.mem_cons_of_mem l listed, same⟩

/-- In a finished document the last tree that is no extra is the document. -/
theorem lastPlain_finished (ordered : Ordered ls) (finished : topState ls = .finished) :
    ∀ x ∈ lastPlain (trees ls), x.label = .nonterminal .document := by
  induction ls with
  | nil => cases finished
  | cons l ls ih =>
    have parts : trees (l :: ls) = trees ls ++ [l.tree] := by simp [trees]
    rw [parts, lastPlain_concat]
    obtain ⟨⟨extra, -, same⟩ | ⟨plain, step⟩, rest⟩ := ordered
    · rw [if_pos extra]
      exact ih rest (same.symm.trans finished)
    · rw [plain, if_neg Bool.false_ne_true]
      intro x same
      obtain rfl := Option.some.inj same
      rw [show l.state = .finished from finished] at step
      exact State.moves_finished (State.moves_of_after? step)

end Layer

namespace Pile

open Layer

/-- The trees lead from state to state, and all of them are ruled. -/
structure Regular (p : Pile) : Prop where
  ordered : Ordered p.layers
  ruled : ∀ l ∈ p.layers, l.tree.Ruled

variable {t : Text} {p q : Pile} {x y : Tree} {xs : List Tree} {n : Nonterminal} {count fuel : Nat}

theorem regular_start : start.Regular := ⟨trivial, by simp [start]⟩

theorem shift_regular {next : State} (regular : p.Regular) (ruled : x.Ruled)
    (step : x.isExtra = true ∧ x.label = .terminal .comment ∧ next = p.state ∨
      x.isExtra = false ∧ p.state.after? x.label = some next) : (p.shift x next).Regular :=
  ⟨⟨step, regular.ordered⟩, List.forall_mem_cons.mpr ⟨ruled, regular.ruled⟩⟩

/-- A rule that is complete can be put in the place of its parts. -/
theorem reduce?_regular (regular : p.Regular) (complete : p.state.completed? = some (n, count))
    (reduces : p.reduce? t n count = some q) : q.Regular := by
  obtain ⟨⟨xs, below⟩, taken, rfl⟩ := Option.map_eq_some_iff.mp reduces
  obtain ⟨course, ordered⟩ := take_course regular.ordered .nil taken
  obtain ⟨layers, trees⟩ := mem_take taken
  obtain ⟨parts, extras⟩ := course_splitTrailing course
  obtain ⟨next, goes⟩ := Option.isSome_iff_exists.mp (State.goto?_of_back course.back complete)
  have ruled : ∀ x ∈ xs, x.Ruled := by
    intro x member
    rcases trees x member with none | ⟨l, listed, rfl⟩
    · cases none
    · exact regular.ruled l listed
  constructor
  · unfold rebuild
    dsimp only
    rw [goes, Option.getD_some]
    exact putAll_ordered ordered rfl goes extras
  · intro l member
    rcases mem_putAll member with listed | put
    · exact regular.ruled l (layers l listed)
    · rcases List.mem_cons.mp put with same | extra
      · rw [same]
        refine .intro _ (by simp) rfl ?_ fun y part => ruled y (splitTrailing_part_mem part)
        intro m label _
        obtain rfl : n = m := Label.nonterminal.inj label
        exact ⟨_, _, count, complete, parts⟩
      · exact ruled _ (splitTrailing_extra_mem extra)

theorem markExtra_ruled (extra : Bool) (ruled : x.Ruled) : (x.markExtra extra).Ruled := by
  cases ruled with
  | intro _ fits present rule below => exact .intro _ fits present rule below

theorem wholeTree_ruled (ordered : Ordered p.layers) (finished : p.state = .finished)
    (ruled : ∀ l ∈ p.layers, l.tree.Ruled) (last : x.isExtra = true) (ruledLast : x.Ruled)
    (whole : Reader.wholeTree (trees p.layers ++ [x]) = some y) : y.Ruled := by
  obtain ⟨before, root, after, parts, plain, rfl⟩ := Reader.wholeTree_split whole
  rw [lastPlain_concat, if_pos last] at plain
  have document := lastPlain_finished ordered finished root plain
  have all : ∀ z ∈ trees p.layers ++ [x], z.Ruled := by
    intro z member
    rcases List.mem_append.mp member with early | late
    · obtain ⟨l, listed, rfl⟩ := List.mem_map.mp (List.mem_reverse.mp early)
      exact ruled l listed
    · exact List.mem_singleton.mp late ▸ ruledLast
  rw [parts] at all
  refine .intro _ (by simp [document]) rfl
    (fun n label other => absurd (Label.nonterminal.inj (label.symm.trans document)) other) ?_
  intro z member
  rcases List.mem_append.mp member with early | late
  · rcases List.mem_append.mp early with first | child
    · exact all z (by simp [first])
    · exact (all root (by simp)).child child
  · exact all z (by simp [late])

theorem use_regular (regular : p.Regular) (ruled : ∀ a, x.label = .terminal a → x.Ruled)
    (last : x.label = .terminal .endOfText → x.isExtra = true) :
    (∀ q, p.use t x fuel = .next q → q.Regular) ∧
      ∀ y, p.use t x fuel = .whole (some y) → y.Ruled := by
  have fault : (∀ q, Outcome.fault = .next q → q.Regular) ∧
      ∀ y, Outcome.fault = .whole (some y) → y.Ruled := by
    constructor
    · intro q same
      cases same
    · intro y same
      cases same
  induction fuel generalizing p with
  | zero => exact fault
  | succ fuel ih =>
    rw [use]
    split
    · rename_i a label
      split
      · rename_i comment
        refine ⟨fun q same => ?_, fun y same => by cases same⟩
        cases same
        exact shift_regular regular (markExtra_ruled true (ruled a label))
          (Or.inl ⟨rfl, comment ▸ label, rfl⟩)
      · split
        · exact fault
        · split
          · rename_i ends
            obtain ⟨finished, rfl⟩ : p.state = .finished ∧ a = .endOfText := by simpa using ends
            refine ⟨fun q same => (by cases same), fun y same => ?_⟩
            exact wholeTree_ruled regular.ordered finished regular.ruled (last label) (ruled _ label)
              (Outcome.whole.inj same)
          · split
            · rename_i n count reduces
              split
              · rename_i q reduced
                exact ih (reduce?_regular regular (Reader.reduce?_completed reduces) reduced)
              · exact fault
            · split
              · rename_i next shifts
                refine ⟨fun q same => ?_, fun y same => by cases same⟩
                cases same
                refine shift_regular regular (markExtra_ruled false (ruled a label)) (Or.inr ⟨rfl, ?_⟩)
                rw [show (x.markExtra false).label = .terminal a from label]
                exact shifts
              · exact fault
    · exact fault

theorem token_ruled (a : Terminal) (label : (p.token t).label = .terminal a) : (p.token t).Ruled :=
  .intro _ (by simp [label]) rfl (by simp [label]) nofun

theorem token_extra (label : (p.token t).label = .terminal .endOfText) : (p.token t).isExtra = true := by
  unfold token ofToken at label
  unfold token ofToken isExtra
  dsimp only at label ⊢
  split at label
  · rename_i a terminal
    cases label
    rw [terminal]
    rfl
  · cases label

/-- A reading without faults gives a tree of complete rules. -/
theorem Reads.ruled (reads : p.Reads t xs x) (regular : p.Regular) : x.Ruled := by
  induction reads with
  | done ends => exact (use_regular regular token_ruled token_extra).2 _ ends
  | more steps _ ih => exact ih ((use_regular regular token_ruled token_extra).1 _ steps)

end Pile

end TemplateMarkup.Markup
