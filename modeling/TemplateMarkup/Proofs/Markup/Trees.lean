import TemplateMarkup.Proofs.Markup.Automaton
import TemplateMarkup.Proofs.Markup.Cursors

/-!
Sound trees: the children of a tree lie one after another in its range, tokens have no children, quoted
values begin with a quotation mark that stands in the text, and the cost of a rule is the cost of its
parts. Whatever the reader does with trees keeps them sound.
-/
namespace TemplateMarkup.Markup.Tree

open Cursor

/-- The trees follow one another from the first place to the second, where the last one stops. -/
inductive Row : Cursor → List Tree → Cursor → Prop where
  | nil {c : Cursor} : Row c [] c
  | cons {c d : Cursor} {x : Tree} {xs : List Tree} (gap : c.Reaches x.info.origin)
      (rest : Row x.info.stop xs d) : Row c (x :: xs) d

def costs : List Tree → Nat
  | [] => 0
  | x :: xs => x.cost + costs xs

/-- The trees hold all parts of a rule, and the last of them completes it. -/
def Ends (n : Nonterminal) (xs : List Tree) : Prop :=
  ∃ (below last : State) (count : Nat) (y : Tree), last.completed? = some (n, count) ∧
    below.after? y.label = some last ∧ xs.getLast? = some y ∧ count ≤ xs.length

structure Consistent (x : Tree) : Prop where
  lead : x.info.origin.Reaches x.info.start
  body : x.info.start.Reaches x.info.stop
  first : ∀ y ∈ x.children.head?, y.info.start = x.info.start
  row : x.children ≠ [] → Row x.info.origin x.children x.info.stop
  mark : ∀ q : Quote, x.label = .terminal q.mark → x.info.missing = false →
    q.Marks x.info.start x.info.stop
  opened : x.label = .nonterminal .quotedValue → ∃ (q : Quote) (y : Tree),
    x.children.head? = some y ∧ y.label = .terminal q.mark ∧ y.info.missing = false
  ended : ∀ n, x.label = .nonterminal n → n ≠ .document → Ends n x.children
  filled : ∀ t, x.label = .terminal t → x.info.missing = false → t.isSolid →
    x.info.start.offset < x.info.stop.offset
  named : ∀ t, x.label = .terminal t → t.isName → Graphic x.info.start x.info.stop
  leaf : ∀ t, x.label = .terminal t → x.children = []
  tokenCost : ∀ t, x.label = .terminal t → x.info.missing = false → x.cost = 0
  ruleCost : ∀ n, x.label = .nonterminal n → x.cost = costs x.children
  ruleParts : ∀ n, x.label = .nonterminal n → ∀ y ∈ x.children, y.label ≠ .skipped

inductive Sound : Tree → Prop where
  | intro (x : Tree) (here : x.Consistent) (below : ∀ y ∈ x.children, Sound y) : Sound x

theorem Sound.here {x : Tree} (sound : x.Sound) : x.Consistent := by
  cases sound with
  | intro _ here _ => exact here

theorem Sound.child {x y : Tree} (sound : x.Sound) (member : y ∈ x.children) : y.Sound := by
  cases sound with
  | intro _ _ below => exact below y member

theorem costs_append (xs ys : List Tree) : costs (xs ++ ys) = costs xs + costs ys := by
  induction xs with
  | nil => simp [costs]
  | cons x xs ih => simp [costs, ih, Nat.add_assoc]

section Rows

variable {c d e : Cursor} {x : Tree} {xs ys : List Tree}

theorem row_nil_iff : Row c [] d ↔ c = d := by
  constructor
  · intro row
    cases row
    rfl
  · rintro rfl
    exact Row.nil

theorem row_append (first : Row c xs d) (second : Row d ys e) : Row c (xs ++ ys) e := by
  induction first with
  | nil => exact second
  | cons gap _ ih => exact Row.cons gap (ih second)

theorem row_split (row : Row c (xs ++ ys) e) : ∃ d, Row c xs d ∧ Row d ys e := by
  induction xs generalizing c with
  | nil => exact ⟨c, Row.nil, row⟩
  | cons x xs ih =>
    cases row with
    | cons gap rest =>
      obtain ⟨d, first, second⟩ := ih rest
      exact ⟨d, Row.cons gap first, second⟩

theorem row_lead (reaches : c.Reaches d) (filled : xs ≠ []) (row : Row d xs e) : Row c xs e := by
  cases row with
  | nil => exact absurd rfl filled
  | cons gap rest => exact Row.cons (reaches_trans reaches gap) rest

theorem row_single (gap : c.Reaches x.info.origin) (stop : x.info.stop = d) : Row c [x] d := by
  subst stop
  exact Row.cons gap Row.nil

theorem Sound.reaches (sound : x.Sound) : x.info.origin.Reaches x.info.stop :=
  reaches_trans sound.here.lead sound.here.body

theorem row_reaches (row : Row c xs d) (sound : ∀ x ∈ xs, x.Sound) : c.Reaches d := by
  induction row with
  | nil => exact reaches_refl _
  | @cons c d x xs gap rest ih =>
    have here := (sound x (by simp)).reaches
    have later := ih fun y member => sound y (List.mem_cons_of_mem x member)
    exact reaches_trans gap (reaches_trans here later)

theorem row_last (row : Row c xs d) (filled : xs ≠ []) :
    (xs.getLast?.map (·.info.stop)) = some d := by
  induction row with
  | nil => exact absurd rfl filled
  | @cons c d x xs gap rest ih =>
    cases xs with
    | nil =>
      obtain rfl := row_nil_iff.mp rest
      rfl
    | cons y ys => simpa using ih (by simp)

theorem row_children (sound : x.Sound) (filled : x.children ≠ []) (gap : c.Reaches x.info.origin) :
    Row c x.children x.info.stop :=
  row_lead gap filled (sound.here.row filled)

end Rows

section Parts

variable (xs : List Tree)

theorem splitTrailing_eq : splitTrailing xs =
    ((xs.reverse.dropWhile isExtra).reverse, (xs.reverse.takeWhile isExtra).reverse) := by
  have whole : xs = (xs.reverse.dropWhile isExtra).reverse ++
      (xs.reverse.takeWhile isExtra).reverse := by
    rw [← List.reverse_append, List.takeWhile_append_dropWhile, List.reverse_reverse]
  have length := congrArg List.length whole
  rw [List.length_append] at length
  simp only [splitTrailing, Prod.mk.injEq, and_true]
  generalize (xs.reverse.takeWhile isExtra).reverse = extras at whole length ⊢
  generalize (xs.reverse.dropWhile isExtra).reverse = parts at whole length ⊢
  subst whole
  simp

theorem splitTrailing_append : (splitTrailing xs).1 ++ (splitTrailing xs).2 = xs := by
  rw [splitTrailing_eq, ← List.reverse_append, List.takeWhile_append_dropWhile,
    List.reverse_reverse]

theorem splitTrailing_extras : ∀ x ∈ (splitTrailing xs).2, x.isExtra := by
  intro x member
  rw [splitTrailing_eq, List.mem_reverse] at member
  exact List.all_eq_true.mp List.all_takeWhile x member

theorem splitTrailing_part {x : Tree} (member : x ∈ xs) (plain : x.isExtra = false) :
    x ∈ (splitTrailing xs).1 := by
  rw [← splitTrailing_append xs, List.mem_append] at member
  rcases member with part | extra
  · exact part
  · rw [splitTrailing_extras xs x extra] at plain
    simp at plain

theorem splitTrailing_last {x : Tree} (last : (splitTrailing xs).1.getLast? = some x) :
    x.isExtra = false := by
  rw [splitTrailing_eq, List.getLast?_reverse] at last
  cases dropped : xs.reverse.dropWhile isExtra with
  | nil => simp [dropped] at last
  | cons y ys =>
    rw [dropped, List.head?_cons] at last
    obtain rfl := Option.some.inj last
    have stopped := List.head_dropWhile_not isExtra (l := xs.reverse) (by simp [dropped])
    simpa [dropped] using stopped

/-- The parts end with the last tree that is no extra, and hold all such trees. -/
theorem splitTrailing_plain :
    (splitTrailing xs).1.getLast? = (xs.filter fun x => !x.isExtra).getLast? ∧
      (xs.filter fun x => !x.isExtra).length ≤ (splitTrailing xs).1.length := by
  have none : (splitTrailing xs).2.filter (fun x => !x.isExtra) = [] := by
    refine List.filter_eq_nil_iff.mpr ?_
    intro x member
    simp [splitTrailing_extras xs x member]
  have parts : xs.filter (fun x => !x.isExtra) =
      (splitTrailing xs).1.filter fun x => !x.isExtra := by
    have whole := congrArg (List.filter fun x => !x.isExtra) (splitTrailing_append xs)
    rw [List.filter_append, none, List.append_nil] at whole
    exact whole.symm
  rw [parts]
  refine ⟨?_, List.length_filter_le ..⟩
  cases last : (splitTrailing xs).1.getLast? with
  | none => simp [List.getLast?_eq_none_iff.mp last]
  | some x =>
    obtain ⟨init, list⟩ := List.getLast?_eq_some_iff.mp last
    have plain := splitTrailing_last xs last
    simp [list, plain]

theorem splitTrailing_head {x : Tree} (plain : x.isExtra = false) :
    (splitTrailing (x :: xs)).1.head? = some x := by
  have whole := splitTrailing_append (x :: xs)
  have member := splitTrailing_part (x :: xs) List.mem_cons_self plain
  cases parts : (splitTrailing (x :: xs)).1 with
  | nil => simp [parts] at member
  | cons y ys =>
    rw [parts, List.cons_append] at whole
    rw [List.head?_cons, (List.cons.inj whole).1]

variable {xs}

theorem splitTrailing_part_mem {x : Tree} (member : x ∈ (splitTrailing xs).1) : x ∈ xs := by
  rw [← splitTrailing_append xs]
  exact List.mem_append_left _ member

theorem splitTrailing_extra_mem {x : Tree} (member : x ∈ (splitTrailing xs).2) : x ∈ xs := by
  rw [← splitTrailing_append xs]
  exact List.mem_append_right _ member

/-- Extras at the end of a list come after its last tree that is none. -/
theorem splitTrailing_append_subset {xs : List Tree} (ys : List Tree) {x : Tree}
    (last : xs.getLast? = some x)
    (plain : x.isExtra = false) : (splitTrailing (xs ++ ys)).2 ⊆ ys := by
  obtain ⟨init, rfl⟩ := List.getLast?_eq_some_iff.mp last
  intro y member
  rw [splitTrailing_eq, List.reverse_append, List.reverse_append, List.reverse_singleton,
    List.mem_reverse, List.singleton_append] at member
  have stops : (x :: init.reverse).takeWhile isExtra = [] := by simp [plain]
  rw [List.takeWhile_append] at member
  split at member
  · simpa [stops] using member
  · exact List.mem_reverse.mp (List.takeWhile_subset _ member)

end Parts

theorem ofToken_sound {c : Cursor} {token : Token} (follows : token.Follows c) :
    (ofToken c token).Sound := by
  refine Sound.intro _ ?_ (by simp [ofToken])
  have label : ∀ l, (ofToken c token).label = l → (∀ n, l ≠ .nonterminal n) ∧
      ∀ t, l = .terminal t → token.terminal = some t := by
    intro l same
    subst same
    cases terminal : token.terminal <;> simp [ofToken, terminal]
  constructor
  case lead => exact follows.lead
  case body => exact follows.body
  case first => simp [ofToken]
  case row => simp [ofToken]
  case mark =>
    intro q same _
    exact follows.mark q ((label _ same).2 _ rfl)
  case opened =>
    intro same
    exact absurd rfl ((label _ same).1 _)
  case ended =>
    intro n same
    exact absurd rfl ((label _ same).1 _)
  case filled =>
    intro t same _
    exact (follows.fits t ((label _ same).2 t rfl)).filled
  case named =>
    intro t same
    exact (follows.fits t ((label _ same).2 t rfl)).named
  case leaf => exact fun _ _ => rfl
  case tokenCost => exact fun _ _ _ => rfl
  case ruleCost =>
    intro n same
    exact absurd rfl ((label _ same).1 _)
  case ruleParts => simp [ofToken]

theorem missing_sound (t : Terminal) (c : Cursor) : (missing t c).Sound := by
  refine Sound.intro _ ?_ (by simp [missing])
  constructor
  case named => exact fun _ _ _ => ⟨0, (skip_zero c).symm, by simp⟩
  all_goals simp [missing, reaches_refl]

theorem markExtra_sound {x : Tree} {extra : Bool} (sound : x.Sound) : (x.markExtra extra).Sound := by
  have here := sound.here
  refine Sound.intro _ ?_ fun y member => sound.child member
  exact ⟨here.lead, here.body, here.first, here.row, here.mark, here.opened, here.ended, here.filled,
    here.named, here.leaf, here.tokenCost, here.ruleCost, here.ruleParts⟩

section Build

variable (label : Label) (place : Cursor) (xs : List Tree)

@[simp] theorem build_label : (build label place xs).label = label := rfl

@[simp] theorem build_children : (build label place xs).children = xs := rfl

@[simp] theorem build_isExtra : (build label place xs).isExtra = false := rfl

@[simp] theorem build_missing : (build label place xs).info.missing = false := rfl

variable {xs} {c d : Cursor}

theorem build_origin {x : Tree} (head : xs.head? = some x) :
    (build label place xs).info.origin = x.info.origin ∧
      (build label place xs).info.start = x.info.start := by
  simp [build, head]

theorem build_stop (row : Row c xs d) (filled : xs ≠ []) : (build label place xs).info.stop = d := by
  simp only [build, row_last row filled, Option.getD_some]

theorem build_gap (row : Row c xs d) (filled : xs ≠ []) :
    c.Reaches (build label place xs).info.origin := by
  cases row with
  | nil => exact absurd rfl filled
  | cons gap _ => exact gap

variable {label place}

theorem foldr_costs (xs : List Tree) (parts : ∀ x ∈ xs, x.label ≠ .skipped) :
    xs.foldr (fun x n => (if x.label == .skipped then 0 else x.cost) + n) 0 = costs xs := by
  induction xs with
  | nil => rfl
  | cons x xs ih =>
    have here := parts x (by simp)
    rw [List.foldr_cons, ih fun y member => parts y (List.mem_cons_of_mem x member), costs]
    simp [here]

theorem build_rule_cost (n : Nonterminal) (parts : ∀ x ∈ xs, x.label ≠ .skipped) :
    (build (.nonterminal n) place xs).cost = costs xs := by
  rw [← foldr_costs xs parts]
  simp [build, cost]

theorem build_fault_cost (faulty : label = .fault ∨ label = .skipped) :
    prices.recovery ≤ (build label place xs).cost := by
  rcases faulty with rfl | rfl
  all_goals
    simp only [build, cost, beq_self_eq_true, Bool.or_true, Bool.true_or, if_true]
    omega

theorem build_sound (row : xs ≠ [] → ∃ c d, Row c xs d) (sound : ∀ x ∈ xs, x.Sound)
    (above : ∀ t, label ≠ .terminal t)
    (parts : ∀ n, label = .nonterminal n → ∀ x ∈ xs, x.label ≠ .skipped)
    (opened : label = .nonterminal .quotedValue → ∃ (q : Quote) (y : Tree),
      xs.head? = some y ∧ y.label = .terminal q.mark ∧ y.info.missing = false)
    (ended : ∀ n, label = .nonterminal n → n ≠ .document → Ends n xs) :
    (build label place xs).Sound := by
  refine Sound.intro _ ?_ sound
  have shape : (build label place xs).info.origin.Reaches (build label place xs).info.start ∧
      (build label place xs).info.start.Reaches (build label place xs).info.stop ∧
      (xs ≠ [] → Row (build label place xs).info.origin xs (build label place xs).info.stop) := by
    cases list : xs with
    | nil => exact ⟨reaches_refl _, reaches_refl _, fun filled => absurd rfl filled⟩
    | cons x rest =>
      subst list
      obtain ⟨c, d, row⟩ := row (by simp)
      have stop := build_stop label place row (by simp)
      have head : (x :: rest).head? = some x := rfl
      obtain ⟨origin, start⟩ := build_origin label place head
      have here := (sound x (by simp)).here
      cases row with
      | cons gap tail =>
        rw [origin, start, stop]
        have later := row_reaches tail fun y member => sound y (List.mem_cons_of_mem x member)
        exact ⟨here.lead, reaches_trans here.body later, fun _ => Row.cons (reaches_refl _) tail⟩
  constructor
  case lead => exact shape.1
  case body => exact shape.2.1
  case row => exact shape.2.2
  case first =>
    intro y head
    exact (build_origin label place head).2.symm
  case mark =>
    intro q same
    exact absurd same (above _)
  case opened => exact opened
  case ended => exact ended
  case filled =>
    intro t same
    exact absurd same (above _)
  case named =>
    intro t same
    exact absurd same (above _)
  case leaf =>
    intro t same
    exact absurd same (above _)
  case tokenCost =>
    intro t same
    exact absurd same (above _)
  case ruleCost =>
    intro n same
    obtain rfl : label = .nonterminal n := same
    exact build_rule_cost n (parts n rfl)
  case ruleParts => exact parts

/-- A built tree stands in a row where its children would. -/
theorem build_row (row : Row c xs d) : Row c [build label c xs] d := by
  cases list : xs with
  | nil =>
    subst list
    obtain rfl := row_nil_iff.mp row
    exact row_single (reaches_refl c) rfl
  | cons x rest =>
    subst list
    have stop := build_stop label c row (by simp)
    cases row with
    | cons gap _ => exact row_single gap stop

end Build

/-- A tree of tokens and rules only: no content that fits no rule, and no token that the text lacks. -/
inductive Clean : Tree → Prop where
  | intro (x : Tree) (fits : x.label ≠ .fault) (present : x.info.missing = false)
      (below : ∀ y ∈ x.children, Clean y) : Clean x

theorem Clean.fits {x : Tree} (clean : x.Clean) : x.label ≠ .fault := by
  cases clean
  assumption

theorem costs_eq_zero {xs : List Tree} (free : ∀ x ∈ xs, x.cost = 0) : costs xs = 0 := by
  induction xs with
  | nil => rfl
  | cons x xs ih =>
    rw [costs, free x (by simp), ih fun y member => free y (List.mem_cons_of_mem x member)]

theorem clean_cost {x : Tree} (clean : x.Clean) (sound : x.Sound) (read : x.label ≠ .skipped) :
    x.cost = 0 := by
  induction clean with
  | intro x fits present _ ih =>
    cases label : x.label with
    | terminal t => exact sound.here.tokenCost t label present
    | nonterminal n =>
      rw [sound.here.ruleCost n label]
      apply costs_eq_zero
      intro y member
      exact ih y member (sound.child member) (sound.here.ruleParts n label y member)
    | fault => exact absurd label fits
    | skipped => exact absurd label read

end TemplateMarkup.Markup.Tree
