import TemplateMarkup.Proofs.Markup.Readers

/-!
Reading without faults. As long as no fault is met, the stack of the reader has one version, and below
it lies one pile of trees. What the reader does then is a plain machine of shifts and reductions on
that pile; where the machine comes to the end of a text, the reader does too, with the same tree.
-/
namespace TemplateMarkup.Markup

open Cursor TemplateMarkup.Markup.Tree

/-- A tree on a pile and the state after it. -/
structure Layer where
  tree : Tree
  state : State

/-- A reading that has met no fault: the trees it stands on, the last one first, the open tags, and the
number of vertices that the stack has come to. -/
structure Pile where
  layers : List Layer
  tags : Option (List Tag)
  size : Nat

/-- What becomes of a pile with the next token. -/
inductive Outcome
  | next (p : Pile)
  /-- The text is at its end. -/
  | whole (x : Option Tree)
  | fault

namespace Layer

def topState : List Layer → State
  | [] => .start
  | l :: _ => l.state

def topPlace (t : Text) : List Layer → Cursor
  | [] => Cursor.start t
  | l :: _ => l.tree.info.stop

/-- Takes trees off until so many of them are parts of a rule; gives the trees, the lowest first, and
what they stood on. `above` are the trees already taken. -/
def take : (count : Nat) → List Layer → (above : List Tree) → Option (List Tree × List Layer)
  | 0, ls, above => some (above, ls)
  | _ + 1, [], _ => none
  | count + 1, l :: ls, above =>
    take (if l.tree.isExtra then count + 1 else count) ls (l.tree :: above)

/-- Puts trees on one after the other, all with the same state after them. -/
def putAll (ls : List Layer) (state : State) (xs : List Tree) : List Layer :=
  xs.foldl (fun ls x => ⟨x, state⟩ :: ls) ls

def trees (ls : List Layer) : List Tree := (ls.map (·.tree)).reverse

end Layer

namespace Pile

open Layer

def start : Pile := ⟨[], none, 1⟩

def state (p : Pile) : State := topState p.layers

def place (t : Text) (p : Pile) : Cursor := topPlace t p.layers

def shift (p : Pile) (x : Tree) (next : State) : Pile :=
  ⟨⟨x, next⟩ :: p.layers, x.info.tags <|> p.tags, p.size + 1⟩

/-- A rule and the extras after its parts, on top of what the parts stood on. -/
def rebuild (t : Text) (p : Pile) (n : Nonterminal) (xs : List Tree) (below : List Layer) : Pile :=
  { layers := putAll below (((topState below).goto? n).getD .recovery)
      (Tree.build (.nonterminal n) (topPlace t below) (splitTrailing xs).1 :: (splitTrailing xs).2)
    tags := p.tags
    size := p.size + ((splitTrailing xs).2.length + 1) }

/-- Puts a rule in the place of its parts. -/
def reduce? (t : Text) (p : Pile) (n : Nonterminal) (count : Nat) : Option Pile :=
  (take count p.layers []).map fun taken => p.rebuild t n taken.1 taken.2

/-- Uses a token: reductions first, then the shift. -/
def use (t : Text) (x : Tree) : (fuel : Nat) → Pile → Outcome
  | 0, _ => .fault
  | fuel + 1, p =>
    match x.label with
    | .terminal a =>
      if a = .comment then .next (p.shift (x.markExtra true) p.state)
      else if p.state = .recovery then .fault
      else if p.state = .finished && a = .endOfText then .whole (Reader.wholeTree (trees p.layers ++ [x]))
      else
        match p.state.reduce? a with
        | some (n, count) =>
          match p.reduce? t n count with
          | some q => use t x fuel q
          | none => .fault
        | none =>
          match p.state.shift? a with
          | some next => .next (p.shift (x.markExtra false) next)
          | none => .fault
    | _ => .fault

/-- Where the next token is looked for. -/
def front (t : Text) (p : Pile) : Cursor := (p.place t).pastMark

def token (t : Text) (p : Pile) : Tree :=
  Tree.ofToken (p.place t) (Token.read p.state true p.tags (p.front t))

def step (t : Text) (p : Pile) : Outcome := p.use t (p.token t) (p.size + 2)

/-- Reading from a pile on meets no fault and ends with a whole tree; the tokens are those it reads. -/
inductive Reads (t : Text) : Pile → List Tree → Tree → Prop where
  | done {p : Pile} {x : Tree} (ends : p.step t = .whole (some x)) : Reads t p [p.token t] x
  | more {p q : Pile} {xs : List Tree} {x : Tree} (steps : p.step t = .next q)
      (rest : Reads t q xs x) : Reads t p (p.token t :: xs) x

/-- Reading the tokens leads from one pile to another. -/
inductive Comes (t : Text) : Pile → List Tree → Pile → Prop where
  | here {p : Pile} : Comes t p [] p
  | more {p q u : Pile} {xs : List Tree} (steps : p.step t = .next q) (rest : Comes t q xs u) :
      Comes t p (p.token t :: xs) u

section Runs

variable {t : Text} {p q : Pile} {xs ys : List Tree} {x : Tree}

theorem Comes.reads (comes : Comes t p ys q) (reads : q.Reads t xs x) : p.Reads t (ys ++ xs) x := by
  induction comes with
  | here => exact reads
  | more steps _ ih => exact .more steps (ih reads)

/-- Reading is one course, so what has been read so far is the start of all that will be read. -/
theorem Reads.remaining (reads : p.Reads t xs x) (comes : Comes t p ys q) :
    ∃ zs, xs = ys ++ zs ∧ q.Reads t zs x := by
  induction comes generalizing xs with
  | here => exact ⟨xs, rfl, reads⟩
  | more steps _ ih =>
    cases reads with
    | done ends =>
      rw [steps] at ends
      cases ends
    | more again rest =>
      rw [steps] at again
      cases again
      obtain ⟨zs, rfl, left⟩ := ih rest
      exact ⟨zs, rfl, left⟩

theorem Reads.length_pos (reads : p.Reads t xs x) : 0 < xs.length := by
  cases reads <;> simp

theorem Reads.step_cases (reads : p.Reads t xs x) :
    p.step t = .whole (some x) ∨ ∃ q, p.step t = .next q := by
  cases reads with
  | done ends => exact Or.inl ends
  | more steps _ => exact Or.inr ⟨_, steps⟩

theorem topState_putAll (ls : List Layer) (state : State) {xs : List Tree} (filled : xs ≠ []) :
    topState (putAll ls state xs) = state := by
  induction xs generalizing ls with
  | nil => exact absurd rfl filled
  | cons x xs ih =>
    cases xs with
    | nil => rfl
    | cons y xs => exact ih (⟨x, state⟩ :: ls) (by simp)

theorem reduce?_state {n : Nonterminal} {count : Nat} (reduces : p.reduce? t n count = some q) :
    ∃ b : State, q.state = (b.goto? n).getD .recovery := by
  obtain ⟨taken, -, rfl⟩ := Option.map_eq_some_iff.mp reduces
  exact ⟨topState taken.2, topState_putAll _ _ (by simp)⟩

/-- What a token does that is no fault: it is a comment, or it is shifted in the state at hand or in one
that reductions have led to. -/
structure Takes (x : Tree) (a : Terminal) (p q : Pile) : Prop where
  label : x.label = .terminal a
  tags : q.tags = (x.info.tags <|> p.tags)
  state : a = .comment ∧ q.state = p.state ∨
    ∃ s : State, s.shift? a = some q.state ∧
      (s = p.state ∨ (p.state.reduce? a).isSome ∧ ∃ b n, State.goto? b n = some s)

theorem use_next {fuel : Nat} (uses : p.use t x fuel = .next q) :
    q.place t = x.info.stop ∧ ∃ a, Takes x a p q := by
  induction fuel generalizing p with
  | zero => simp [use] at uses
  | succ fuel ih =>
    rw [use] at uses
    split at uses
    · rename_i a label
      split at uses
      · rename_i comment
        cases uses
        exact ⟨rfl, a, label, rfl, Or.inl ⟨comment, rfl⟩⟩
      · split at uses
        · cases uses
        · split at uses
          · cases uses
          · split at uses
            · rename_i n count reduces
              split at uses
              · rename_i u reduced
                obtain ⟨place, b, takes⟩ := ih uses
                obtain rfl : a = b := by simpa [label] using takes.label
                obtain ⟨c, state⟩ := reduce?_state reduced
                have tags : u.tags = p.tags := by
                  obtain ⟨taken, -, rfl⟩ := Option.map_eq_some_iff.mp reduced
                  rfl
                refine ⟨place, a, label, tags ▸ takes.tags, ?_⟩
                rcases takes.state with ⟨comment, -⟩ | ⟨s, shifts, here | ⟨-, later⟩⟩
                · contradiction
                · refine Or.inr ⟨s, shifts, Or.inr ⟨by simp [reduces], c, n, ?_⟩⟩
                  rw [here, state] at shifts ⊢
                  cases known : c.goto? n with
                  | none => simp [known, State.shift?] at shifts
                  | some s => rfl
                · exact Or.inr ⟨s, shifts, Or.inr ⟨by simp [reduces], later⟩⟩
              · cases uses
            · split at uses
              · rename_i next shifts
                cases uses
                exact ⟨rfl, a, label, rfl, Or.inr ⟨p.state, shifts, Or.inl rfl⟩⟩
              · cases uses
    · cases uses

end Runs

end Pile

namespace Stack

open Layer

/-- The vertex stands on the layers, down to the ground, and all of it is free of cost. -/
inductive Holds (t : Text) (s : Stack) : List Layer → Nat → Prop where
  | ground {i : Nat} (inside : i < s.vertices.size) (links : (s.vertex i).links = [])
      (point : s.point i = ⟨.start, Cursor.start t, 0⟩) : Holds t s [] i
  | layer {i j : Nat} {l : Layer} {ls : List Layer} (inside : i < s.vertices.size)
      (links : (s.vertex i).links = [⟨j, some l.tree⟩])
      (point : s.point i = ⟨l.state, l.tree.info.stop, 0⟩) (free : l.tree.cost = 0) (lower : j < i)
      (below : Holds t s ls j) : Holds t s (l :: ls) i

section Holds

variable {t : Text} {s s' : Stack} {ls : List Layer} {i : Nat}

theorem Holds.inside (holds : s.Holds t ls i) : i < s.vertices.size := by
  cases holds <;> assumption

theorem Holds.point (holds : s.Holds t ls i) : s.point i = ⟨topState ls, topPlace t ls, 0⟩ := by
  cases holds <;> assumption

theorem Holds.length_le (holds : s.Holds t ls i) : ls.length ≤ i := by
  induction holds with
  | ground => exact Nat.zero_le _
  | layer _ _ _ _ lower _ ih =>
    rw [List.length_cons]
    omega

theorem Holds.grow (holds : s.Holds t ls i) (larger : s.vertices.size ≤ s'.vertices.size)
    (same : ∀ j < s.vertices.size, s'.vertex j = s.vertex j) : s'.Holds t ls i := by
  induction holds with
  | ground inside links point =>
    refine .ground (by omega) ?_ ?_
    · rw [same _ inside, links]
    · rw [← point, Stack.point, Stack.point, same _ inside]
  | layer inside links point free lower _ ih =>
    refine .layer (by omega) ?_ ?_ free lower ih
    · rw [same _ inside, links]
    · rw [← point, Stack.point, Stack.point, same _ inside]

theorem Holds.congr (holds : s.Holds t ls i) (same : s'.vertices = s.vertices) : s'.Holds t ls i :=
  holds.grow (Nat.le_of_eq (congrArg Array.size same.symm)) fun j _ => by rw [vertex, vertex, same]

theorem holds_push {v : Nat} {x : Tree} (state : State) (holds : s.Holds t ls (s.version v).top)
    (free : x.cost = 0) :
    (s.push v (some x) state).Holds t (⟨x, state⟩ :: ls) s.vertices.size := by
  refine .layer (by rw [push_size]; omega) push_links ?_ free holds.inside ?_
  · rw [push_point, holds.point]
    simp [Point.next, free]
  · exact holds.grow (by rw [push_size]; omega) fun j inside => push_vertex inside

/-- Where the top of a version lies after trees were put on it, and what else changes. -/
theorem holds_pushAll {v : Nat} (state : State) (xs : List Tree) (inside : v < s.versions.length)
    (holds : s.Holds t ls (s.version v).top) (free : ∀ x ∈ xs, x.cost = 0) :
    (s.pushAll v xs state).Holds t (putAll ls state xs) ((s.pushAll v xs state).version v).top ∧
      (s.version v).status = ((s.pushAll v xs state).version v).status ∧
      (s.version v).tags = ((s.pushAll v xs state).version v).tags ∧
      (s.version v).resorts = ((s.pushAll v xs state).version v).resorts ∧
      (∀ u ≠ v, (s.pushAll v xs state).version u = s.version u) ∧
      (s.pushAll v xs state).versions.length = s.versions.length ∧
      (s.pushAll v xs state).vertices.size = s.vertices.size + xs.length := by
  induction xs generalizing s ls with
  | nil => exact ⟨holds, rfl, rfl, rfl, fun _ _ => rfl, rfl, rfl⟩
  | cons x xs ih =>
    have alike := push_version (some x) state inside
    have resorts : (s.version v).resorts = ((s.push v (some x) state).version v).resorts := by
      unfold push
      rw [version_setVersion_eq _ (by simpa using inside)]
      rfl
    have pushed := holds_push state holds (free x (by simp))
    have top : ((s.push v (some x) state).version v).top = s.vertices.size := alike.top.symm
    rw [← top] at pushed
    obtain ⟨held, status, tags, kept, others, length, size⟩ :=
      ih (by simpa using inside) pushed fun y member => free y (List.mem_cons_of_mem x member)
    refine ⟨held, alike.status.trans status, alike.tags.trans tags, resorts.trans kept, ?_, ?_, ?_⟩
    · intro u other
      exact (others u other).trans (push_version_ne other)
    · exact length.trans length_push
    · refine size.trans ?_
      rw [push_size, List.length_cons]
      omega

end Holds

section Walks

variable {t : Text} {s : Stack} {ls : List Layer} {i : Nat} {σ : Type}

theorem stepPaths_single (visit : σ → Path → σ × Verdict) (p : Path) (taken : List Path) (seen : σ)
    {l : Link} (links : (s.vertex p.vertex).links = [l]) :
    s.stepPaths visit [p] [] [] taken seen =
      ((visit seen p).1, if (visit seen p).2.stop then [] else [p.follow l],
        if (visit seen p).2.take then p :: taken else taken) := by
  simp only [stepPaths, links]
  split <;> simp

theorem stepPaths_ground (visit : σ → Path → σ × Verdict) (p : Path) (taken : List Path) (seen : σ)
    (links : (s.vertex p.vertex).links = []) :
    s.stepPaths visit [p] [] [] taken seen =
      ((visit seen p).1, [], if (visit seen p).2.take then p :: taken else taken) := by
  simp [stepPaths, links]

theorem walk_nil (visit : σ → Path → σ × Verdict) (fuel : Nat) (taken : List Path) (seen : σ) :
    s.walk visit fuel [] taken seen = (seen, taken.reverse) := by
  cases fuel <;> simp [walk]

theorem walk_take (count parts fuel : Nat) (above : List Tree) (holds : s.Holds t ls i)
    (low : parts ≤ count) (enough : ls.length < fuel) :
    match take (count - parts) ls above with
    | some (xs, below) => ∃ j, s.Holds t below j ∧
        (s.walk (fun (_ : Unit) p => ((), ⟨p.parts == count, p.parts == count⟩)) fuel
          [⟨i, above, parts⟩] [] ()).2 = [⟨j, xs, count⟩]
    | none => (s.walk (fun (_ : Unit) p => ((), ⟨p.parts == count, p.parts == count⟩)) fuel
          [⟨i, above, parts⟩] [] ()).2 = [] := by
  obtain ⟨fuel, rfl⟩ := Nat.exists_eq_succ_of_ne_zero (Nat.ne_of_gt (Nat.zero_lt_of_lt enough))
  induction holds generalizing fuel above parts with
  | @ground i inside links point =>
    rw [walk, if_neg (by simp), stepPaths_ground _ _ _ _ (by simpa using links)]
    by_cases whole : parts = count
    · subst whole
      rw [Nat.sub_self]
      exact ⟨i, .ground inside links point, by simp [walk_nil]⟩
    · obtain ⟨left, same⟩ := Nat.exists_eq_succ_of_ne_zero (n := count - parts) (by omega)
      rw [same]
      simp [take, walk_nil, whole]
  | @layer i j l ls inside links point free lower below ih =>
    rw [walk, if_neg (by simp), stepPaths_single _ _ _ _ (by simpa using links)]
    by_cases whole : parts = count
    · subst whole
      rw [Nat.sub_self]
      exact ⟨i, .layer inside links point free lower below, by simp [walk_nil]⟩
    · obtain ⟨left, same⟩ := Nat.exists_eq_succ_of_ne_zero (n := count - parts) (by omega)
      obtain ⟨fuel, rfl⟩ := Nat.exists_eq_succ_of_ne_zero (n := fuel) (by
        rw [List.length_cons] at enough
        omega)
      have differs : (parts == count) = false := by simpa using whole
      have further := ih (if l.tree.isExtra then parts else parts + 1) (l.tree :: above)
        (by split <;> omega) fuel (by simpa using enough)
      have left' : count - (if l.tree.isExtra then parts else parts + 1) =
          if l.tree.isExtra then left + 1 else left := by split <;> omega
      rw [left'] at further
      rw [same, take]
      simpa [Path.follow, differs] using further

/-- Taking the parts of a rule off a version that stands on a pile. -/
theorem pop_holds {v : Nat} (count : Nat) (holds : s.Holds t ls (s.version v).top) :
    match take count ls [] with
    | some (xs, below) => ∃ j, s.Holds t below j ∧ s.pop v count = [(j, [xs])]
    | none => s.pop v count = [] := by
  have enough : ls.length < s.vertices.size + 2 := by
    have := holds.length_le
    have := holds.inside
    omega
  have walked := walk_take count 0 (s.vertices.size + 2) [] holds (Nat.zero_le _) enough
  rw [Nat.sub_zero] at walked
  unfold pop paths
  split
  · rename_i xs below taken
    rw [taken] at walked
    obtain ⟨j, held, result⟩ := walked
    refine ⟨j, held, ?_⟩
    rw [result]
    rfl
  · rename_i taken
    rw [taken] at walked
    rw [walked]
    rfl

theorem walk_all (parts fuel : Nat) (above : List Tree) (holds : s.Holds t ls i)
    (enough : ls.length < fuel) :
    ∃ j k, (s.walk (fun (_ : Unit) p => ((), ⟨(s.vertex p.vertex).links.isEmpty, false⟩)) fuel
      [⟨i, above, parts⟩] [] ()).2 = [⟨j, trees ls ++ above, k⟩] := by
  obtain ⟨fuel, rfl⟩ := Nat.exists_eq_succ_of_ne_zero (Nat.ne_of_gt (Nat.zero_lt_of_lt enough))
  induction holds generalizing fuel above parts with
  | @ground i inside links point =>
    rw [walk, if_neg (by simp), stepPaths_ground _ _ _ _ (by simpa using links)]
    exact ⟨i, parts, by simp [walk_nil, links, trees]⟩
  | @layer i j l ls inside links point free lower below ih =>
    obtain ⟨fuel, rfl⟩ := Nat.exists_eq_succ_of_ne_zero (n := fuel) (by
      rw [List.length_cons] at enough
      omega)
    obtain ⟨bottom, k, rest⟩ := ih (if l.tree.isExtra then parts else parts + 1) (l.tree :: above)
      fuel (by simpa using enough)
    refine ⟨bottom, k, ?_⟩
    rw [walk, if_neg (by simp), stepPaths_single _ _ _ _ (by simpa using links)]
    simpa [Path.follow, links, trees] using rest

theorem popAll_holds {v : Nat} (holds : s.Holds t ls (s.version v).top) : s.popAll v = [trees ls] := by
  have enough : ls.length < s.vertices.size + 2 := by
    have := holds.length_le
    have := holds.inside
    omega
  obtain ⟨j, k, walked⟩ := walk_all 0 (s.vertices.size + 2) [] holds enough
  rw [List.append_nil] at walked
  rw [popAll, paths, walked]
  rfl

end Walks

end Stack

namespace Layer

def Free (ls : List Layer) : Prop := ∀ l ∈ ls, l.tree.cost = 0

theorem holds_free {t : Text} {s : Stack} {ls : List Layer} {i : Nat} (holds : s.Holds t ls i) :
    Free ls := by
  induction holds with
  | ground => simp [Free]
  | layer _ _ _ free _ _ ih => exact List.forall_mem_cons.mpr ⟨free, ih⟩

theorem take_free {count : Nat} {ls below : List Layer} {above xs : List Tree} (free : Free ls)
    (freeAbove : ∀ x ∈ above, x.cost = 0) (taken : take count ls above = some (xs, below)) :
    ∀ x ∈ xs, x.cost = 0 := by
  fun_induction take count ls above with
  | case1 ls above =>
    obtain ⟨rfl, rfl⟩ := Prod.mk.inj (Option.some.inj taken)
    exact freeAbove
  | case2 => simp at taken
  | case3 count l ls above ih =>
    obtain ⟨here, later⟩ := List.forall_mem_cons.mp free
    exact ih later (List.forall_mem_cons.mpr ⟨here, freeAbove⟩) taken

end Layer

theorem Tree.build_free {n : Nonterminal} {place : Cursor} {xs : List Tree}
    (free : ∀ x ∈ xs, x.cost = 0) : (Tree.build (.nonterminal n) place xs).cost = 0 := by
  have none : xs.foldr (fun x k => (if x.label == .skipped then 0 else x.cost) + k) 0 = 0 := by
    induction xs with
    | nil => rfl
    | cons x xs ih =>
      obtain ⟨here, later⟩ := List.forall_mem_cons.mp free
      rw [List.foldr_cons, ih later, here, ite_self]
  simpa [build, cost] using none

namespace Reader

open Stack Layer Pile

structure Models (t : Text) (r : Reader) (p : Pile) : Prop where
  single : r.stack.versions.length = 1
  active : (r.stack.version 0).status = .active
  tags : (r.stack.version 0).tags = p.tags
  resorts : (r.stack.version 0).resorts = none
  holds : r.stack.Holds t p.layers (r.stack.version 0).top
  size : r.stack.vertices.size = p.size
  regular : p.state ≠ .recovery
  finished : r.finished = none
  accepted : r.accepted = 0

structure Ended (r : Reader) (x : Option Tree) : Prop where
  single : r.stack.versions.length = 1
  halted : (r.stack.version 0).status = .halted
  finished : r.finished = x

section Models

variable {t : Text} {r : Reader} {p q : Pile} {x : Tree}

theorem models_start (t : Text) : Models t { stack := Stack.start t } Pile.start :=
  ⟨rfl, rfl, rfl, rfl, .ground Nat.one_pos rfl rfl, rfl, nofun, rfl, rfl⟩

theorem Models.point (models : r.Models t p) :
    r.stack.point (r.stack.version 0).top = ⟨p.state, p.place t, 0⟩ := models.holds.point

theorem Models.state (models : r.Models t p) : r.stack.state 0 = p.state :=
  congrArg Point.state models.point

theorem Models.place (models : r.Models t p) : r.stack.place 0 = p.place t :=
  congrArg Point.place models.point

theorem Models.moved (models : r.Models t p) : r.stack.hasMoved 0 = true := by
  have free : (r.stack.top 0).cost = 0 := congrArg Point.cost models.point
  simp [hasMoved, free]

theorem Models.inside (models : r.Models t p) : 0 < r.stack.versions.length := by
  rw [models.single]
  exact Nat.one_pos

/-- Only the mark that progress is counted from differs. -/
theorem Models.same {s : Stack} (models : r.Models t p) (same : r.stack.Same s)
    (resorts : (s.version 0).resorts = none) : Models t { r with stack := s } p := by
  have alike := same.alike 0
  refine ⟨same.length.trans models.single, alike.status ▸ models.active, alike.tags ▸ models.tags,
    resorts, ?_, ?_, models.regular, models.finished, models.accepted⟩
  · have holds := models.holds.congr same.vertices
    rwa [alike.top] at holds
  · exact (congrArg Array.size same.vertices).trans models.size

theorem shift_models {next : State} (models : r.Models t p) (free : x.cost = 0)
    (regular : next ≠ .recovery) :
    Models t { r with stack := consume.shift r.stack 0 x next } (p.shift x next) := by
  have alike := push_version (some x) next models.inside
  have top : ((r.stack.push 0 (some x) next).version 0).top = r.stack.vertices.size := alike.top.symm
  have holds := holds_push next models.holds free
  rw [← top] at holds
  have resorts : ((r.stack.push 0 (some x) next).version 0).resorts = none := by
    unfold push
    rw [version_setVersion_eq _ (by simpa using models.inside)]
    exact models.resorts
  have pushed : Models t { r with stack := r.stack.push 0 (some x) next }
      ⟨⟨x, next⟩ :: p.layers, p.tags, p.size + 1⟩ :=
    ⟨length_push.trans models.single, alike.status ▸ models.active, alike.tags ▸ models.tags, resorts,
      holds, push_size.trans (by rw [models.size]), regular, models.finished, models.accepted⟩
  unfold consume.shift Pile.shift
  cases x.info.tags with
  | none => exact pushed
  | some tags =>
    have version := version_setVersion_eq (s := r.stack.push 0 (some x) next)
      (fun h => { h with tags := some tags }) pushed.inside
    refine ⟨(length_setVersion _).trans pushed.single, ?_, ?_, ?_, ?_, pushed.size, regular,
      models.finished, models.accepted⟩
    · exact (congrArg Version.status version).trans pushed.active
    · exact congrArg Version.tags version
    · exact (congrArg Version.resorts version).trans pushed.resorts
    · have same := congrArg Version.top version
      dsimp only at same ⊢
      rw [same]
      exact pushed.holds.congr rfl

theorem reduce_none {n : Nonterminal} {count : Nat} (models : r.Models t p)
    (none : p.reduce? t n count = none) : reduce r.stack 0 n count = r.stack := by
  have popped := pop_holds count models.holds
  rw [Pile.reduce?, Option.map_eq_none_iff] at none
  rw [none] at popped
  rw [reduce, popped]
  rfl

theorem Models.stands (models : r.Models t p) :
    r.stack.Stands 0 ⟨p.place t, (r.stack.top 0).cost, (r.stack.version 0).tags⟩ :=
  At.stands ⟨models.active, models.place⟩ (models.state ▸ models.regular)

/-- A reduction of the only version adds one more, at the vertex below the parts. -/
theorem reduce_single {count : Nat} {xs : List Tree} {below : List Layer} (n : Nonterminal)
    (models : r.Models t p) (taken : take count p.layers [] = some (xs, below)) :
    ∃ j, r.stack.Holds t below j ∧ reduce r.stack 0 n count = (r.stack.fork 0 j).pushAll 1
      (Tree.build (.nonterminal n) (topPlace t below) (splitTrailing xs).1 :: (splitTrailing xs).2)
      (((topState below).goto? n).getD .recovery) := by
  have popped := pop_holds count models.holds
  rw [taken] at popped
  obtain ⟨j, holds, popped⟩ := popped
  have state : (r.stack.vertex j).state = topState below := congrArg Point.state holds.point
  have place : (r.stack.vertex j).place = topPlace t below := congrArg Point.place holds.point
  obtain ⟨v, versions⟩ := List.length_eq_one_iff.mp models.single
  have version : r.stack.version 0 = v := by simp [Stack.version, versions]
  have active : v.status = .active := version ▸ models.active
  have lively : v.isHalted = false := by simp [Version.isHalted, active]
  -- there is no other version that the new one could join
  refine ⟨j, holds, ?_⟩
  rw [reduce, popped, List.foldl_cons, List.foldl_nil, reduceGroup]
  simp [versions, lively, maxVersions, maxOverflow, chooseTree, state, place, mergeInto]

/-- A reduction adds one version, which stands on the reduced pile. -/
theorem reduce_models {n : Nonterminal} {count : Nat} (models : r.Models t p) (valid : r.Valid t 0)
    (complete : p.state.completed? = some (n, count)) (reduces : p.reduce? t n count = some q) :
    added? r.stack (reduce r.stack 0 n count) = some 1 ∧
      Models t { r with stack := (reduce r.stack 0 n count).replace 0 1 } q ∧
      Valid t 0 { r with stack := (reduce r.stack 0 n count).replace 0 1 } := by
  obtain ⟨⟨xs, below⟩, taken, rfl⟩ := Option.map_eq_some_iff.mp reduces
  obtain ⟨j, holds, reduced⟩ := reduce_single n models taken
  have free := take_free (holds_free models.holds) (by simp) taken
  obtain ⟨v, versions⟩ := List.length_eq_one_iff.mp models.single
  have version : r.stack.version 0 = v := by simp [Stack.version, versions]
  have forked : (r.stack.fork 0 j).version 1 = ⟨j, v.faultProgress, v.tags, .active, none⟩ := by
    simp [fork, add, Stack.version, versions]
  have length : (r.stack.fork 0 j).versions.length = 2 := by simp [fork, add, versions]
  have frees : ∀ x ∈ Tree.build (.nonterminal n) (topPlace t below) (splitTrailing xs).1 ::
      (splitTrailing xs).2, x.cost = 0 := by
    refine List.forall_mem_cons.mpr ⟨build_free ?_, ?_⟩
    · exact fun x member => free x (splitTrailing_part_mem member)
    · exact fun x member => free x (splitTrailing_extra_mem member)
  have based : (r.stack.fork 0 j).Holds t below ((r.stack.fork 0 j).version 1).top := by
    rw [forked]
    exact holds.congr rfl
  obtain ⟨held, status, tags, resorts, others, size, grown⟩ := holds_pushAll
    (((topState below).goto? n).getD .recovery) _ (by omega) based frees
  rw [← reduced, forked] at status tags resorts
  rw [← reduced] at held size grown others
  have pair : (reduce r.stack 0 n count).versions.length = 2 := size.trans length
  have first : (reduce r.stack 0 n count).version 0 = v := by
    rw [others 0 (by omega), fork, version_add_lt _ models.inside, version]
  have replaced : ((reduce r.stack 0 n count).replace 0 1).version 0 =
      { (reduce r.stack 0 n count).version 1 with resorts := none } := by
    unfold replace
    rw [if_neg (by omega), version_remove_lt Nat.one_pos, version_setVersion_eq _ (by omega), first,
      ← resorts, ← version, models.resorts]
    rfl
  obtain ⟨G, sound⟩ := valid.stack
  obtain ⟨G', _, larger, adds⟩ := reduce_spec sound models.stands (models.state ▸ complete)
  have validNext : Valid t 0 { r with stack := (reduce r.stack 0 n count).replace 0 1 } :=
    ⟨⟨G', (replace_sound (v := 0) (w := 1) larger).1⟩, valid.finished⟩
  refine ⟨by simp [added?, pair, models.single], ?_, validNext⟩
  constructor
  case regular =>
    have regular := (adds.added 1 (Nat.le_of_eq models.single) (by omega)).regular
    have state : (reduce r.stack 0 n count).state 1 = topState _ := congrArg Point.state held.point
    rwa [state] at regular
  case single => exact (replace_length Nat.one_pos (by omega)).trans (by rw [pair])
  case active =>
    dsimp only
    rw [replaced]
    exact status.symm
  case tags =>
    dsimp only
    rw [replaced]
    exact tags.symm.trans (version ▸ models.tags)
  case resorts =>
    dsimp only
    rw [replaced]
  case holds =>
    dsimp only
    rw [replaced]
    exact held.congr rfl
  case size =>
    refine (show _ = (reduce r.stack 0 n count).vertices.size from rfl).trans (grown.trans ?_)
    show r.stack.vertices.size + _ = _
    rw [models.size]
    rfl
  case finished => exact models.finished
  case accepted => exact models.accepted

theorem accept_models (models : r.Models t p) (free : x.cost = 0) :
    (accept r 0 x).Ended (wholeTree (trees p.layers ++ [x])) := by
  have holds := holds_push .start models.holds free
  have alike := push_version (some x) .start models.inside
  have top : ((r.stack.push 0 (some x) .start).version 0).top = r.stack.vertices.size := alike.top.symm
  rw [← top] at holds
  have popped := popAll_holds holds
  have rows : trees (⟨x, .start⟩ :: p.layers) = trees p.layers ++ [x] := by simp [trees]
  rw [rows] at popped
  have halted := version_setVersion_eq (s := r.stack.push 0 (some x) .start)
    (fun h => { h with status := .halted }) (by simpa using models.inside)
  have single : ((r.stack.push 0 (some x) .start).halt 0).versions.length = 1 := by
    rw [halt, length_setVersion, length_push, models.single]
  unfold accept
  dsimp only
  rw [popped, List.foldl_cons, List.foldl_nil, finish]
  split
  · rename_i none
    exact ⟨single, congrArg Version.status halted, models.finished.trans none.symm⟩
  · rename_i y found
    refine ⟨single, congrArg Version.status halted, ?_⟩
    rw [models.finished, found]

/-- The reader with its version set to work again. -/
def woken (r : Reader) : Reader :=
  { r with stack := r.stack.setVersion 0 fun h => { h with status := .active } }

/-- How a reader leaves its pile at a token: it is given up, or it waits at the token. -/
inductive Strays (t : Text) (x : Tree) (r : Reader) : Prop where
  | halted (ended : r.Ended none)
  | waits {p : Pile} (single : r.stack.versions.length = 1)
      (status : (r.stack.version 0).status = .paused x) (models : r.woken.Models t p)

def Follows (t : Text) (x : Tree) (r : Reader) : Outcome → Prop
  | .next q => r.Models t q
  | .whole y => r.Ended y
  | .fault => r.Strays t x

theorem wait_strays (models : r.Models t p) (mark : Nat) :
    Strays t x { r with stack := r.stack.setVersion 0 fun h =>
      { h with status := .paused x, faultProgress := mark } } := by
  have paused := version_setVersion_eq (s := r.stack)
    (fun h => { h with status := .paused x, faultProgress := mark }) models.inside
  have single := (length_setVersion (s := r.stack) (v := 0)
    (fun h => { h with status := .paused x, faultProgress := mark })).trans models.single
  refine .waits (p := p) single (congrArg Version.status paused) ?_
  have version := version_setVersion_eq (v := 0) (fun h => { h with status := .active })
    (Nat.lt_of_lt_of_eq Nat.one_pos single.symm)
  rw [paused] at version
  constructor
  case single => exact (length_setVersion _).trans single
  case active => exact congrArg Version.status version
  case tags => exact (congrArg Version.tags version).trans models.tags
  case resorts => exact (congrArg Version.resorts version).trans models.resorts
  case holds =>
    have top := congrArg Version.top version
    dsimp only [woken] at top ⊢
    rw [top]
    exact models.holds.congr rfl
  case size => exact models.size
  case regular => exact models.regular
  case finished => exact models.finished
  case accepted => exact models.accepted

/-- The reader uses a token as its pile does. -/
theorem consume_follows (fuel : Nat) (models : r.Models t p) (valid : r.Valid t 0) (free : x.cost = 0) :
    (consume 0 x fuel r).Follows t x (p.use t x fuel) := by
  induction fuel generalizing r p with
  | zero =>
    have halted := version_setVersion_eq (s := r.stack) (fun h => { h with status := .halted })
      models.inside
    exact .halted ⟨(length_setVersion _).trans models.single, congrArg Version.status halted,
      models.finished⟩
  | succ fuel ih =>
    have other : Strays t x (if p.state = .recovery then recover r 0 x else
        { r with stack := r.stack.setVersion 0 fun h =>
          { h with status := .paused x, faultProgress := (r.stack.top 0).progress } }) := by
      rw [if_neg models.regular]
      exact wait_strays models _
    rw [consume, use]
    dsimp only
    rw [models.state]
    cases label : x.label with
    | nonterminal n => exact other
    | fault => exact other
    | skipped => exact other
    | terminal a =>
      dsimp only
      by_cases comment : a = .comment
      · rw [if_pos comment, if_pos comment]
        exact shift_models (x := x.markExtra true) models free models.regular
      rw [if_neg comment, if_neg comment, if_neg models.regular, if_neg models.regular]
      by_cases ended : (p.state = .finished && a = .endOfText) = true
      · rw [if_pos ended, if_pos ended]
        exact accept_models models free
      rw [if_neg ended, if_neg ended]
      cases reduction : p.state.reduce? a with
      | none =>
        dsimp only
        cases shifts : p.state.shift? a with
        | none => exact wait_strays models _
        | some next =>
          have regular := State.after?_regular (l := .terminal a) shifts
          exact shift_models (x := x.markExtra false) models free regular
      | some rule =>
        obtain ⟨n, count⟩ := rule
        dsimp only
        cases reduces : p.reduce? t n count with
        | none =>
          rw [reduce_none models reduces]
          simp only [added?, Nat.lt_irrefl, if_false]
          exact wait_strays models _
        | some q =>
          obtain ⟨added, modelsNext, validNext⟩ :=
            reduce_models models valid (reduce?_completed reduction) reduces
          rw [added]
          exact ih modelsNext validNext

theorem advance_follows (models : r.Models t p) (valid : r.Valid t 0) :
    (r.advance 0).Follows t (p.token t) (p.step t) := by
  unfold advance
  dsimp only
  rw [models.state, models.place, models.moved, models.tags, models.size]
  exact consume_follows _ models valid rfl

/-- How a turn of the reader ends: it has read tokens, it has come to the end, or it has left its pile. -/
inductive Turns (t : Text) (p : Pile) (r : Reader) : Prop where
  | goes {xs : List Tree} {q : Pile} (filled : xs ≠ []) (comes : Comes t p xs q) (models : r.Models t q)
  | ends {xs : List Tree} {q : Pile} {y : Option Tree} (comes : Comes t p xs q)
      (whole : q.step t = .whole y) (ended : r.Ended y)
  | strays {xs : List Tree} {q : Pile} (comes : Comes t p xs q) (fault : q.step t = .fault)
      (strays : r.Strays t (q.token t))

theorem Turns.after {r' : Reader} (steps : p.step t = .next q) (turns : r'.Turns t q) :
    r'.Turns t p := by
  cases turns with
  | goes filled comes models => exact .goes (by simp) (.more steps comes) models
  | ends comes whole ended => exact .ends (.more steps comes) whole ended
  | strays comes fault strays => exact .strays (.more steps comes) fault strays

theorem Models.isActive (models : r.Models t p) : r.stack.isActive 0 = true := by
  simp [Stack.isActive, Version.isActive, models.active]

theorem Ended.isActive {y : Option Tree} (ended : r.Ended y) : r.stack.isActive 0 = false := by
  simp [Stack.isActive, Version.isActive, ended.halted]

theorem Strays.single (strays : r.Strays t x) : r.stack.versions.length = 1 := by
  cases strays with
  | halted ended => exact ended.single
  | waits single _ _ => exact single

theorem Strays.isActive (strays : r.Strays t x) : r.stack.isActive 0 = false := by
  cases strays with
  | halted ended => exact ended.isActive
  | waits _ status _ => simp [Stack.isActive, Version.isActive, status]

theorem advanceVersion_idle {v : Nat} (idle : r.stack.isActive v = false) (fuel reached : Nat) :
    advanceVersion v fuel r reached = (r, reached) := by
  cases fuel <;> simp [advanceVersion, idle]

theorem advanceVersion_turns (fuel reached : Nat) (models : r.Models t p) (valid : r.Valid t 0) :
    (advanceVersion 0 (fuel + 1) r reached).1.Turns t p := by
  induction fuel generalizing r p with
  | zero =>
    rw [advanceVersion, if_pos models.isActive]
    dsimp only
    have stays : ∀ b : Bool, (if b = true then (r.advance 0, ((r.advance 0).stack.place 0).offset)
        else advanceVersion 0 0 (r.advance 0) reached).1 = r.advance 0 := by
      intro b
      cases b <;> rfl
    rw [stays]
    have follows := advance_follows models valid
    cases step : p.step t with
    | next q =>
      rw [step] at follows
      exact .goes (by simp) (.more step .here) follows
    | whole y =>
      rw [step] at follows
      exact .ends .here step follows
    | fault =>
      rw [step] at follows
      exact .strays .here step follows
  | succ fuel ih =>
    rw [advanceVersion, if_pos models.isActive]
    dsimp only
    have follows := advance_follows models valid
    cases step : p.step t with
    | next q =>
      rw [step] at follows
      split
      · exact .goes (by simp) (.more step .here) follows
      · exact (ih follows (advance_valid (Nat.zero_le _) valid models.isActive)).after step
    | whole y =>
      rw [step] at follows
      rw [advanceVersion_idle follows.isActive]
      split <;> exact .ends .here step follows
    | fault =>
      rw [step] at follows
      rw [advanceVersion_idle follows.isActive]
      split <;> exact .strays .here step follows

theorem advanceAll_single (effort fuel reached : Nat) (inside : 0 < r.stack.versions.length)
    (single : (advanceVersion 0 effort r reached).1.stack.versions.length = 1) :
    (advanceAll effort (fuel + 1) 0 r reached).1 = (advanceVersion 0 effort r reached).1 := by
  rw [advanceAll, if_pos inside]
  dsimp only
  cases fuel with
  | zero => rfl
  | succ fuel => rw [advanceAll, if_neg (by omega)]

/-- What becomes of the one version of a reader when versions are swept: only its mark may change. -/
theorem sweep_single {s : Stack} (fuel : Nat) (single : s.versions.length = 1)
    (live : (s.version 0).isHalted = false) :
    ∃ least, sweep (fuel + 2) 0 s none = ((s.progress 0).2, least) := by
  have length : ((s.progress 0).2).versions.length = 1 := (progress_same s 0).length.trans single
  rw [sweep, if_neg (by omega), if_neg (by simp [live])]
  dsimp only [standing]
  rw [length, sweepVersion, if_pos (Nat.le_refl _)]
  dsimp only
  rw [sweep, if_pos (by omega)]
  exact ⟨_, rfl⟩

theorem condense_models (models : r.Models t p) : (condense r).1.Models t p := by
  have live : (r.stack.version 0).isHalted = false := by simp [Version.isHalted, models.active]
  obtain ⟨least, swept⟩ := sweep_single 2 models.single live
  have same := progress_same r.stack 0
  have resorts : ((r.stack.progress 0).2.version 0).resorts = none := by
    unfold Stack.progress
    dsimp only
    rw [version_setVersion_eq _ models.inside]
    exact models.resorts
  have after := models.same same resorts
  unfold condense
  rw [models.single]
  dsimp only
  rw [show 2 * 1 + 2 = 2 + 2 from rfl, swept]
  dsimp only
  rw [List.take_of_length_le (by rw [after.single]; decide), after.single, resume, if_neg (by omega)]
  have active : ((r.stack.progress 0).2.version 0).status = .active := after.active
  dsimp only
  rw [active]
  dsimp only
  rw [resume, if_pos (Nat.le_refl _)]
  exact after

/-- No version is left of a reader that has come to an end. -/
theorem condense_ended {y : Option Tree} (ended : r.Ended y) :
    ∃ r', condense r = (r', none) ∧ r'.stack.versions = [] ∧ r'.finished = y := by
  obtain ⟨v, versions⟩ := List.length_eq_one_iff.mp ended.single
  have version : r.stack.version 0 = v := by simp [Stack.version, versions]
  have halted : (r.stack.version 0).isHalted = true := by simp [Version.isHalted, ended.halted]
  have empty : (r.stack.remove 0).versions = [] := by simp [Stack.remove, versions]
  unfold condense
  dsimp only
  rw [ended.single, sweep, if_neg (by rw [ended.single]; omega), if_pos halted, sweep,
    if_pos (by simp [empty])]
  dsimp only
  rw [empty, List.take_nil, List.length_nil, resume, if_pos (Nat.le_refl _)]
  exact ⟨_, rfl, rfl, ended.finished⟩

/-- The reader comes to the end of a text that its pile comes to the end of. -/
theorem run_reads (effort fuel reached : Nat) {xs : List Tree} (models : r.Models t p)
    (valid : r.Valid t 0) (reads : p.Reads t xs x) (enough : xs.length ≤ fuel) :
    (run (effort + 1) fuel r reached).finished = some x := by
  induction fuel generalizing r p xs reached with
  | zero => exact absurd enough (Nat.not_le_of_gt reads.length_pos)
  | succ fuel ih =>
    rw [run]
    dsimp only
    have turns := advanceVersion_turns effort reached models valid
    cases turns with
    | goes filled comes after =>
      rename_i ys q
      obtain ⟨zs, rfl, rest⟩ := reads.remaining comes
      have validAfter := advanceVersion_valid (v := 0) (Nat.zero_le _) (effort + 1) reached valid
      rw [advanceAll_single _ _ _ models.inside after.single]
      have condensed := condense_models after
      rw [condensed.finished, after.single]
      have positive := List.length_pos_iff.mpr filled
      rw [List.length_append] at enough
      exact ih _ condensed (condense_valid (Nat.zero_le _) validAfter) rest (by omega)
    | ends comes whole ended =>
      obtain ⟨zs, rfl, rest⟩ := reads.remaining comes
      rw [advanceAll_single _ _ _ models.inside ended.single]
      rcases rest.step_cases with same | ⟨_, other⟩
      · rw [whole] at same
        cases same
        obtain ⟨r', condensed, -, finished⟩ := condense_ended ended
        rw [condensed]
        dsimp only
        rw [finished]
        exact finished
      · rw [whole] at other
        cases other
    | strays comes fault strays =>
      obtain ⟨zs, rfl, rest⟩ := reads.remaining comes
      rcases rest.step_cases with other | ⟨_, other⟩
      all_goals
        rw [fault] at other
        cases other

end Models

end Reader

end TemplateMarkup.Markup
