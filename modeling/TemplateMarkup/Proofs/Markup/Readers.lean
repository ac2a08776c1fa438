import TemplateMarkup.Proofs.Markup.Repairs

/-!
Every reading is sound. Each step of the reader keeps its stack sound, and each whole tree that it
finishes is a sound tree of the text that costs at least `k`. With no bound on the cost this holds of
every text from the start.
-/
namespace TemplateMarkup.Markup

open Cursor TemplateMarkup.Markup.Tree

namespace Tree

def lastPlain (xs : List Tree) : Option Tree := (xs.reverse.dropWhile isExtra).head?

theorem lastPlain_cons (x : Tree) (xs : List Tree) : lastPlain (x :: xs) =
    (lastPlain xs <|> if x.isExtra then none else some x) := by
  rw [lastPlain, lastPlain, List.reverse_cons, List.dropWhile_append]
  cases dropped : xs.reverse.dropWhile isExtra with
  | nil => by_cases extra : x.isExtra <;> simp [extra]
  | cons y ys => simp

theorem lastPlain_concat (x : Tree) (xs : List Tree) : lastPlain (xs ++ [x]) =
    if x.isExtra then lastPlain xs else some x := by
  rw [lastPlain, lastPlain, List.reverse_append, List.reverse_singleton, List.singleton_append,
    List.dropWhile_cons]
  split <;> rfl

end Tree

/-- A sound tree of the whole text that costs at least `k`. -/
structure Whole (t : Text) (k : Nat) (x : Tree) : Prop where
  sound : x.Sound
  inside : x.info.origin.In t
  cost : k ≤ x.cost
  label : x.label = .nonterminal .document ∨ x.label = .fault

namespace Stack

section Ends

variable {t : Text} {k : Nat} {G : Nat → Prop} {s : Stack} {v : Nat} {c : Cursor}

/-- In a finished document, everything after the document is an extra. -/
theorem leads_finished {i : Nat} {p : Path} (graph : s.Graph t G) (top : G i)
    (finished : (s.point i).state = .finished) (leads : s.Leads i p) :
    (lastPlain p.trees = none → (s.point p.vertex).state = .finished) ∧
      ∀ x ∈ lastPlain p.trees, x.label = .nonterminal .document := by
  induction leads with
  | here => exact ⟨fun _ => finished, by simp [lastPlain]⟩
  | @follow p l path link ih =>
    have joined := graph.joined (leads_spans graph top path).inside l link
    cases tree : l.tree with
    | none =>
      rw [tree] at joined
      have regular := (leads_regular graph top (by rw [finished]; simp) path).1
      exact absurd joined.1 regular
    | some x =>
      rw [tree] at joined
      simp only [Path.follow, tree, lastPlain_cons]
      cases last : lastPlain p.trees with
      | some y =>
        refine ⟨by simp, ?_⟩
        intro z same
        have : y = z := by simpa using same
        exact this ▸ ih.2 y last
      | none =>
        have state := ih.1 last
        rcases joined.step with recovery | ⟨extra, same⟩ | ⟨plain, step, _⟩
        · rw [state] at recovery
          simp at recovery
        · exact ⟨fun _ => same.trans state, by simp [extra]⟩
        · refine ⟨by simp [plain], ?_⟩
          intro z same
          have equal : x = z := by simpa [plain] using same
          rw [state] at step
          rw [← equal]
          exact State.moves_finished (State.moves_of_after? step)

/-- Paths down from a tree that was just put on. -/
theorem leads_pushed {x : Tree} {state : State} {p : Path}
    (inner : ∀ q, s.Leads (s.version v).top q → q.vertex < s.vertices.size)
    (leads : (s.push v (some x) state).Leads s.vertices.size p) :
    p.vertex = s.vertices.size ∧ p.trees = [] ∨
      ∃ q, s.Leads (s.version v).top q ∧ p.vertex = q.vertex ∧ p.trees = q.trees ++ [x] := by
  induction leads with
  | here => exact Or.inl ⟨rfl, rfl⟩
  | @follow p l _ link ih =>
    right
    rcases ih with ⟨vertex, trees⟩ | ⟨q, path, vertex, trees⟩
    · rw [vertex, push_links] at link
      obtain rfl := List.mem_singleton.mp link
      exact ⟨_, Leads.here, rfl, by simp [Path.follow, trees]⟩
    · rw [vertex, push_vertex (inner q path)] at link
      refine ⟨q.follow l, Leads.follow path link, ?_, ?_⟩
      · cases tree : l.tree <;> simp [Path.follow, tree]
      · cases tree : l.tree <;> simp [Path.follow, tree, trees]

theorem leads_inner {i : Nat} {p : Path} (graph : s.Graph t G) (top : G i)
    (leads : s.Leads i p) : p.vertex < s.vertices.size :=
  graph.bound (leads_spans graph top leads).inside

/-- The rows of trees on a version that a tree was just put on end with that tree. -/
theorem mem_popAll_pushed {x : Tree} {state : State} {xs : List Tree}
    (inside : v < s.versions.length)
    (inner : ∀ q, s.Leads (s.version v).top q → q.vertex < s.vertices.size)
    (member : xs ∈ (s.push v (some x) state).popAll v) :
    xs = [] ∨ ∃ q, s.Leads (s.version v).top q ∧ (s.vertex q.vertex).links = [] ∧
      xs = q.trees ++ [x] := by
  obtain ⟨p, leads, bottom, rfl⟩ := mem_popAll member
  have alike := push_version (some x) state inside
  have top : ((s.push v (some x) state).version v).top = s.vertices.size := alike.top.symm
  rw [top] at leads
  rcases leads_pushed inner leads with ⟨_, trees⟩ | ⟨q, path, vertex, trees⟩
  · exact Or.inl trees
  · rw [vertex, push_vertex (inner q path)] at bottom
    exact Or.inr ⟨q, path, bottom, trees⟩

end Ends

end Stack

namespace Reader

open Stack

theorem wholeTree_split {xs : List Tree} {y : Tree} (found : wholeTree xs = some y) :
    ∃ before root after, xs = before ++ root :: after ∧ lastPlain xs = some root ∧
      y = Tree.build root.label root.info.start (before ++ root.children ++ after) := by
  unfold wholeTree at found
  dsimp only at found
  split at found
  · simp at found
  · rename_i root before dropped
    refine ⟨before.reverse, root, (xs.reverse.takeWhile isExtra).reverse, ?_, ?_,
      (Option.some.inj found).symm⟩
    · have whole := List.takeWhile_append_dropWhile (p := isExtra) (l := xs.reverse)
      rw [dropped] at whole
      have := congrArg List.reverse whole
      simpa using this.symm
    · rw [lastPlain, dropped, List.head?_cons]

/-- What a whole tree is made of: the trees of a path to the bottom, with the last one that is no
extra as its root. -/
theorem wholeTree_whole {t : Text} {k : Nat} {c d : Cursor} {xs : List Tree} {y : Tree}
    (row : Row c xs d) (inside : c.In t) (sound : ∀ x ∈ xs, x.Sound)
    (small : k ≤ prices.recovery)
    (root : ∀ x ∈ lastPlain xs, x.label = .fault ∨ x.label = .nonterminal .document ∧
      (∀ z ∈ xs, z.label ≠ .skipped) ∧ k ≤ costs xs)
    (found : wholeTree xs = some y) : Whole t k y := by
  obtain ⟨before, r, after, rfl, last, rfl⟩ := wholeTree_split found
  have soundRoot := sound r (by simp)
  have label := root r last
  -- the children of the root stand in its place; if it has none, what follows moves up
  obtain ⟨e, rowBefore, rowRest⟩ := row_split row
  have rowInner : ∃ e', Row c (before ++ r.children ++ after) e' := by
    cases rowRest with
    | cons gap rest =>
      by_cases leaf : r.children = []
      · rw [leaf, List.append_nil]
        by_cases ended : after = []
        · rw [ended, List.append_nil]
          exact ⟨e, rowBefore⟩
        · exact ⟨d, row_append rowBefore
            (row_lead (reaches_trans gap soundRoot.reaches) ended rest)⟩
      · exact ⟨d, row_append (row_append rowBefore (row_children soundRoot leaf gap)) rest⟩
  obtain ⟨e', rowInner⟩ := rowInner
  have soundInner : ∀ x ∈ before ++ r.children ++ after, x.Sound := by
    intro x member
    rcases List.mem_append.mp member with early | late
    · rcases List.mem_append.mp early with first | child
      · exact sound x (by simp [first])
      · exact soundRoot.child child
    · exact sound x (by simp [late])
  have insideRoot : r.info.start.In t := by
    have reaches := row_reaches rowBefore fun x member => sound x (by simp [member])
    cases rowRest with
    | cons gap _ =>
      exact in_reaches inside (reaches_trans reaches (reaches_trans gap soundRoot.here.lead))
  have parts : ∀ n, r.label = .nonterminal n →
      ∀ x ∈ before ++ r.children ++ after, x.label ≠ .skipped := by
    intro n rule x member
    rcases label with fault | ⟨_, plain, _⟩
    · rw [fault] at rule
      simp at rule
    · rcases List.mem_append.mp member with early | late
      · rcases List.mem_append.mp early with first | child
        · exact plain x (by simp [first])
        · exact soundRoot.here.ruleParts n rule x child
      · exact plain x (by simp [late])
  constructor
  case sound =>
    refine build_sound (fun _ => ⟨c, e', rowInner⟩) soundInner ?_ parts ?_ ?_
    · intro terminal same
      rcases label with fault | ⟨document, _⟩
      · simp [fault] at same
      · simp [document] at same
    · intro quoted
      rcases label with fault | ⟨document, _⟩
      · simp [fault] at quoted
      · simp [document] at quoted
    · intro n same other
      rcases label with fault | ⟨document, _⟩
      · simp [fault] at same
      · exact absurd (Label.nonterminal.inj (same.symm.trans document)) other
  case inside =>
    by_cases empty : before ++ r.children ++ after = []
    · rw [empty]
      exact insideRoot
    · exact in_reaches inside (build_gap _ _ rowInner empty)
  case cost =>
    rcases label with fault | ⟨document, _, enough⟩
    · exact Nat.le_trans small (build_fault_cost (Or.inl fault))
    · rw [document, build_rule_cost _ (parts _ document), costs_append, costs_append,
        ← soundRoot.here.ruleCost _ document]
      rw [costs_append, costs] at enough
      omega
  case label =>
    rcases label with fault | ⟨document, _⟩
    · exact Or.inr fault
    · exact Or.inl document

/-- A reader with a sound stack whose whole trees are sound. -/
structure Valid (t : Text) (k : Nat) (r : Reader) : Prop where
  stack : ∃ G, r.stack.Sound t k G
  finished : ∀ x ∈ r.finished, Whole t k x

section Accept

variable {t : Text} {k : Nat} {G : Nat → Prop} {r : Reader} {v : Nat} {c : Cursor} {x : Tree}

theorem halted_sound {s : Stack} {tree : Option Tree} {state : State} (graph : s.Graph t G)
    (others : ∀ u ≠ v, (s.version u).isHalted = false → s.Fits k G (s.version u)) :
    ((s.push v tree state).halt v).Sound t k G := by
  have same : ∀ {i}, G i → ((s.push v tree state).halt v).vertex i = s.vertex i :=
    fun inside => push_vertex (graph.bound inside)
  have larger : s.vertices.size ≤ ((s.push v tree state).halt v).vertices.size := by
    show s.vertices.size ≤ (s.push v tree state).vertices.size
    rw [push_size]
    omega
  apply sound_of_versions (graph.of_vertices larger same)
  intro u live
  by_cases equal : u = v
  · subst equal
    have inside := version_lt live
    rw [halt, version_setVersion_eq _ (by simpa [halt] using inside)] at live
    simp [Version.isHalted] at live
  · rw [halt, version_setVersion_ne _ equal, push_version_ne equal] at live ⊢
    exact fits_covers ⟨id, fun inside => congrArg Vertex.point (same inside)⟩ (others u equal live)

theorem finish_valid {xs : List Tree} (valid : r.Valid t k)
    (whole : ∀ y, wholeTree xs = some y → Whole t k y) : (finish r xs).Valid t k := by
  unfold finish
  split
  · exact valid
  · rename_i y found
    refine ⟨valid.stack, ?_⟩
    intro best same
    obtain rfl := Option.some.inj same
    split
    · exact whole y found
    · rename_i old finished
      split
      · exact whole y found
      · exact valid.finished old finished

theorem accept_valid (graph : r.stack.Graph t G)
    (others : ∀ u ≠ v, (r.stack.version u).isHalted = false →
      r.stack.Fits k G (r.stack.version u))
    (finished : ∀ y ∈ r.finished, Whole t k y)
    (trees : ∀ xs ∈ (r.stack.push v (some x) .start).popAll v, ∀ y, wholeTree xs = some y →
      Whole t k y) : (accept r v x).Valid t k := by
  have all : ∀ (rows : List (List Tree)) (r : Reader), r.Valid t k →
      (∀ xs ∈ rows, ∀ y, wholeTree xs = some y → Whole t k y) →
      (rows.foldl finish r).Valid t k := by
    intro rows
    induction rows with
    | nil => exact fun r valid _ => valid
    | cons xs rows ih =>
      intro r valid whole
      exact ih _ (finish_valid valid (whole xs (by simp)))
        fun ys member => whole ys (List.mem_cons_of_mem xs member)
  exact all _ _ ⟨⟨G, halted_sound graph others⟩, finished⟩ trees

theorem lookahead_end (reads : Lookahead c x) (label : x.label = .terminal .endOfText) :
    x.isExtra = true ∧ x.cost = 0 := by
  obtain ⟨token, _, rfl⟩ := reads
  refine ⟨?_, rfl⟩
  cases terminal : token.terminal with
  | none => simp [ofToken, terminal] at label
  | some s =>
    have same : s = .endOfText := by simpa [ofToken, terminal] using label
    simp [ofToken, isExtra, terminal, same]

/-- Acceptance in the finished state: the document is whole. -/
theorem accept_finished (small : k ≤ prices.recovery) (sound : r.stack.Sound t k G)
    (finished : ∀ y ∈ r.finished, Whole t k y) (stands : r.stack.At v c) (reads : Lookahead c x)
    (label : x.label = .terminal .endOfText) (state : r.stack.state v = .finished) :
    (accept r v x).Valid t k := by
  have fits := stands.fits sound
  obtain ⟨soundX, origin⟩ := lookahead_sound reads
  obtain ⟨extra, free⟩ := lookahead_end reads label
  refine accept_valid sound.graph (sound.spares stands.active).others finished ?_
  intro xs member y found
  rcases mem_popAll_pushed stands.lt (fun q => leads_inner sound.graph fits.top) member with
    empty | ⟨q, leads, bottom, rfl⟩
  · simp [empty, wholeTree] at found
  · have spans := leads_spans sound.graph fits.top leads
    have regular := leads_regular sound.graph fits.top (by
      show r.stack.state v ≠ .recovery
      simp [state]) leads
    have place : (r.stack.point (r.stack.version v).top).place = c := stands.place
    have row : Row (r.stack.point q.vertex).place (q.trees ++ [x]) x.info.stop :=
      row_append spans.row (row_single (place ▸ origin ▸ reaches_refl _) rfl)
    refine wholeTree_whole row (sound.graph.place spans.inside) ?_ small ?_ found
    · intro z inside
      rcases List.mem_append.mp inside with early | last
      · exact spans.sound z early
      · exact List.mem_singleton.mp last ▸ soundX
    · intro root last
      rw [lastPlain_concat, if_pos extra] at last
      refine Or.inr ⟨(leads_finished sound.graph fits.top state leads).2 root last, ?_, ?_⟩
      · intro z inside
        rcases List.mem_append.mp inside with early | last
        · exact regular.2 z early
        · rw [List.mem_singleton.mp last, label]
          simp
      · have cost := fits.cost
        rw [spans.cost, sound.graph.ground spans.inside bottom] at cost
        rw [costs_append, costs, costs, free]
        omega

/-- Acceptance after a fault: what the stack holds is one fault. -/
theorem accept_fault {s : Stack} (small : k ≤ prices.recovery) (spares : r.stack.Spares t k G v)
    (finished : ∀ y ∈ r.finished, Whole t k y) (stands : r.stack.At v c) (reads : Lookahead c x)
    (label : x.label = .terminal .endOfText)
    (pushed : s = r.stack.push v (some (Tree.build .fault c [])) .start) :
    (accept { r with stack := s } v x).Valid t k := by
  obtain ⟨soundX, origin⟩ := lookahead_sound reads
  obtain ⟨extra, _⟩ := lookahead_end reads label
  have inner : ∀ q, r.stack.Leads (r.stack.version v).top q → q.vertex < r.stack.vertices.size :=
    fun q => leads_inner spares.graph spares.top
  have top : (s.version v).top = r.stack.vertices.size := by
    rw [pushed]
    exact (push_version _ _ stands.lt).top.symm
  have size : s.vertices.size = r.stack.vertices.size + 1 := by rw [pushed, push_size]
  have same : ∀ {i}, G i → s.vertex i = r.stack.vertex i := by
    intro i inside
    rw [pushed, push_vertex (spares.graph.bound inside)]
  have under : ∀ q, s.Leads (s.version v).top q → q.trees = [] ∧ q.vertex < s.vertices.size ∨
      ∃ p, r.stack.Leads (r.stack.version v).top p ∧ q.vertex = p.vertex ∧
        q.trees = p.trees ++ [Tree.build .fault c []] := by
    intro q leads
    rw [top] at leads
    rw [pushed] at leads
    rcases leads_pushed inner leads with ⟨vertex, trees⟩ | found
    · exact Or.inl ⟨trees, by omega⟩
    · exact Or.inr found
  have innerFault : ∀ q, s.Leads (s.version v).top q → q.vertex < s.vertices.size := by
    intro q leads
    rcases under q leads with ⟨_, bound⟩ | ⟨p, path, vertex, _⟩
    · exact bound
    · have := inner p path
      omega
  refine accept_valid (spares.graph.of_vertices (by rw [size]; omega) same) ?_ finished ?_
  · intro u other live
    have version : s.version u = r.stack.version u := by rw [pushed, push_version_ne other]
    rw [version] at live ⊢
    exact fits_covers ⟨id, fun inside => congrArg Vertex.point (same inside)⟩
      (spares.others u other live)
  · intro xs member y found
    have inside : v < s.versions.length := by
      rw [pushed, length_push]
      exact stands.lt
    obtain ⟨before, root, after, _, last, _⟩ := wholeTree_split found
    rcases mem_popAll_pushed inside innerFault member with rfl | ⟨q, leads, _, rfl⟩
    · simp [lastPlain] at last
    · rcases under q leads with ⟨trees, _⟩ | ⟨p, path, _, trees⟩
      · rw [trees, List.nil_append, ← List.nil_append [x], lastPlain_concat, if_pos extra] at last
        simp [lastPlain] at last
      · have spans := leads_spans spares.graph spares.top path
        have place : (r.stack.point (r.stack.version v).top).place = c := stands.place
        have soundFault : (Tree.build .fault c []).Sound :=
          build_sound (by simp) (by simp) (by simp) (by simp) (by simp) (by simp)
        rw [trees] at found last
        have row : Row (r.stack.point p.vertex).place (p.trees ++ [Tree.build .fault c []] ++ [x])
            x.info.stop :=
          row_append (row_append (place ▸ spans.row) (row_single (reaches_refl c) rfl))
            (row_single (origin ▸ reaches_refl _) rfl)
        refine wholeTree_whole row (spares.graph.place spans.inside) ?_ small ?_ found
        · intro z inside
          simp only [List.mem_append, List.mem_singleton] at inside
          rcases inside with (early | rfl) | rfl
          · exact spans.sound z early
          · exact soundFault
          · exact soundX
        · intro z same
          rw [lastPlain_concat, if_pos extra, lastPlain_concat, if_neg (by simp)] at same
          exact Or.inl (Option.some.inj same ▸ rfl)

end Accept

section Standing

theorem standing_same (s : Stack) (v : Nat) : s.Same (standing s v).2 := progress_same s v

theorem outdoneBy_same (v : Nat) (mine : Standing) (vs : List Nat) (s : Stack) :
    s.Same (outdoneBy v mine vs s).2 := by
  induction vs generalizing s with
  | nil => exact same_refl s
  | cons i rest ih =>
    rw [outdoneBy]
    split
    · exact ih s
    · have here := standing_same s i
      generalize standing s i = other at here ⊢
      obtain ⟨other, s'⟩ := other
      dsimp only at here ⊢
      split
      · exact here
      · split
        · exact here
        · exact here.trans (ih s')
      · exact here.trans (ih s')

/-- A comparison of versions changes marks only. -/
theorem isOutdone_same (r : Reader) (v cost : Nat) :
    ∃ s, r.stack.Same s ∧ (r.isOutdone v cost).2 = { r with stack := s } := by
  have go : ∃ s, r.stack.Same s ∧ (isOutdone.go r v cost).2 = { r with stack := s } := by
    refine ⟨_, ?_, rfl⟩
    exact (progress_same r.stack v).trans (outdoneBy_same v _ _ _)
  unfold isOutdone
  split
  · split
    · exact ⟨r.stack, same_refl _, rfl⟩
    · exact go
  · exact go

end Standing

section Recover

variable {t : Text} {k : Nat} {r r' : Reader} {v : Nat} {c : Cursor} {x : Tree}

theorem Valid.same {s : Stack} (valid : r.Valid t k) (same : r.stack.Same s) :
    Valid t k { r with stack := s } := by
  obtain ⟨G, sound⟩ := valid.stack
  exact ⟨⟨G, same.sound sound⟩, valid.finished⟩

/-- A reader in which all versions but `v` fit. -/
structure Spares (t : Text) (k : Nat) (r : Reader) (v : Nat) : Prop where
  stack : ∃ G, r.stack.Spares t k G v
  finished : ∀ x ∈ r.finished, Whole t k x

theorem Spares.same {s : Stack} (spares : r.Spares t k v) (same : r.stack.Same s) :
    Spares t k { r with stack := s } v := by
  obtain ⟨G, spared⟩ := spares.stack
  exact ⟨⟨G, same.spares spared⟩, spares.finished⟩

theorem Spares.halt (spares : r.Spares t k v) : Valid t k { r with stack := r.stack.halt v } := by
  obtain ⟨G, spared⟩ := spares.stack
  exact ⟨⟨G, spared.halt⟩, spares.finished⟩

/-- Going back to a state that the search for one does not pass by is paid for. -/
def Affords (k : Nat) (s : Stack) (v : Nat) (c : Cursor) (e : Resort) : Prop :=
  e.state ≠ .recovery → e.place.offset ≠ c.offset → ∀ depth, e.depth ≤ depth → s.Paid k v depth

theorem tryResorts_spares {versions : Nat} {cost progress : Nat} {terminal : Terminal}
    (small : k ≤ prices.recovery) (es : List Resort) (spares : r.Spares t k v)
    (stands : r.stack.At v c) (affords : ∀ e ∈ es, Affords k r.stack v c e) :
    (tryResorts v versions c cost progress terminal es r).1.Spares t k v ∧
      (tryResorts v versions c cost progress terminal es r).1.stack.At v c := by
  induction es generalizing r with
  | nil => exact ⟨spares, stands⟩
  | cons e rest ih =>
    obtain ⟨affordsE, affordsRest⟩ := List.forall_mem_cons.mp affords
    rw [tryResorts]
    dsimp only
    split
    · exact ih spares stands affordsRest
    · rename_i useful
      simp only [Bool.or_eq_true, decide_eq_true_eq, not_or] at useful
      obtain ⟨⟨regular, apart⟩, _⟩ := useful
      obtain ⟨s, same, outdone⟩ := isOutdone_same r v (cost + e.depth * prices.skippedTree +
        (c.offset - e.place.offset) * prices.skippedByte +
        (c.line - e.place.line) * prices.skippedLine)
      generalize r.isOutdone v _ = answer at outdone ⊢
      obtain ⟨answer, r'⟩ := answer
      dsimp only at outdone ⊢
      subst outdone
      have sparesNext := spares.same same
      have standsNext := same.at stands
      have goesOn := ih sparesNext standsNext fun e' member other apart depth deep =>
        same.paid (affordsRest e' member other apart depth deep)
      split
      · exact ⟨sparesNext, standsNext⟩
      · split
        · split
          · rename_i s' recovered
            obtain ⟨G, spared⟩ := sparesNext.stack
            have paid := same.paid (affordsE regular apart (if 0 < progress then e.depth + 1 else e.depth)
              (by split <;> omega))
            obtain ⟨G', sparesLast, standsLast⟩ :=
              recoverTo_spec small regular spared standsNext paid recovered
            exact ⟨⟨⟨G', sparesLast⟩, spares.finished⟩, standsLast⟩
          · exact goesOn
        · exact goesOn

theorem tryBelow_spares (cost progress : Nat) (resorts : Option (List Resort)) (label : Label)
    (small : k ≤ prices.recovery) (spares : r.Spares t k v) (stands : r.stack.At v c)
    (affords : ∀ es ∈ resorts, ∀ e ∈ es, Affords k r.stack v c e) :
    (tryBelow r v c cost progress resorts label).1.Spares t k v ∧
      (tryBelow r v c cost progress resorts label).1.stack.At v c := by
  unfold tryBelow
  split
  · exact tryResorts_spares small _ spares stands (affords _ rfl)
  · exact ⟨spares, stands⟩

theorem halt_valid (valid : r.Valid t k) : Valid t k { r with stack := r.stack.halt v } := by
  obtain ⟨G, sound⟩ := valid.stack
  exact ⟨⟨G, halt_sound sound⟩, valid.finished⟩

/-- After a recovery every version fits, also if the version that recovers did not. -/
theorem recover_valid (small : k ≤ prices.recovery) (spares : r.Spares t k v)
    (stands : r.stack.At v c) (reads : Lookahead c x)
    (affords : ∀ es ∈ (r.stack.version v).resorts, ∀ e ∈ es, Affords k r.stack v c e) :
    (recover r v x).Valid t k := by
  have same := progress_same r.stack v
  have place : r.stack.place v = c := stands.place
  unfold recover
  dsimp only
  rw [place]
  generalize r.stack.progress v = marked at same ⊢
  obtain ⟨progress, s⟩ := marked
  dsimp only at same ⊢
  obtain ⟨sparesTried, standsTried⟩ := tryBelow_spares (s.cost v) progress
    (r.stack.version v).resorts x.label small (spares.same same) (same.at stands)
    fun es listed e member other apart depth deep =>
      same.paid (affords es listed e member other apart depth deep)
  generalize tryBelow { r with stack := s } v c (s.cost v) progress (r.stack.version v).resorts
    x.label = tried at sparesTried standsTried ⊢
  obtain ⟨r', recovered⟩ := tried
  dsimp only at sparesTried standsTried ⊢
  obtain ⟨G, spared⟩ := sparesTried.stack
  split
  · rename_i ended
    exact accept_fault small spared sparesTried.finished standsTried reads (beq_iff_eq.mp ended) rfl
  · split
    · exact sparesTried.halt
    · obtain ⟨s', sameNext, outdone⟩ := isOutdone_same r' v (s.cost v + prices.skippedTree +
        (x.info.stop.offset - x.info.origin.offset) * prices.skippedByte +
        (x.info.stop.line - x.info.origin.line) * prices.skippedLine)
      generalize r'.isOutdone v _ = answer at outdone ⊢
      obtain ⟨answer, r''⟩ := answer
      dsimp only at outdone ⊢
      subst outdone
      have sparesNext := sparesTried.same sameNext
      split
      · exact sparesNext.halt
      · obtain ⟨G, spared⟩ := sparesNext.stack
        exact ⟨passOver_sound small spared (sameNext.at standsTried) reads, sparesNext.finished⟩

theorem Valid.spares (valid : r.Valid t k) (active : (r.stack.version v).status = .active) :
    r.Spares t k v := by
  obtain ⟨G, sound⟩ := valid.stack
  exact ⟨⟨G, sound.spares active⟩, valid.finished⟩

/-- A version that fits can afford to go back anywhere. -/
theorem Valid.affords (valid : r.Valid t k) (active : (r.stack.version v).status = .active)
    (e : Resort) : Affords k r.stack v c e := by
  obtain ⟨G, sound⟩ := valid.stack
  exact fun _ _ _ _ _ _ _ _ => (sound.fits_active active).cost

theorem recover_fits (small : k ≤ prices.recovery) (valid : r.Valid t k) (stands : r.stack.At v c)
    (reads : Lookahead c x) : (recover r v x).Valid t k :=
  recover_valid small (valid.spares stands.active) stands reads
    fun _ _ e _ => valid.affords stands.active e

/-- Versions that join `v` leave it where it is. -/
theorem joinAll_sound {G : Nat → Prop} {w : Nat} {s : Stack} (count : Nat) (lower : v < w)
    (sound : s.Sound t k G) (stands : s.At v c) :
    (joinAll v w count s).Sound t k G ∧ (joinAll v w count s).At v c := by
  induction count generalizing s with
  | zero => exact ⟨sound, stands⟩
  | succ count ih =>
    rw [joinAll]
    cases merged : s.merge? v w with
    | none => exact ih sound stands
    | some s' =>
      obtain ⟨larger, grows, inside, f, alike, versions⟩ := merge?_spec sound merged
      obtain ⟨before, _, _⟩ := merge?_keeps alike versions inside
      exact ih larger (at_keeps stands (stands.fits sound).top (before v lower) grows)

theorem affected_nodup {before after : Nat} (inside : v < before) :
    (v :: (List.range after).drop before).Nodup := by
  refine List.nodup_cons.mpr ⟨?_, List.nodup_range.drop⟩
  intro member
  obtain ⟨i, bound, same⟩ := List.mem_iff_getElem.mp member
  simp only [List.getElem_drop, List.getElem_range] at same
  omega

theorem mem_affected {before after u : Nat} (inside : v < after) :
    u ∈ v :: (List.range after).drop before ↔ u < after ∧ (u = v ∨ before ≤ u) := by
  rw [List.mem_cons, List.mem_iff_getElem]
  simp only [List.length_drop, List.length_range, List.getElem_drop, List.getElem_range]
  constructor
  · rintro (rfl | ⟨i, bound, rfl⟩)
    · exact ⟨inside, Or.inl rfl⟩
    · exact ⟨by omega, Or.inr (by omega)⟩
  · rintro ⟨bound, rfl | low⟩
    · exact Or.inl rfl
    · exact Or.inr ⟨u - before, by omega, by omega⟩

theorem repair_valid (small : k ≤ prices.recovery) (valid : r.Valid t k)
    (stands : r.stack.At v c) (regular : r.stack.state v ≠ .recovery) (reads : Lookahead c x) :
    (repair r v x).Valid t k := by
  obtain ⟨G, sound⟩ := valid.stack
  obtain ⟨G₁, grows, larger, spread, long⟩ := reduceEvery_spec sound (stands.stands regular)
  have inside := stands.lt
  unfold repair
  dsimp only
  generalize reduceEvery r.stack v = s at grows larger spread long ⊢
  have standsV := spread.rest v (by omega) (Or.inl rfl)
  have place : s.place v = c := standsV.at.place
  rw [place]
  obtain ⟨G₂, _, soundMarked, marks⟩ := markFaults_spec x.label.terminal?
    (v :: (List.range s.versions.length).drop r.stack.versions.length) false larger
    (fun u member => spread.rest u ((mem_affected (by omega)).mp member).1
      ((mem_affected (by omega)).mp member).2) (affected_nodup inside)
  obtain ⟨soundJoined, standsJoined⟩ := joinAll_sound
    (s.versions.length - r.stack.versions.length) inside soundMarked (marks.marked v (by simp)).at
  generalize joinAll v r.stack.versions.length _ _ = u at soundJoined standsJoined ⊢
  have same := u.same_setVersion v (f := fun h => { h with resorts := some (u.resorts v) })
    fun _ => ⟨rfl, rfl, rfl⟩
  exact recover_fits small ⟨⟨G₂, same.sound soundJoined⟩, valid.finished⟩ (same.at standsJoined) reads

end Recover

section Consume

variable {t : Text} {k : Nat} {G : Nat → Prop} {r : Reader} {v : Nat} {c : Cursor} {x : Tree}

/-- A version may wait at a token that was read where it stands. -/
theorem wait_sound {s : Stack} {mark : Nat} (sound : s.Sound t k G) (stands : s.At v c)
    (regular : s.state v ≠ .recovery) (reads : Lookahead c x) :
    (s.setVersion v fun h => { h with status := .paused x, faultProgress := mark }).Sound t k G := by
  apply setVersion_sound _ sound
  intro _ _
  have fits := stands.fits sound
  refine ⟨fits.top, fits.cost, ?_⟩
  intro y waits
  obtain rfl := Status.paused.inj waits
  have place : (s.point (s.version v).top).place = c := stands.place
  rw [place]
  exact ⟨reads, regular⟩

theorem shift_sound {s : Stack} {y : Tree} {next : State} (sound : s.Sound t k G)
    (stands : s.At v c)
    (joined : (s.point (s.version v).top).Joined
      ((s.point (s.version v).top).next (some y) next) (some y)) :
    ∃ G', (consume.shift s v y next).Sound t k G' := by
  have fits := stands.fits sound
  have larger := push_sound (some y) next sound.graph stands.active fits.top joined
    (sound.spares stands.active).others (Nat.le_trans fits.cost (Nat.le_add_right _ _))
  unfold consume.shift
  dsimp only
  split
  · refine ⟨_, setVersion_sound _ larger ?_⟩
    intro _ live
    have fits := larger.fits_version live
    exact ⟨fits.top, fits.cost, fits.waits⟩
  · exact ⟨_, larger⟩

/-- A token that the state shifts, or a comment anywhere, leads on from where it was read. -/
theorem lookahead_joined {p : Point} {extra : Bool} {next : State} {terminal : Terminal}
    (reads : Lookahead p.place x) (label : x.label = .terminal terminal)
    (step : extra = true ∧ p.state = next ∨ extra = false ∧ p.state.shift? terminal = some next) :
    p.Joined (p.next (some (x.markExtra extra)) next) (some (x.markExtra extra)) := by
  obtain ⟨sound, origin⟩ := lookahead_sound reads
  have labelled : (x.markExtra extra).label = .terminal terminal := label
  refine ⟨markExtra_sound sound, ?_, rfl, rfl, ?_, ?_, ?_⟩
  · show p.place.Reaches x.info.origin
    exact origin ▸ reaches_refl _
  · rcases step with ⟨rfl, same⟩ | ⟨rfl, shifts⟩
    · exact Or.inr (Or.inl ⟨rfl, same⟩)
    · refine Or.inr (Or.inr ⟨rfl, ?_, ?_⟩)
      · rw [labelled]
        exact shifts
      · obtain ⟨token, _, rfl⟩ := reads
        intro missing
        simp [markExtra, ofToken] at missing
  · intro skipped
    simp [labelled] at skipped
  · intro fault
    simp [labelled] at fault

theorem reduce?_completed {state : State} {terminal : Terminal} {red : Nonterminal × Nat}
    (reduces : state.reduce? terminal = some red) : state.completed? = some red := by
  unfold State.reduce? at reduces
  split at reduces
  · exact reduces
  · simp at reduces

theorem consume_valid (small : k ≤ prices.recovery) (fuel : Nat) (valid : r.Valid t k)
    (stands : r.stack.At v c) (reads : Lookahead c x) : (consume v x fuel r).Valid t k := by
  induction fuel generalizing r with
  | zero => exact halt_valid valid
  | succ fuel ih =>
    obtain ⟨G, sound⟩ := valid.stack
    have place : (r.stack.point (r.stack.version v).top).place = c := stands.place
    have waits : r.stack.state v ≠ .recovery →
        Valid t k { r with stack := r.stack.setVersion v fun h =>
          { h with status := .paused x, faultProgress := (r.stack.top v).progress } } :=
      fun regular => ⟨⟨G, wait_sound sound stands regular reads⟩, valid.finished⟩
    have shifts : ∀ {extra next terminal}, x.label = .terminal terminal →
        (extra = true ∧ r.stack.state v = next ∨
          extra = false ∧ (r.stack.state v).shift? terminal = some next) →
        Valid t k { r with stack := consume.shift r.stack v (x.markExtra extra) next } := by
      intro extra next terminal label step
      exact ⟨shift_sound sound stands (lookahead_joined (by rw [place]; exact reads) label step),
        valid.finished⟩
    rw [consume]
    dsimp only
    split
    · rename_i terminal label
      split
      · exact shifts label (Or.inl ⟨rfl, rfl⟩)
      · split
        · exact recover_fits small valid stands reads
        · rename_i regular
          split
          · rename_i ended
            simp only [Bool.and_eq_true, decide_eq_true_eq] at ended
            obtain ⟨state, rfl⟩ := ended
            exact accept_finished small sound valid.finished stands reads label state
          · split
            · rename_i n count reduces
              have standing := stands.stands regular
              obtain ⟨G', grows, larger, adds⟩ :=
                reduce_spec sound standing (reduce?_completed reduces)
              have standsAfter := stands_keeps sound standing (adds.kept v stands.lt) grows
              split
              · -- the version that the reduction has added takes the place of `v`
                rename_i w added
                obtain ⟨rfl, inside⟩ := added?_eq_some added
                obtain ⟨soundReplaced, growsReplaced⟩ :=
                  replace_sound (v := v) (w := r.stack.versions.length) larger
                have standsNew := adds.added _ (Nat.le_refl _) inside
                exact ih ⟨⟨G', soundReplaced⟩, valid.finished⟩
                  (stands_alike larger standsNew
                    (replace_version_eq stands.lt standsAfter.lt) growsReplaced).at
              · exact ⟨⟨G', wait_sound larger standsAfter.at standsAfter.regular reads⟩,
                  valid.finished⟩
            · split
              · rename_i next shifted
                exact shifts label (Or.inr ⟨rfl, shifted⟩)
              · exact waits regular
    · split
      · exact recover_fits small valid stands reads
      · rename_i regular
        exact waits regular

/-- A version reads its next token where it stands. -/
theorem advance_valid (small : k ≤ prices.recovery) (valid : r.Valid t k)
    (active : r.stack.isActive v = true) : (r.advance v).Valid t k := by
  have stands : r.stack.At v (r.stack.place v) := by
    refine ⟨?_, rfl⟩
    simp only [isActive, Version.isActive] at active
    split at active
    · assumption
    · simp at active
  exact consume_valid small _ valid stands
    ⟨_, (Token.read_follows _ _ _ _).of_reaches (reaches_pastMark _), rfl⟩

theorem advanceVersion_valid (small : k ≤ prices.recovery) (fuel : Nat) (reached : Nat)
    (valid : r.Valid t k) : (advanceVersion v fuel r reached).1.Valid t k := by
  induction fuel generalizing r with
  | zero => exact valid
  | succ fuel ih =>
    rw [advanceVersion]
    split
    · rename_i active
      have next := advance_valid small valid active
      dsimp only
      split
      · exact next
      · exact ih next
    · exact valid

theorem advanceAll_valid (effort fuel reached : Nat) (small : k ≤ prices.recovery)
    (valid : r.Valid t k) : (advanceAll effort fuel v r reached).1.Valid t k := by
  induction fuel generalizing r v reached with
  | zero => exact valid
  | succ fuel ih =>
    rw [advanceAll]
    split
    · exact ih _ (advanceVersion_valid small effort reached valid)
    · exact valid

end Consume

section Condense

variable {t : Text} {k : Nat} {G : Nat → Prop} {r : Reader} {s : Stack}

/-- Two versions change places. -/
theorem swap_sound {i j : Nat} (sound : s.Sound t k G) :
    ((s.setVersion i fun _ => s.version j).setVersion j fun _ => s.version i).Sound t k G := by
  apply setVersion_sound
  · exact setVersion_sound _ sound fun _ live => sound.fits_version live
  · intro _ live
    exact (sound.fits_version live).congr rfl

theorem sweepVersion_sound (mine : Standing) (fuel i j : Nat) (sound : s.Sound t k G) :
    (sweepVersion mine fuel i j s).1.Sound t k G := by
  induction fuel generalizing s i j with
  | zero => exact sound
  | succ fuel ih =>
    rw [sweepVersion]
    split
    · exact sound
    · have marked := (standing_same s j).sound sound
      generalize standing s j = other at marked ⊢
      obtain ⟨other, s'⟩ := other
      dsimp only at marked ⊢
      split
      · exact remove_sound marked
      · split
        · exact (merge?_spec marked (by assumption)).1
        · exact ih _ _ marked
      · split
        · exact (merge?_spec marked (by assumption)).1
        · exact ih _ _ marked
      · split
        · exact (merge?_spec marked (by assumption)).1
        · exact ih _ _ (swap_sound marked)
      · exact ih _ _ (remove_sound marked)

theorem sweep_sound (fuel i : Nat) (least : Option Nat) (sound : s.Sound t k G) :
    (sweep fuel i s least).1.Sound t k G := by
  induction fuel generalizing s i least with
  | zero => exact sound
  | succ fuel ih =>
    rw [sweep]
    split
    · exact sound
    · split
      · exact ih _ _ (remove_sound sound)
      · have marked := (standing_same s i).sound sound
        generalize standing s i = mine at marked ⊢
        obtain ⟨mine, s'⟩ := mine
        dsimp only at marked ⊢
        have swept := sweepVersion_sound mine (2 * s'.versions.length + 2) i 0 marked
        generalize sweepVersion mine (2 * s'.versions.length + 2) i 0 s' = result at swept ⊢
        exact ih _ _ swept

/-- A version that waits at a token, set to work again. -/
theorem wake_valid {i : Nat} {x : Tree} (valid : r.Valid t k)
    (waiting : (r.stack.version i).status = .paused x) {s : Stack}
    (woken : s = r.stack.setVersion i fun h => { h with status := .active }) :
    Valid t k { r with stack := s } ∧ s.At i (r.stack.place i) ∧ s.state i ≠ .recovery ∧
      Lookahead (r.stack.place i) x := by
  obtain ⟨G, sound⟩ := valid.stack
  have live : (r.stack.version i).isHalted = false := by simp [Version.isHalted, waiting]
  have fits := sound.fits_version live
  obtain ⟨reads, regular⟩ := fits.waits waiting
  have version := version_setVersion_eq (s := r.stack) (fun h => { h with status := .active })
    (version_lt live)
  rw [← woken] at version
  have top : s.top i = r.stack.top i := by
    rw [Stack.top, version, woken]
    rfl
  refine ⟨⟨⟨G, ?_⟩, valid.finished⟩, ⟨by rw [version], congrArg Vertex.place top⟩, ?_, reads⟩
  · rw [woken]
    apply setVersion_sound _ sound
    exact fun _ _ => ⟨fits.top, fits.cost, fun {_} paused => by simp at paused⟩
  · rw [Stack.state, top]
    exact regular

theorem resume_valid (small : k ≤ prices.recovery) (fuel i last : Nat) (unpaused : Bool)
    (least : Option Nat) (valid : r.Valid t k) :
    (resume fuel i last r unpaused least).1.Valid t k := by
  induction fuel generalizing r i last unpaused least with
  | zero => exact valid
  | succ fuel ih =>
    obtain ⟨G, sound⟩ := valid.stack
    rw [resume]
    split
    · exact valid
    · split
      · rename_i x waiting
        split
        · obtain ⟨validWoken, stands, regular, reads⟩ := wake_valid valid waiting rfl
          exact ih _ _ _ _ (repair_valid small validWoken stands regular reads)
        · exact ih _ _ _ _ ⟨⟨G, remove_sound sound⟩, valid.finished⟩
      · exact ih _ _ _ _ valid

theorem condense_valid (small : k ≤ prices.recovery) (valid : r.Valid t k) :
    (condense r).1.Valid t k := by
  obtain ⟨G, sound⟩ := valid.stack
  unfold condense
  dsimp only
  have swept := sweep_sound (2 * r.stack.versions.length + 2) 0 none sound
  generalize sweep (2 * r.stack.versions.length + 2) 0 r.stack none = swept' at swept ⊢
  obtain ⟨s, least⟩ := swept'
  dsimp only at swept ⊢
  apply resume_valid small
  refine ⟨⟨G, swept.graph.congr rfl, ?_⟩, valid.finished⟩
  intro x member live
  exact (swept.fits x (List.mem_of_mem_take member) live).congr rfl

theorem run_valid (effort fuel reached : Nat) (small : k ≤ prices.recovery)
    (valid : r.Valid t k) : (run effort fuel r reached).Valid t k := by
  induction fuel generalizing r reached with
  | zero => exact valid
  | succ fuel ih =>
    rw [run]
    have advanced := advanceAll_valid (v := 0) effort (4 * maxVersions + 16) reached small
      valid
    generalize advanceAll effort (4 * maxVersions + 16) 0 r reached = after at advanced ⊢
    obtain ⟨r', reached'⟩ := after
    dsimp only at advanced ⊢
    have condensed := condense_valid small advanced
    generalize condense r' = thinned at condensed ⊢
    obtain ⟨r'', least⟩ := thinned
    dsimp only at condensed ⊢
    split
    · exact condensed
    · exact ih _ condensed

end Condense

theorem start_sound (t : Text) : (Stack.start t).Sound t 0 (· = 0) := by
  constructor
  · refine ⟨?_, ?_, ?_, ?_, ?_⟩
    · rintro i rfl
      simp [Stack.start]
    · rintro i rfl
      exact in_start t
    · rintro i rfl l member
      simp [Stack.start, vertex] at member
    · rintro i rfl l member
      simp [Stack.start, vertex] at member
    · rintro i rfl _
      rfl
  · intro x member _
    obtain rfl := List.mem_singleton.mp member
    exact ⟨rfl, Nat.zero_le _, fun {_} paused => by simp at paused⟩

theorem start_valid (t : Text) : Valid t 0 { stack := Stack.start t } :=
  ⟨⟨_, start_sound t⟩, fun x member => by simp at member⟩

theorem read_whole (t : Text) : Whole t 0 (read t) := by
  have after := run_valid (4 * t.length + 64) (4 * t.length + 64) 0 (by simp) (start_valid t)
  unfold read
  dsimp only
  generalize run _ _ _ 0 = r at after ⊢
  cases finished : r.finished with
  | some x => exact after.finished x finished
  | none =>
    refine ⟨build_sound (by simp) (by simp) (by simp) (by simp) (by simp) (by simp), in_start t,
      Nat.zero_le _, Or.inr rfl⟩

end Reader

end TemplateMarkup.Markup
