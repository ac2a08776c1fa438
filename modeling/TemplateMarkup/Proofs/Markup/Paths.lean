import TemplateMarkup.Proofs.Markup.Stacks

/-!
Paths down a sound stack. The trees on a path lie one after the other between the places of its ends
and cost what the ends differ by. A walk only takes paths that lead down from where it starts.
-/
namespace TemplateMarkup.Markup.Stack

open Cursor TemplateMarkup.Markup.Tree

inductive Leads (s : Stack) (i : Nat) : Path → Prop where
  | here : Leads s i ⟨i, [], 0⟩
  | follow {p : Path} {l : Link} (path : Leads s i p) (link : l ∈ (s.vertex p.vertex).links) :
      Leads s i (p.follow l)

structure Spans (G : Nat → Prop) (s : Stack) (i j : Nat) (xs : List Tree) : Prop where
  inside : G j
  row : Row (s.point j).place xs (s.point i).place
  sound : ∀ x ∈ xs, x.Sound
  cost : (s.point i).cost = (s.point j).cost + costs xs
  skipped : ∀ x ∈ xs, x.label = .skipped → x.isExtra = false
  faults : ∀ x ∈ xs, x.label = .fault → x.EndsPlain

section Down

variable {t : Text} {G : Nat → Prop} {s : Stack} {i : Nat} {p : Path}

theorem leads_spans (graph : s.Graph t G) (top : G i) (leads : s.Leads i p) :
    s.Spans G i p.vertex p.trees := by
  induction leads with
  | here => exact ⟨top, Row.nil, by simp, by simp [costs], by simp, by simp⟩
  | @follow p l _ link ih =>
    have below := graph.closed ih.inside l link
    have joined := graph.joined ih.inside l link
    cases tree : l.tree with
    | none =>
      rw [tree] at joined
      obtain ⟨_, place, cost⟩ := joined
      simp only [Path.follow, tree]
      exact ⟨below, place ▸ ih.row, ih.sound, cost ▸ ih.cost, ih.skipped, ih.faults⟩
    | some x =>
      rw [tree] at joined
      simp only [Path.follow, tree]
      refine ⟨below, Row.cons joined.gap (joined.stop ▸ ih.row), ?_, ?_, ?_, ?_⟩
      · exact List.forall_mem_cons.mpr ⟨joined.sound, ih.sound⟩
      · rw [ih.cost, joined.cost, costs, Nat.add_assoc]
      · exact List.forall_mem_cons.mpr ⟨fun label => (joined.skipped label).1, ih.skipped⟩
      · exact List.forall_mem_cons.mpr ⟨fun label => (joined.fault label).2.2, ih.faults⟩

theorem leads_regular (graph : s.Graph t G) (top : G i) (regular : (s.point i).state ≠ .recovery)
    (leads : s.Leads i p) :
    (s.point p.vertex).state ≠ .recovery ∧ ∀ x ∈ p.trees, x.label ≠ .skipped := by
  induction leads with
  | here => exact ⟨regular, by simp⟩
  | @follow p l path link ih =>
    have joined := graph.joined (leads_spans graph top path).inside l link
    obtain ⟨filled, below⟩ := Point.joined_regular joined ih.1
    obtain ⟨x, tree⟩ := Option.isSome_iff_exists.mp filled
    rw [tree] at joined
    simp only [Path.follow, tree]
    refine ⟨below, List.forall_mem_cons.mpr ⟨?_, ih.2⟩⟩
    exact fun skipped => ih.1 (joined.skipped skipped).2

/-- A path down from a regular state has as many parts as it counts. The automaton has moved over them,
and the last of them led to that state. -/
theorem leads_parts (graph : s.Graph t G) (top : G i) (regular : (s.point i).state ≠ .recovery)
    (leads : s.Leads i p) :
    (p.trees.filter fun x => !x.isExtra).length = p.parts ∧
      State.Back p.parts (s.point p.vertex).state (s.point i).state ∧
      ∀ x ∈ (p.trees.filter fun x => !x.isExtra).getLast?,
        ∃ below : State, below.after? x.label = some (s.point i).state := by
  induction leads with
  | here => exact ⟨rfl, rfl, by simp⟩
  | @follow p l path link ih =>
    obtain ⟨parts, back, ended⟩ := ih
    have joined := graph.joined (leads_spans graph top path).inside l link
    have here := (leads_regular graph top regular path).1
    obtain ⟨x, tree⟩ := Option.isSome_iff_exists.mp (Point.joined_regular joined here).1
    rw [tree] at joined
    rcases joined.step with recovery | ⟨extra, still⟩ | ⟨plain, step, _⟩
    · exact absurd recovery here
    · simp only [Path.follow, tree, extra, if_true, List.filter_cons, Bool.not_true,
        Bool.false_eq_true, if_false]
      exact ⟨parts, still ▸ back, ended⟩
    · simp only [Path.follow, tree, plain, Bool.false_eq_true, if_false, List.filter_cons,
        Bool.not_false, if_true, List.length_cons, parts]
      refine ⟨trivial, State.back_after step back, ?_⟩
      intro y last
      rw [List.getLast?_cons] at last
      obtain rfl := Option.some.inj last
      cases before : (p.trees.filter fun x => !x.isExtra).getLast? with
      | none =>
        have none : p.parts = 0 := by
          rw [← parts, List.getLast?_eq_none_iff.mp before]
          rfl
        rw [none] at back
        exact ⟨_, back ▸ step⟩
      | some z => exact ended z before

/-- A path down from a fresh fault leaves it by a link without a tree. -/
theorem leads_fresh (top : G i) (fresh : s.Fresh G) (fault : (s.point i).state = .recovery)
    (leads : s.Leads i p) :
    p = ⟨i, [], 0⟩ ∨ ∃ l ∈ (s.vertex i).links, ∃ q, s.Leads l.below q ∧
      p = ⟨q.vertex, q.trees, q.parts + 1⟩ := by
  induction leads with
  | here => exact Or.inl rfl
  | @follow p l _ link ih =>
    right
    rcases ih with rfl | ⟨first, member, q, path, rfl⟩
    · have none := (fresh i top fault l link).1
      exact ⟨l, link, _, Leads.here, by simp [Path.follow, none]⟩
    · refine ⟨first, member, q.follow l, Leads.follow path link, ?_⟩
      cases tree : l.tree with
      | none => simp [Path.follow, tree]
      | some x => cases extra : x.isExtra <;> simp [Path.follow, tree, extra]

/-- Two parts below a fresh fault there is a tree that is no extra. -/
theorem leads_fresh_plain (graph : s.Graph t G) (top : G i) (fresh : s.Fresh G)
    (fault : (s.point i).state = .recovery) (leads : s.Leads i p) (deep : 2 ≤ p.parts) :
    ∃ x ∈ p.trees, x.isExtra = false := by
  rcases leads_fresh top fresh fault leads with rfl | ⟨l, link, q, path, rfl⟩
  · simp at deep
  · have below := graph.closed top l link
    have size := (leads_parts graph below (fresh i top fault l link).2 path).1
    have some : 0 < (q.trees.filter fun x => !x.isExtra).length := by
      rw [size]
      exact Nat.lt_of_succ_lt_succ deep
    obtain ⟨x, member⟩ := List.exists_mem_of_length_pos some
    obtain ⟨inside, plain⟩ := List.mem_filter.mp member
    exact ⟨x, inside, by simpa using plain⟩

/-- Growth of the stack leaves the way between two vertices as it is. -/
theorem Spans.grows {G' : Nat → Prop} {s' : Stack} {j : Nat} {xs : List Tree}
    (spans : s.Spans G i j xs) (top : G i) (grows : Grows G G' s s') : s'.Spans G' i j xs := by
  have points : s'.point i = s.point i ∧ s'.point j = s.point j :=
    ⟨grows.point top, grows.point spans.inside⟩
  refine ⟨grows.keeps spans.inside, ?_, spans.sound, ?_, spans.skipped, spans.faults⟩
  · rw [points.1, points.2]
    exact spans.row
  · rw [points.1, points.2]
    exact spans.cost

end Down

section Walks

variable {s : Stack} {σ : Type} {visit : σ → Path → σ × Verdict} {known : σ → Prop}
  {visited : σ → Path → Prop} {taken : Path → Prop}

/-- What a walk keeps: `known` holds of what it has seen, `visited` of every path it looks at and
`taken` of those it takes. -/
structure Guides (s : Stack) (visit : σ → Path → σ × Verdict) (known : σ → Prop)
    (visited : σ → Path → Prop) (taken : Path → Prop) : Prop where
  look : ∀ seen p, known seen → visited seen p → known (visit seen p).1
  later : ∀ seen p q, visited seen p → visited seen q → visited (visit seen p).1 q
  take : ∀ seen p, visited seen p → (visit seen p).2.take = true → taken p
  follow : ∀ seen p, visited seen p → (visit seen p).2.stop = false →
    ∀ l ∈ (s.vertex p.vertex).links, visited (visit seen p).1 (p.follow l)

/-- A walk of which only the paths matter. -/
theorem guides_paths {visited : Path → Prop}
    (take : ∀ seen p, visited p → (visit seen p).2.take = true → taken p)
    (follow : ∀ seen p, visited p → (visit seen p).2.stop = false →
      ∀ l ∈ (s.vertex p.vertex).links, visited (p.follow l)) :
    s.Guides visit (fun _ => True) (fun _ => visited) taken :=
  ⟨fun _ _ _ _ => trivial, fun _ _ _ _ visited => visited, take, follow⟩

theorem stepPaths_guided (guides : s.Guides visit known visited taken)
    (todo done queued ps : List Path) (seen : σ) (seenOk : known seen)
    (todoOk : ∀ p ∈ todo, visited seen p) (doneOk : ∀ p ∈ done, visited seen p)
    (queuedOk : ∀ p ∈ queued, visited seen p) (takenOk : ∀ p ∈ ps, taken p) :
    known (s.stepPaths visit todo done queued ps seen).1 ∧
      (∀ p ∈ (s.stepPaths visit todo done queued ps seen).2.1,
        visited (s.stepPaths visit todo done queued ps seen).1 p) ∧
      ∀ p ∈ (s.stepPaths visit todo done queued ps seen).2.2, taken p := by
  induction todo generalizing done queued ps seen with
  | nil =>
    rw [stepPaths]
    refine ⟨seenOk, ?_, takenOk⟩
    intro p member
    rcases List.mem_append.mp member with early | late
    · exact doneOk p (List.mem_reverse.mp early)
    · exact queuedOk p (List.mem_reverse.mp late)
  | cons p todo ih =>
    have visitedP := todoOk p (by simp)
    have later : ∀ {qs : List Path}, (∀ q ∈ qs, visited seen q) →
        ∀ q ∈ qs, visited (visit seen p).1 q :=
      fun all q member => guides.later seen p q visitedP (all q member)
    have todoOk := later fun q member => todoOk q (List.mem_cons_of_mem p member)
    have seenOk := guides.look seen p seenOk visitedP
    rw [stepPaths]
    dsimp only
    have takenOk : ∀ q ∈ if (visit seen p).2.take then p :: ps else ps, taken q := by
      intro q member
      split at member
      · rename_i take
        rcases List.mem_cons.mp member with rfl | later
        · exact guides.take seen q visitedP take
        · exact takenOk q later
      · exact takenOk q member
    split
    · exact ih _ _ _ _ seenOk todoOk (later doneOk) (later queuedOk) takenOk
    · rename_i first others links
      split
      · exact ih _ _ _ _ seenOk todoOk (later doneOk) (later queuedOk) takenOk
      · rename_i goes
        have follow := guides.follow seen p visitedP (by simpa using goes)
        rw [links] at follow
        apply ih _ _ _ _ seenOk todoOk ?_ ?_ takenOk
        · intro q member
          rcases List.mem_cons.mp member with rfl | old
          · exact follow first (by simp)
          · exact later doneOk q old
        · intro q member
          rcases List.mem_append.mp member with new | old
          · obtain ⟨l, branch, rfl⟩ := List.mem_map.mp (List.mem_reverse.mp new)
            exact follow l (List.mem_cons_of_mem first (List.mem_of_mem_take branch))
          · exact later queuedOk q old

theorem walk_guided (guides : s.Guides visit known visited taken) (fuel : Nat)
    (paths ps : List Path) (seen : σ) (seenOk : known seen) (pathsOk : ∀ p ∈ paths, visited seen p)
    (takenOk : ∀ p ∈ ps, taken p) :
    known (s.walk visit fuel paths ps seen).1 ∧
      ∀ p ∈ (s.walk visit fuel paths ps seen).2, taken p := by
  induction fuel generalizing paths ps seen with
  | zero => exact ⟨seenOk, fun p member => takenOk p (List.mem_reverse.mp member)⟩
  | succ fuel ih =>
    rw [walk]
    split
    · exact ⟨seenOk, fun p member => takenOk p (List.mem_reverse.mp member)⟩
    · obtain ⟨seenNext, visitedNext, takenNext⟩ := stepPaths_guided guides paths [] [] ps seen seenOk
        pathsOk (by simp) (by simp) takenOk
      exact ih _ _ _ seenNext visitedNext takenNext

/-- A group holds the trees of at least one path to its vertex, and of no other paths. -/
structure Gathers (ps : List Path) (group : Nat × List (List Tree)) : Prop where
  filled : group.2 ≠ []
  paths : ∀ xs ∈ group.2, ∃ p ∈ ps, p.vertex = group.1 ∧ p.trees = xs

theorem groupPaths_gathers {ps : List Path} {group : Nat × List (List Tree)}
    (member : group ∈ groupPaths ps) : Gathers ps group := by
  suffices all : ∀ groups : List (Nat × List (List Tree)), (∀ g ∈ groups, Gathers ps g) →
      ∀ qs, qs ⊆ ps → ∀ g ∈ qs.foldl (fun groups p =>
        if groups.any (·.1 == p.vertex) then
          groups.map fun g => if g.1 == p.vertex then (g.1, g.2 ++ [p.trees]) else g
        else groups ++ [(p.vertex, [p.trees])]) groups, Gathers ps g from
    all [] (by simp) ps (List.Subset.refl ps) group member
  intro groups sound qs
  induction qs generalizing groups with
  | nil => exact fun _ => sound
  | cons q qs ih =>
    intro inside
    have inQ : q ∈ ps := inside (by simp)
    rw [List.foldl_cons]
    refine ih _ ?_ fun p later => inside (List.mem_cons_of_mem q later)
    intro g memberG
    split at memberG
    · obtain ⟨h, memberH, rfl⟩ := List.mem_map.mp memberG
      have old := sound h memberH
      split
      · rename_i same
        refine ⟨by simp, ?_⟩
        intro xs inG
        rcases List.mem_append.mp inG with early | new
        · exact old.paths xs early
        · exact ⟨q, inQ, (beq_iff_eq.mp same).symm, (List.mem_singleton.mp new).symm⟩
      · exact old
    · rcases List.mem_append.mp memberG with old | new
      · exact sound g old
      · obtain rfl := List.mem_singleton.mp new
        refine ⟨by simp, ?_⟩
        intro xs inG
        exact ⟨q, inQ, rfl, (List.mem_singleton.mp inG).symm⟩

end Walks

/-- The paths that a version is taken apart by: each leads down from its top, and what was known of
every step of the way is known of it. -/
theorem mem_pop {s : Stack} {v count : Nat} {group : Nat × List (List Tree)} {xs : List Tree}
    {visited : Path → Prop} (member : group ∈ s.pop v count) (tree : xs ∈ group.2)
    (start : visited ⟨(s.version v).top, [], 0⟩)
    (follow : ∀ p, visited p → p.parts ≠ count → ∀ l ∈ (s.vertex p.vertex).links,
      visited (p.follow l)) :
    ∃ p, visited p ∧ p.parts = count ∧ p.vertex = group.1 ∧ p.trees = xs := by
  obtain ⟨p, taken, vertex, trees⟩ := (groupPaths_gathers member).paths xs tree
  have guides : s.Guides (fun (_ : Unit) (p : Path) => ((), ⟨p.parts == count, p.parts == count⟩))
      (fun _ => True) (fun _ => visited) fun p => visited p ∧ p.parts = count := by
    apply guides_paths
    · intro _ p here take
      exact ⟨here, beq_iff_eq.mp take⟩
    · intro _ p here goes
      exact follow p here (by simpa using goes)
  obtain ⟨here, parts⟩ := (walk_guided guides (s.vertices.size + 2) [⟨(s.version v).top, [], 0⟩] []
    () trivial (by simpa using start) (by simp)).2 p taken
  exact ⟨p, here, parts, vertex, trees⟩

theorem mem_pop_leads {s : Stack} {v count : Nat} {group : Nat × List (List Tree)} {xs : List Tree}
    (member : group ∈ s.pop v count) (tree : xs ∈ group.2) :
    ∃ p, s.Leads (s.version v).top p ∧ p.vertex = group.1 ∧ p.trees = xs := by
  obtain ⟨p, leads, _, vertex, trees⟩ := mem_pop member tree Leads.here
    fun p leads _ l link => Leads.follow leads link
  exact ⟨p, leads, vertex, trees⟩

theorem mem_popAll {s : Stack} {v : Nat} {xs : List Tree} (member : xs ∈ s.popAll v) :
    ∃ p, s.Leads (s.version v).top p ∧ (s.vertex p.vertex).links = [] ∧ p.trees = xs := by
  obtain ⟨p, taken, rfl⟩ := List.mem_map.mp member
  have guides : s.Guides
      (fun (_ : Unit) (p : Path) => ((), ⟨(s.vertex p.vertex).links.isEmpty, false⟩))
      (fun _ => True) (fun _ => s.Leads (s.version v).top)
      fun p => s.Leads (s.version v).top p ∧ (s.vertex p.vertex).links = [] :=
    guides_paths (fun _ p path take => ⟨path, List.isEmpty_iff.mp take⟩)
      fun _ p path _ l link => Leads.follow path link
  obtain ⟨leads, bottom⟩ := (walk_guided guides (s.vertices.size + 2)
    [⟨(s.version v).top, [], 0⟩] [] () trivial (by simpa using Leads.here) (by simp)).2 p taken
  exact ⟨p, leads, bottom, rfl⟩

/-- A fault that is taken off a version in a regular state is the tree of one of the links of its top,
and the version then stands below that link. -/
theorem popFault?_spec {t : Text} {G : Nat → Prop} {s s' : Stack} {v : Nat} {x : Tree}
    (graph : s.Graph t G) (top : G (s.version v).top) (regular : s.state v ≠ .recovery)
    (popped : s.popFault? v = some (s', x)) :
    ∃ l ∈ (s.top v).links, l.tree = some x ∧ x.label = .fault ∧
      s' = s.setVersion v fun h => { h with top := l.below } := by
  unfold popFault? at popped
  dsimp only at popped
  split at popped
  · split at popped
    · rename_i i y rest parts others walked
      obtain ⟨rfl, rfl⟩ := Prod.mk.inj (Option.some.inj popped)
      -- a path leaves the top by a link with a tree, and then the walk goes no further
      let visited (p : Path) : Prop := p = ⟨(s.version v).top, [], 0⟩ ∨
        ∃ l ∈ (s.top v).links, ∃ z, l.tree = some z ∧ p.vertex = l.below ∧ p.trees = [z]
      let taken (p : Path) : Prop := ∃ l ∈ (s.top v).links, ∃ z, l.tree = some z ∧
        z.label = .fault ∧ p.vertex = l.below ∧ p.trees = [z]
      have guides : s.Guides seekFault (fun _ => True) (fun _ => visited) taken := by
        apply guides_paths
        · rintro seen p (rfl | ⟨l, link, z, tree, vertex, trees⟩) take
          · simp [seekFault] at take
          · refine ⟨l, link, z, tree, ?_, vertex, trees⟩
            simp only [seekFault, trees] at take
            split at take
            · rename_i fault
              simp only [Bool.and_eq_true] at fault
              exact beq_iff_eq.mp fault.2
            · simp at take
        · rintro seen p (rfl | ⟨l, link, z, tree, vertex, trees⟩) goes l' link'
          · have joined := graph.joined top l' link'
            obtain ⟨z, tree⟩ := Option.isSome_iff_exists.mp (Point.joined_regular joined regular).1
            refine Or.inr ⟨l', link', z, tree, ?_, ?_⟩ <;> simp [Path.follow, tree]
          · simp only [seekFault, trees] at goes
            split at goes <;> simp at goes
      have start : ∀ p ∈ [(⟨(s.version v).top, [], 0⟩ : Path)], visited p := by
        intro p member
        exact Or.inl (List.mem_singleton.mp member)
      obtain ⟨l, link, z, tree, fault, vertex, trees⟩ := (walk_guided guides (s.vertices.size + 2)
        _ [] false trivial start (by simp)).2 ⟨i, y :: rest, parts⟩ (by rw [walked]; simp)
      obtain ⟨rfl, _⟩ := List.cons.inj trees
      exact ⟨l, link, tree, fault, by rw [← vertex]⟩
    · simp at popped
  · simp at popped

/-- What the search for states below a fault has noted: the fault first, and at depth one only states
at the place of the fault. -/
def Notes (c : Cursor) (seen : List Resort) : Prop :=
  seen = [] ∨ ∃ es e, seen = es ++ [e] ∧ e.depth = 0 ∧ e.state = .recovery ∧
    ∀ e' ∈ es, e'.depth ≠ 0 ∧ (e'.depth = 1 → e'.place = c)

/-- A path of that search. Where it has gone down one part, its state is noted or it has come over no
tree yet. -/
structure Seeks (s : Stack) (i : Nat) (seen : List Resort) (p : Path) : Prop where
  leads : s.Leads i p
  first : p.parts = 0 → p.vertex = i
  begun : p.parts ≠ 0 → seen ≠ []
  near : p.parts = 1 → (s.point p.vertex).state ≠ .recovery ∧
    ((s.point p.vertex).place = (s.point i).place ∨
      ∃ e ∈ seen, e.depth = 1 ∧ e.state = (s.point p.vertex).state)

section Resorts

variable {t : Text} {G : Nat → Prop} {s : Stack} {i : Nat} {p q : Path} {seen : List Resort}

theorem noteResort_cases (s : Stack) (seen : List Resort) (p : Path) :
    maxDepth < p.parts ∧ s.noteResort seen p = (seen, ⟨false, true⟩) ∨
      (∃ e ∈ seen.takeWhile (fun r => p.parts ≤ r.depth), e.depth = p.parts ∧
        e.state = (s.point p.vertex).state) ∧ s.noteResort seen p = (seen, ⟨false, false⟩) ∨
      (∀ e ∈ seen.takeWhile (fun r => p.parts ≤ r.depth), e.depth = p.parts →
        e.state ≠ (s.point p.vertex).state) ∧
        s.noteResort seen p =
          (⟨(s.point p.vertex).state, (s.point p.vertex).place, p.parts⟩ :: seen, ⟨false, false⟩) := by
  unfold noteResort
  dsimp only
  split
  · rename_i deep
    exact Or.inl ⟨deep, rfl⟩
  · split
    · rename_i found
      obtain ⟨e, member, same⟩ := List.any_eq_true.mp found
      simp only [Bool.and_eq_true, beq_iff_eq] at same
      exact Or.inr (Or.inl ⟨⟨e, member, same⟩, rfl⟩)
    · rename_i missing
      refine Or.inr (Or.inr ⟨?_, rfl⟩)
      intro e member depth state
      apply missing
      refine List.any_eq_true.mpr ⟨e, member, ?_⟩
      simp only [Bool.and_eq_true, beq_iff_eq]
      exact ⟨depth, state⟩

theorem noteResort_subset : seen ⊆ (s.noteResort seen p).1 := by
  rcases noteResort_cases s seen p with ⟨_, same⟩ | ⟨_, same⟩ | ⟨_, same⟩
  all_goals rw [same]
  · exact List.Subset.refl seen
  · exact List.Subset.refl seen
  · exact List.subset_cons_self _ _

/-- A path that goes on has its state noted. -/
theorem noteResort_noted (goes : (s.noteResort seen p).2.stop = false) :
    ∃ e ∈ (s.noteResort seen p).1, e.depth = p.parts ∧ e.state = (s.point p.vertex).state := by
  rcases noteResort_cases s seen p with ⟨_, same⟩ | ⟨⟨e, found, noted⟩, same⟩ | ⟨_, same⟩
  all_goals rw [same] at goes ⊢
  · cases goes
  · exact ⟨e, List.takeWhile_subset _ found, noted⟩
  · exact ⟨_, List.mem_cons_self, rfl, rfl⟩

theorem Seeks.look (fault : (s.point i).state = .recovery) (notes : Notes (s.point i).place seen)
    (seeks : s.Seeks i seen p) : Notes (s.point i).place (s.noteResort seen p).1 := by
  rcases noteResort_cases s seen p with ⟨_, same⟩ | ⟨_, same⟩ | ⟨new, same⟩
  all_goals rw [same]
  · exact notes
  · exact notes
  · rcases notes with rfl | ⟨es, e, rfl, depth, state, noted⟩
    · have none : p.parts = 0 := Decidable.byContradiction fun some => seeks.begun some rfl
      refine Or.inr ⟨[], _, rfl, none, ?_, by simp⟩
      rw [seeks.first none]
      exact fault
    · by_cases none : p.parts = 0
      · -- the fault itself is noted already
        have inside : e ∈ (es ++ [e]).takeWhile fun r => p.parts ≤ r.depth := by simp [none]
        refine absurd ?_ (new e inside (depth.trans none.symm))
        rw [seeks.first none, state, fault]
      · refine Or.inr ⟨_ :: es, e, rfl, depth, state, List.forall_mem_cons.mpr ⟨⟨none, ?_⟩, noted⟩⟩
        intro (one : p.parts = 1)
        rcases (seeks.near one).2 with place | ⟨e', member, depth', state'⟩
        · exact place
        · -- all notes but the one of the fault are in view from depth one
          have listed : e' ∈ es := by
            rcases List.mem_append.mp member with listed | last
            · exact listed
            · rw [List.mem_singleton.mp last, depth] at depth'
              cases depth'
          have inside : e' ∈ (es ++ [e]).takeWhile fun r => p.parts ≤ r.depth := by
            rw [List.takeWhile_append_of_pos]
            · exact List.mem_append_left _ listed
            · intro r member
              have := (noted r member).1
              simp only [decide_eq_true_eq]
              omega
          exact absurd state' (new e' inside (depth'.trans one.symm))

theorem Seeks.later (seeks : s.Seeks i seen q) : s.Seeks i (s.noteResort seen p).1 q := by
  refine ⟨seeks.leads, seeks.first, ?_, ?_⟩
  · intro some none
    have empty : seen ⊆ (s.noteResort seen p).1 := noteResort_subset
    rw [none] at empty
    exact seeks.begun some (List.subset_nil.mp empty)
  · intro one
    obtain ⟨regular, place | ⟨e, member, noted⟩⟩ := seeks.near one
    · exact ⟨regular, Or.inl place⟩
    · exact ⟨regular, Or.inr ⟨e, noteResort_subset member, noted⟩⟩

theorem Seeks.follow {l : Link} (graph : s.Graph t G) (top : G i) (fresh : s.Fresh G)
    (fault : (s.point i).state = .recovery) (seeks : s.Seeks i seen p)
    (goes : (s.noteResort seen p).2.stop = false) (link : l ∈ (s.vertex p.vertex).links) :
    s.Seeks i (s.noteResort seen p).1 (p.follow l) := by
  have joined := graph.joined (leads_spans graph top seeks.leads).inside l link
  obtain ⟨e, member, depth, state⟩ := noteResort_noted goes
  have begun : (s.noteResort seen p).1 ≠ [] := List.ne_nil_of_mem member
  have leads := Leads.follow seeks.leads link
  by_cases none : p.parts = 0
  · rw [seeks.first none] at link joined
    obtain ⟨mark, regular⟩ := fresh i top fault l link
    rw [mark] at joined
    have place : (s.point l.below).place = (s.point i).place := joined.2.1.symm
    refine ⟨leads, ?_, fun _ => begun, ?_⟩
    · simp [Path.follow, mark]
    · simp only [Path.follow, mark]
      exact fun _ => ⟨regular, Or.inl place⟩
  · have more : p.parts ≤ (p.follow l).parts := by
      unfold Path.follow
      split
      · dsimp only
        split <;> omega
      · exact Nat.le_succ _
    refine ⟨leads, fun zero => by omega, fun _ => begun, ?_⟩
    intro one
    have same : p.parts = 1 := by omega
    obtain ⟨regular, _⟩ := seeks.near same
    obtain ⟨filled, below⟩ := Point.joined_regular joined regular
    obtain ⟨x, tree⟩ := Option.isSome_iff_exists.mp filled
    rw [tree] at joined
    have vertex : (p.follow l).vertex = l.below := by simp [Path.follow, tree]
    rw [vertex]
    rcases joined.step with recovery | ⟨_, still⟩ | ⟨plain, _⟩
    · exact absurd recovery regular
    · exact ⟨below, Or.inr ⟨e, member, depth.trans same, state.trans still.symm⟩⟩
    · simp [Path.follow, tree, plain, same] at one

/-- The states below a fresh fault that are not at its place lie at least two parts below it. -/
theorem mem_resorts {v : Nat} {e : Resort} (graph : s.Graph t G) (top : G (s.version v).top)
    (fresh : s.Fresh G) (fault : s.state v = .recovery) (member : e ∈ s.resorts v) :
    e.state = .recovery ∨ e.place = s.place v ∨ 2 ≤ e.depth := by
  have guides : s.Guides s.noteResort (Notes (s.place v)) (s.Seeks (s.version v).top)
      fun _ => True :=
    ⟨fun _ _ notes seeks => seeks.look fault notes, fun _ _ _ _ seeks => seeks.later,
      fun _ _ _ _ => trivial, fun _ _ seeks goes _ link => seeks.follow graph top fresh fault goes link⟩
  have start : ∀ p ∈ [(⟨(s.version v).top, [], 0⟩ : Path)], s.Seeks (s.version v).top [] p := by
    intro p only
    obtain rfl := List.mem_singleton.mp only
    exact ⟨Leads.here, fun _ => rfl, by simp, by simp⟩
  have notes := (walk_guided guides (s.vertices.size + 2) _ [] [] (Or.inl rfl) start (by simp)).1
  have noted := List.mem_reverse.mp member
  rcases notes with none | ⟨es, first, all, depth, state, rest⟩
  · rw [none] at noted
    cases noted
  · rw [all] at noted
    rcases List.mem_append.mp noted with listed | last
    · obtain ⟨some, near⟩ := rest e listed
      by_cases one : e.depth = 1
      · exact Or.inr (Or.inl (near one))
      · exact Or.inr (Or.inr (by omega))
    · exact Or.inl (List.mem_singleton.mp last ▸ state)

end Resorts

end TemplateMarkup.Markup.Stack
