import TemplateMarkup.Markup.Reader
import TemplateMarkup.Proofs.Markup.Paths

/-!
Reductions on a sound stack. Each takes the parts of a rule off a version and puts the rule in their
place: the new version stands where the old one stands and costs the same, and all other versions stay
as they were.
-/
namespace TemplateMarkup.Markup

open Cursor TemplateMarkup.Markup.Tree

namespace Stack

structure At (s : Stack) (v : Nat) (c : Cursor) : Prop where
  active : (s.version v).status = .active
  place : s.place v = c

/-- Where a version has come to, its state apart. -/
structure Site where
  place : Cursor
  cost : Nat
  tags : Option (List Tag)

def site (s : Stack) (v : Nat) : Site := ⟨s.place v, (s.top v).cost, (s.version v).tags⟩

/-- A version that goes on at a site, in a regular state. -/
structure Stands (s : Stack) (v : Nat) (σ : Site) : Prop where
  active : (s.version v).status = .active
  regular : s.state v ≠ .recovery
  site : s.site v = σ

structure Keeps (s s' : Stack) (v : Nat) : Prop where
  inside : v < s'.versions.length
  alike : (s.version v).Alike (s'.version v)

/-- All versions are kept, and those added go on at the site. -/
structure Adds (σ : Site) (s s' : Stack) : Prop where
  kept : ∀ v < s.versions.length, s.Keeps s' v
  added : ∀ v, s.versions.length ≤ v → v < s'.versions.length → s'.Stands v σ

section Frames

variable {t : Text} {k : Nat} {G G' : Nat → Prop} {s s' s'' : Stack} {v w : Nat} {c : Cursor}
  {σ : Site}

theorem At.lt (stands : s.At v c) : v < s.versions.length := version_lt_of_active stands.active

theorem At.fits (sound : s.Sound t k G) (stands : s.At v c) : s.Fits k G (s.version v) :=
  sound.fits_active stands.active

theorem Stands.at (stands : s.Stands v σ) : s.At v σ.place :=
  ⟨stands.active, congrArg Site.place stands.site⟩

theorem Stands.lt (stands : s.Stands v σ) : v < s.versions.length := stands.at.lt

theorem Stands.fits (sound : s.Sound t k G) (stands : s.Stands v σ) : s.Fits k G (s.version v) :=
  sound.fits_active stands.active

theorem At.stands (here : s.At v c) (regular : s.state v ≠ .recovery) :
    s.Stands v ⟨c, (s.top v).cost, (s.version v).tags⟩ :=
  ⟨here.active, regular, by rw [site, here.place]⟩

/-- A version that is kept stands on the same point. -/
theorem top_alike (top : G (s.version v).top) (alike : (s.version v).Alike (s'.version w))
    (grows : Grows G G' s s') : (s'.top w).point = (s.top v).point := by
  show s'.point (s'.version w).top = s.point (s.version v).top
  rw [← alike.top]
  exact grows.point top

theorem at_alike (stands : s.At v c) (top : G (s.version v).top)
    (alike : (s.version v).Alike (s'.version w)) (grows : Grows G G' s s') : s'.At w c := by
  refine ⟨alike.status ▸ stands.active, ?_⟩
  exact (congrArg Point.place (top_alike top alike grows)).trans stands.place

theorem at_keeps (stands : s.At v c) (top : G (s.version v).top) (keeps : s.Keeps s' v)
    (grows : Grows G G' s s') : s'.At v c :=
  at_alike stands top keeps.alike grows

theorem site_alike (top : G (s.version v).top) (alike : (s.version v).Alike (s'.version w))
    (grows : Grows G G' s s') : s'.site w = s.site v := by
  have point := top_alike top alike grows
  have place : s'.place w = s.place v := congrArg Point.place point
  have cost : (s'.top w).cost = (s.top v).cost := congrArg Point.cost point
  rw [site, site, place, cost, alike.tags]

theorem stands_alike (sound : s.Sound t k G) (stands : s.Stands v σ)
    (alike : (s.version v).Alike (s'.version w)) (grows : Grows G G' s s') : s'.Stands w σ := by
  have top := (stands.fits sound).top
  have state : s'.state w = s.state v := congrArg Point.state (top_alike top alike grows)
  exact ⟨alike.status ▸ stands.active, state ▸ stands.regular,
    (site_alike top alike grows).trans stands.site⟩

theorem stands_keeps (sound : s.Sound t k G) (stands : s.Stands v σ) (keeps : s.Keeps s' v)
    (grows : Grows G G' s s') : s'.Stands v σ :=
  stands_alike sound stands keeps.alike grows

theorem Keeps.trans (first : s.Keeps s' v) (second : s'.Keeps s'' v) : s.Keeps s'' v :=
  ⟨second.inside, first.alike.trans second.alike⟩

theorem keeps_refl (inside : v < s.versions.length) : s.Keeps s v :=
  ⟨inside, Version.Alike.refl _⟩

theorem adds_refl (σ : Site) (s : Stack) : Adds σ s s :=
  ⟨fun _ inside => keeps_refl inside, fun _ low high => absurd low (by omega)⟩

theorem Adds.length_le (adds : Adds σ s s') : s.versions.length ≤ s'.versions.length := by
  cases size : s.versions.length with
  | zero => omega
  | succ n => exact (adds.kept n (by omega)).inside

theorem Adds.trans (sound : s'.Sound t k G) (grows : Grows G G' s' s'') (first : Adds σ s s')
    (second : Adds σ s' s'') : Adds σ s s'' := by
  have longer := first.length_le
  constructor
  · intro v inside
    exact (first.kept v inside).trans (second.kept v (by omega))
  · intro v low high
    by_cases old : v < s'.versions.length
    · have stands := first.added v low old
      exact stands_keeps sound stands (second.kept v old) grows
    · exact second.added v (by omega) high

/-- A change to what a version is not compared by. -/
theorem setVersion_alike {f : Version → Version} (alike : ∀ x : Version, x.Alike (f x)) (u : Nat) :
    (s.version u).Alike ((s.setVersion v f).version u) := by
  by_cases same : u = v
  · subst same
    rcases Nat.lt_or_ge u s.versions.length with bound | beyond
    · rw [version_setVersion_eq f bound]
      exact alike _
    · simp only [version, setVersion]
      rw [List.modify_eq_self (by omega)]
      exact Version.Alike.refl _
  · rw [version_setVersion_ne f same]
    exact Version.Alike.refl _

theorem merge?_keeps {f : Version → Version} (alike : ∀ x : Version, x.Alike (f x))
    (versions : s'.versions = (s.versions.modify v f).eraseIdx w) (inside : w < s.versions.length) :
    (∀ u < w, s.Keeps s' u) ∧
      (∀ u, w ≤ u → u + 1 < s.versions.length →
        u < s'.versions.length ∧ (s.version (u + 1)).Alike (s'.version u)) ∧
      s'.versions.length = s.versions.length - 1 := by
  have length : s'.versions.length = s.versions.length - 1 := by
    rw [versions, List.length_eraseIdx_of_lt (by simpa using inside)]
    simp
  have equal : ∀ u, s'.version u = ((s.setVersion v f).remove w).version u := by
    intro u
    simp only [version, remove, setVersion, versions]
  refine ⟨?_, ?_, length⟩
  · intro u before
    refine ⟨by omega, ?_⟩
    rw [equal, version_remove_lt before]
    exact setVersion_alike alike u
  · intro u after bound
    refine ⟨by omega, ?_⟩
    rw [equal, version_remove_ge after]
    exact setVersion_alike alike (u + 1)

end Frames

section Gains

variable {t : Text} {k : Nat} {G G' : Nat → Prop} {s u : Stack} {v : Nat} {tags : Option (List Tag)}
  {p : Point} {last : Version}

/-- The stack with one more version, which goes on from a point. -/
structure Gains (t : Text) (G G' : Nat → Prop) (s u : Stack) (tags : Option (List Tag)) (p : Point)
    (last : Version) : Prop where
  grows : Grows G G' s u
  graph : u.Graph t G'
  versions : u.versions = s.versions ++ [last]
  top : G' last.top
  active : last.status = .active
  tags : last.tags = tags
  point : u.point last.top = p

theorem Gains.fits (gains : Gains t G G' s u tags p last) (cost : k ≤ p.cost) : u.Fits k G' last := by
  refine ⟨gains.top, by rw [gains.point]; exact cost, ?_⟩
  intro x paused
  rw [gains.active] at paused
  cases paused

theorem Gains.sound (gains : Gains t G G' s u tags p last) (sound : s.Sound t k G)
    (cost : k ≤ p.cost) : u.Sound t k G' := by
  refine sound_grows sound gains.graph gains.grows ?_
  intro x member
  rw [gains.versions] at member
  rcases List.mem_append.mp member with old | new
  · exact Or.inl old
  · exact Or.inr (List.mem_singleton.mp new ▸ gains.fits cost)

theorem Gains.version_old (gains : Gains t G G' s u tags p last) (old : v < s.versions.length) :
    u.version v = s.version v := by
  simp only [Stack.version, gains.versions, List.getD_eq_getElem?_getD,
    List.getElem?_append_left old]

theorem Gains.version_last (gains : Gains t G G' s u tags p last) :
    u.version s.versions.length = last := by
  simp [Stack.version, gains.versions]

theorem Gains.length (gains : Gains t G G' s u tags p last) :
    u.versions.length = s.versions.length + 1 := by
  rw [gains.versions, List.length_append, List.length_singleton]

theorem Gains.keeps (gains : Gains t G G' s u tags p last) (old : v < s.versions.length) :
    s.Keeps u v := by
  refine ⟨by rw [gains.length]; omega, ?_⟩
  rw [gains.version_old old]
  exact Version.Alike.refl _

theorem Gains.adds (gains : Gains t G G' s u tags p last) (regular : p.state ≠ .recovery) :
    Adds ⟨p.place, p.cost, tags⟩ s u := by
  refine ⟨fun v old => gains.keeps old, ?_⟩
  intro v low high
  have here : v = s.versions.length := by
    rw [gains.length] at high
    omega
  subst here
  have top : (u.top s.versions.length).point = p := by
    show u.point (u.version s.versions.length).top = p
    rw [gains.version_last, gains.point]
  refine ⟨by rw [gains.version_last]; exact gains.active, ?_, ?_⟩
  · show (u.top s.versions.length).point.state ≠ _
    rw [top]
    exact regular
  · show Site.mk (u.top s.versions.length).point.place (u.top s.versions.length).point.cost _ = _
    rw [top, gains.version_last, gains.tags]

end Gains

theorem pushExtras_spec {t : Text} {G : Nat → Prop} {s : Stack} {before : List Version}
    {last : Version} {d : Cursor} {state : State} (xs : List Tree) (graph : s.Graph t G)
    (versions : s.versions = before ++ [last]) (top : G last.top) (regular : state ≠ .recovery)
    (here : (s.point last.top).state = state) (row : Row (s.point last.top).place xs d)
    (sound : ∀ x ∈ xs, x.Sound) (extras : ∀ x ∈ xs, x.isExtra = true)
    (skipped : ∀ x ∈ xs, x.label = .skipped → x.isExtra = false)
    (faults : ∀ x ∈ xs, x.label = .fault → x.EndsPlain) :
    ∃ G' last', Grows G G' s (s.pushAll before.length xs state) ∧
      (s.pushAll before.length xs state).Graph t G' ∧
      (s.pushAll before.length xs state).versions = before ++ [last'] ∧
      G' last'.top ∧ last'.status = last.status ∧ last'.tags = last.tags ∧
      (s.pushAll before.length xs state).point last'.top =
        ⟨state, d, (s.point last.top).cost + costs xs⟩ := by
  induction xs generalizing G s last with
  | nil =>
    obtain rfl := row_nil_iff.mp row
    refine ⟨G, last, Grows.refl G s, graph, versions, top, rfl, rfl, ?_⟩
    subst here
    rfl
  | cons x xs ih =>
    cases row with
    | cons gap rest =>
      have extra := extras x (by simp)
      have joined : (s.point last.top).Joined ((s.point last.top).next (some x) state)
          (some x) := by
        refine ⟨sound x (by simp), gap, rfl, rfl, Or.inr (Or.inl ⟨extra, here⟩), ?_, ?_⟩
        · intro label
          rw [skipped x (by simp) label] at extra
          simp at extra
        · exact fun label => ⟨extra, here, faults x (by simp) label⟩
      obtain ⟨G₁, next, grows, larger, nextVersions, topNext, nextStatus, nextTags, point⟩ :=
        push_last graph versions top regular joined
      obtain ⟨G', last', growsLast, graphLast, versionsLast, topLast, status, tags, pointLast⟩ :=
        ih larger nextVersions topNext (by rw [point]; rfl)
          (by rw [point]; exact rest) (fun y member => sound y (List.mem_cons_of_mem x member))
          (fun y member => extras y (List.mem_cons_of_mem x member))
          (fun y member => skipped y (List.mem_cons_of_mem x member))
          (fun y member => faults y (List.mem_cons_of_mem x member))
      refine ⟨G', last', grows.trans growsLast, graphLast, versionsLast, topLast,
        status.trans nextStatus, tags.trans nextTags, ?_⟩
      rw [pushAll, List.foldl_cons]
      rw [pushAll] at pointLast
      rw [pointLast, point, costs, Point.next, Nat.add_assoc]

end Stack

/-- How far a path down from the end of a quoted value has come: the states on the way are known, and
the last tree on it is the quotation mark that opens the value. -/
inductive Stack.Unquotes (s : Stack) (q : Quote) (o : Opener) (last : State) (count : Nat)
    (p : Stack.Path) : Prop where
  | closed (state : (s.point p.vertex).state = last) (parts : p.parts = 0)
  | text (state : (s.point p.vertex).state = .quoteText q o) (parts : p.parts + 2 = count)
  | opened (state : (s.point p.vertex).state = .quoteOpened q o) (parts : p.parts + 1 = count)
  | whole (parts : p.parts = count) {x : Tree} (head : p.trees.head? = some x)
      (plain : x.isExtra = false) (label : x.label = .terminal q.mark)
      (present : x.info.missing = false)

def Quote.Ends (q : Quote) (o : Opener) (last : State) (count : Nat) : Prop :=
  last = .quoteEmpty q o ∧ count = 2 ∨ last = .quoteFull q o ∧ count = 3

theorem State.completed?_quotedValue {s : State} {count : Nat}
    (complete : s.completed? = some (.quotedValue, count)) : ∃ q o, Quote.Ends q o s count := by
  unfold completed? at complete
  split at complete
  case h_9 k _ | h_10 k _ | h_15 k | h_16 k =>
    cases k <;> simp [RawKind.element, RawKind.startTag] at complete
  case h_21 q o =>
    have count := (Prod.mk.inj (Option.some.inj complete)).2
    exact ⟨q, o, Or.inl ⟨rfl, count.symm⟩⟩
  case h_22 q o =>
    have count := (Prod.mk.inj (Option.some.inj complete)).2
    exact ⟨q, o, Or.inr ⟨rfl, count.symm⟩⟩
  all_goals simp at complete

theorem State.completed?_regular {s : State} {red : Nonterminal × Nat}
    (complete : s.completed? = some red) : s ≠ .recovery := by
  rintro rfl
  cases complete

theorem State.completed?_pos {s : State} {n : Nonterminal} {count : Nat}
    (complete : s.completed? = some (n, count)) (other : n ≠ .document) : 0 < count := by
  cases s
  case start =>
    cases complete
    exact absurd rfl other
  all_goals cases complete
  all_goals decide

namespace Stack

section Reduce

variable {t : Text} {k : Nat} {G : Nat → Prop} {s : Stack} {v : Nat}

theorem unquotes_follow {q : Quote} {o : Opener} {last : State} {count : Nat} {p : Path}
    {l : Link} (ends : q.Ends o last count) (unquotes : s.Unquotes q o last count p)
    (more : p.parts ≠ count) (joined : (s.point l.below).Joined (s.point p.vertex) l.tree) :
    s.Unquotes q o last count (p.follow l) := by
  -- none of the states on the way is recovery, so the link has a tree
  have regular : (s.point p.vertex).state ≠ .recovery := by
    cases unquotes with
    | closed state _ =>
      rcases ends with ⟨rfl, _⟩ | ⟨rfl, _⟩ <;> simp [state]
    | text state _ => simp [state]
    | opened state _ => simp [state]
    | whole parts _ _ _ _ => exact absurd parts more
  obtain ⟨x, tree⟩ := Option.isSome_iff_exists.mp (Point.joined_regular joined regular).1
  rw [tree] at joined
  rcases joined.step with recovery | ⟨extra, same⟩ | ⟨plain, step, missing⟩
  · exact absurd recovery regular
  · simp only [Path.follow, tree, extra, if_true]
    cases unquotes with
    | closed state parts => exact .closed (same.trans state) parts
    | text state parts => exact .text (same.trans state) parts
    | opened state parts => exact .opened (same.trans state) parts
    | whole parts _ _ _ _ => exact absurd parts more
  · have moves := State.moves_of_after? step
    simp only [Path.follow, tree, plain, Bool.false_eq_true, if_false]
    cases unquotes with
    | closed state parts =>
      rw [state] at moves
      rcases ends with ⟨rfl, two⟩ | ⟨rfl, three⟩
      · exact .opened (State.moves_quoteEmpty moves) (by simp [parts, two])
      · exact .text (State.moves_quoteFull moves) (by simp [parts, three])
    | text state parts =>
      rw [state] at moves
      exact .opened (State.moves_quoteText moves) (by simp only; omega)
    | opened state parts =>
      rw [state] at moves missing
      have present : x.info.missing = false := by simpa [State.completed?] using missing
      exact .whole parts rfl plain (State.moves_quoteOpened moves) present
    | whole parts _ _ _ _ => exact absurd parts more

/-- Every way to take the parts of a rule off: it spans what lies between the top of the version and a
vertex below, which goes on with the rule; a quoted value starts with its quotation mark, and the last
part completes the rule. -/
def Reducible (G : Nat → Prop) (s : Stack) (v : Nat) (n : Nonterminal)
    (group : Nat × List (List Tree)) : Prop :=
  ∀ xs ∈ group.2, s.Spans G (s.version v).top group.1 xs ∧
    ((s.point group.1).state.goto? n).isSome ∧ (∀ x ∈ xs, x.label ≠ .skipped) ∧
    (n = .quotedValue → ∃ (q : Quote) (x : Tree), xs.head? = some x ∧ x.isExtra = false ∧
      x.label = .terminal q.mark ∧ x.info.missing = false) ∧
    (n ≠ .document → Ends n (splitTrailing xs).1)

/-- A path over the parts of a rule ends with the one that completes it. -/
theorem pop_ends {n : Nonterminal} {count : Nat} {p : Path} (graph : s.Graph t G)
    (top : G (s.version v).top) (complete : (s.state v).completed? = some (n, count))
    (other : n ≠ .document) (leads : s.Leads (s.version v).top p) (parts : p.parts = count) :
    Ends n (splitTrailing p.trees).1 := by
  have regular := State.completed?_regular complete
  obtain ⟨size, _, ended⟩ := leads_parts graph top regular leads
  obtain ⟨last, enough⟩ := splitTrailing_plain p.trees
  have filled : (p.trees.filter fun x => !x.isExtra).getLast?.isSome := by
    rw [List.getLast?_isSome, ← List.length_pos_iff, size, parts]
    exact State.completed?_pos complete other
  obtain ⟨y, found⟩ := Option.isSome_iff_exists.mp filled
  obtain ⟨below, step⟩ := ended y found
  exact ⟨below, s.state v, count, y, complete, step, last.trans found, by omega⟩

theorem pop_reducible {n : Nonterminal} {count : Nat} {group : Nat × List (List Tree)}
    (graph : s.Graph t G) (top : G (s.version v).top)
    (complete : (s.state v).completed? = some (n, count)) (member : group ∈ s.pop v count) :
    s.Reducible G v n group := by
  intro xs tree
  have regular := State.completed?_regular complete
  obtain ⟨p, leads, parts, vertex, trees⟩ := mem_pop member tree Leads.here
    fun p leads _ l link => Leads.follow leads link
  have spans := leads_spans graph top leads
  have skipped := (leads_regular graph top regular leads).2
  have back := (leads_parts graph top regular leads).2.1
  rw [vertex, trees] at spans
  rw [trees] at skipped
  rw [vertex, parts] at back
  refine ⟨spans, State.goto?_of_back back complete, skipped, ?_,
    fun other => trees ▸ pop_ends graph top complete other leads parts⟩
  rintro rfl
  obtain ⟨q, o, ends⟩ := State.completed?_quotedValue complete
  have start : s.Leads (s.version v).top ⟨(s.version v).top, [], 0⟩ ∧
      s.Unquotes q o (s.state v) count ⟨(s.version v).top, [], 0⟩ :=
    ⟨Leads.here, .closed rfl rfl⟩
  have follow : ∀ p, s.Leads (s.version v).top p ∧ s.Unquotes q o (s.state v) count p →
      p.parts ≠ count → ∀ l ∈ (s.vertex p.vertex).links,
      s.Leads (s.version v).top (p.follow l) ∧ s.Unquotes q o (s.state v) count (p.follow l) := by
    intro p ⟨leads, unquotes⟩ more l link
    have joined := graph.joined (leads_spans graph top leads).inside l link
    exact ⟨Leads.follow leads link, unquotes_follow ends unquotes more joined⟩
  obtain ⟨p, ⟨_, unquotes⟩, parts, _, trees⟩ := mem_pop member tree start follow
  subst trees
  cases unquotes with
  | closed _ zero => rcases ends with ⟨_, two⟩ | ⟨_, three⟩ <;> omega
  | text _ two => omega
  | opened _ one => omega
  | whole _ head plain label present => exact ⟨q, _, head, plain, label, present⟩

end Reduce

end Stack

namespace Reader

open Stack

theorem chooseTree_spec (label : Label) (place : Cursor) (first : List Tree)
    (others : List (List Tree)) : ∃ xs ∈ first :: others,
    chooseTree label place first others =
      (Tree.build label place (splitTrailing xs).1, (splitTrailing xs).2) := by
  suffices all : ∀ (rest : List (List Tree)) (best : Tree × List Tree), rest ⊆ others →
      (∃ xs ∈ first :: others, best =
        (Tree.build label place (splitTrailing xs).1, (splitTrailing xs).2)) →
      ∃ xs ∈ first :: others, rest.foldl (fun best ts =>
        if (Tree.build label place (splitTrailing ts).1).supersedes best.1 then
          (Tree.build label place (splitTrailing ts).1, (splitTrailing ts).2)
        else best) best =
          (Tree.build label place (splitTrailing xs).1, (splitTrailing xs).2) from
    all others _ (List.Subset.refl others) ⟨first, by simp, rfl⟩
  intro rest
  induction rest with
  | nil => exact fun best _ chosen => chosen
  | cons ts rest ih =>
    intro best inside chosen
    rw [List.foldl_cons]
    apply ih _ fun x member => inside (List.mem_cons_of_mem ts member)
    split
    · exact ⟨ts, List.mem_cons_of_mem first (inside (by simp)), rfl⟩
    · exact chosen

section Reduce

variable {t : Text} {k : Nat} {G : Nat → Prop} {s : Stack} {v : Nat} {c : Cursor} {σ : Site}

/-- An added version that joins another one leaves the rest as it was. -/
theorem merge?_adds {u u' : Stack} {j : Nat} (sound : u.Sound t k G) (adds : Adds σ s u)
    (merged : u.merge? j s.versions.length = some u') :
    u'.Sound t k G ∧ Grows G G u u' ∧ Adds σ s u' := by
  obtain ⟨soundMerged, grows, inside, f, alike, versions⟩ := merge?_spec sound merged
  obtain ⟨before, after, length⟩ := merge?_keeps alike versions inside
  refine ⟨soundMerged, grows, ?_, ?_⟩
  · intro i old
    exact (adds.kept i old).trans (before i old)
  · intro i low high
    have stands := adds.added (i + 1) (by omega) (by omega)
    obtain ⟨_, same⟩ := after i low (by omega)
    exact stands_alike sound stands same grows

/-- A tree and the extras after it, on a fork of a version at a vertex below. -/
theorem graft_gains {u : Stack} {j : Nat} {x : Tree} {extras : List Tree} {next : State}
    (graph : s.Graph t G) (below : G j) (regular : next ≠ .recovery)
    (joined : (s.point j).Joined ((s.point j).next (some x) next) (some x))
    (row : Row x.info.stop extras c) (soundExtras : ∀ y ∈ extras, y.Sound)
    (extra : ∀ y ∈ extras, y.isExtra = true)
    (skipped : ∀ y ∈ extras, y.label = .skipped → y.isExtra = false)
    (faults : ∀ y ∈ extras, y.label = .fault → y.EndsPlain)
    (built : u = (s.fork v j).pushAll s.versions.length (x :: extras) next) :
    ∃ G' last, Gains t G G' s u (s.version v).tags
      ⟨next, c, (s.point j).cost + x.cost + costs extras⟩ last := by
  have forked : (s.fork v j).Graph t G := graph.congr rfl
  obtain ⟨G₁, first, growsFirst, graphFirst, versionsFirst, topFirst, statusFirst, tagsFirst,
    pointFirst⟩ := push_last forked rfl below regular joined
  have same : (s.fork v j).point j = s.point j := rfl
  rw [same] at pointFirst
  have state : (((s.fork v j).push s.versions.length (some x) next).point first.top).state =
      next := by rw [pointFirst]; rfl
  obtain ⟨G₂, last, growsLast, graphLast, versionsLast, topLast, statusLast, tagsLast, pointLast⟩ :=
    pushExtras_spec extras graphFirst versionsFirst topFirst regular state
      (by rw [pointFirst]; exact row) soundExtras extra skipped faults
  have result : ((s.fork v j).push s.versions.length (some x) next).pushAll s.versions.length
      extras next = u := built.symm
  rw [result] at growsLast graphLast versionsLast pointLast
  have growsFork : Grows G G s (s.fork v j) := Grows.of_vertices G rfl
  refine ⟨G₂, last, growsFork.trans (growsFirst.trans growsLast), graphLast, versionsLast, topLast,
    statusLast.trans statusFirst, tagsLast.trans tagsFirst, ?_⟩
  rw [pointLast, pointFirst]
  rfl

/-- A rule over its parts, and the extras after them, on a fork of the version they came from. -/
theorem graftRule_spec {u : Stack} {n : Nonterminal} {j : Nat} {parts extras : List Tree}
    (sound : s.Sound t k G) (stands : s.Stands v σ)
    (spans : s.Spans G (s.version v).top j (parts ++ extras))
    (goes : ((s.point j).state.goto? n).isSome)
    (regular : ∀ x ∈ parts ++ extras, x.label ≠ .skipped) (extra : ∀ x ∈ extras, x.isExtra = true)
    (quoted : n = .quotedValue → ∃ (q : Quote) (x : Tree), parts.head? = some x ∧
      x.label = .terminal q.mark ∧ x.info.missing = false)
    (ended : n ≠ .document → Ends n parts)
    (built : u = (s.fork v j).pushAll s.versions.length
      (Tree.build (.nonterminal n) (s.vertex j).place parts :: extras)
      (((s.vertex j).state.goto? n).getD .recovery)) :
    ∃ G', Grows G G' s u ∧ u.Sound t k G' ∧ Adds σ s u := by
  have soundParts : ∀ x ∈ parts, x.Sound := fun x member => spans.sound x (by simp [member])
  have plainParts : ∀ x ∈ parts, x.label ≠ .skipped := fun x member => regular x (by simp [member])
  obtain ⟨d, rowParts, rowExtras⟩ := row_split spans.row
  have treeSound : (Tree.build (.nonterminal n) (s.vertex j).place parts).Sound := by
    refine build_sound (fun _ => ⟨_, d, rowParts⟩) soundParts (by simp) (fun _ _ => plainParts) ?_ ?_
    · intro same
      exact quoted (Label.nonterminal.inj same)
    · intro m same
      exact Label.nonterminal.inj same ▸ ended
  have treeCost : (Tree.build (.nonterminal n) (s.vertex j).place parts).cost = costs parts :=
    build_rule_cost n plainParts
  have rowTree : Row (s.vertex j).place [Tree.build (.nonterminal n) (s.vertex j).place parts] d :=
    build_row rowParts
  obtain ⟨next, goes⟩ := Option.isSome_iff_exists.mp goes
  have step : (s.point j).state.after? (.nonterminal n) = some next := goes
  rw [show (s.vertex j).state.goto? n = some next from goes, Option.getD_some] at built
  generalize shape : Tree.build (.nonterminal n) (s.vertex j).place parts = x at *
  cases rowTree with
  | cons gap rest =>
    obtain rfl := row_nil_iff.mp rest
    have joined : (s.point j).Joined ((s.point j).next (some x) next) (some x) := by
      refine ⟨treeSound, gap, rfl, rfl, Or.inr (Or.inr ?_), by simp [← shape], by simp [← shape]⟩
      rw [← shape]
      exact ⟨rfl, step, by simp⟩
    obtain ⟨G', last, gains⟩ := graft_gains sound.graph spans.inside (State.after?_regular step) joined
      rowExtras (fun y member => spans.sound y (by simp [member])) extra
      (fun y member => spans.skipped y (by simp [member]))
      (fun y member => spans.faults y (by simp [member])) built
    have cost : (s.point j).cost + x.cost + costs extras = (s.point (s.version v).top).cost := by
      rw [spans.cost, costs_append, treeCost, Nat.add_assoc]
    rw [cost] at gains
    have site : (⟨(s.point (s.version v).top).place, (s.point (s.version v).top).cost,
        (s.version v).tags⟩ : Site) = σ := stands.site
    have adds := gains.adds (State.after?_regular step)
    rw [site] at adds
    exact ⟨G', gains.grows, gains.sound sound (stands.fits sound).cost, adds⟩

theorem reduceGroup_spec {n : Nonterminal} {group : Nat × List (List Tree)}
    (sound : s.Sound t k G) (stands : s.Stands v σ) (reducible : s.Reducible G v n group) :
    ∃ G', Grows G G' s (reduceGroup v n s group) ∧ (reduceGroup v n s group).Sound t k G' ∧
      Adds σ s (reduceGroup v n s group) := by
  have unchanged : ∃ G', Grows G G' s s ∧ s.Sound t k G' ∧ Adds σ s s :=
    ⟨G, Grows.refl G s, sound, adds_refl σ s⟩
  unfold reduceGroup
  dsimp only
  split
  · exact unchanged
  · split
    · exact unchanged
    · rename_i first others ways
      obtain ⟨xs, member, choice⟩ := chooseTree_spec (.nonterminal n) (s.vertex group.1).place
        first others
      rw [← ways] at member
      obtain ⟨spans, goes, skipped, quoted, ended⟩ := reducible xs member
      rw [choice]
      dsimp only
      have opened : n = .quotedValue → ∃ (q : Quote) (x : Tree),
          (splitTrailing xs).1.head? = some x ∧ x.label = .terminal q.mark ∧
            x.info.missing = false := by
        intro same
        obtain ⟨q, x, head, plain, label, present⟩ := quoted same
        obtain ⟨rest, rfl⟩ := List.head?_eq_some_iff.mp head
        exact ⟨q, x, splitTrailing_head rest plain, label, present⟩
      have whole := splitTrailing_append xs
      rw [← whole] at spans skipped
      generalize built : (s.fork v group.1).pushAll s.versions.length _ _ = u
      obtain ⟨G₁, grows, larger, adds⟩ := graftRule_spec sound stands spans goes skipped
        (splitTrailing_extras xs) opened ended built.symm
      cases merged : mergeInto u v s.versions.length s.versions.length with
      | none => exact ⟨G₁, grows, larger, adds⟩
      | some u' =>
        obtain ⟨j, inRange, found⟩ := List.exists_of_findSome?_eq_some merged
        split at found
        · simp at found
        · obtain ⟨soundMerged, growsMerged, addsMerged⟩ := merge?_adds larger adds found
          exact ⟨G₁, grows.trans growsMerged, soundMerged, addsMerged⟩

theorem reduceGroups_spec {n : Nonterminal} (groups : List (Nat × List (List Tree)))
    (sound : s.Sound t k G) (stands : s.Stands v σ)
    (reducible : ∀ group ∈ groups, s.Reducible G v n group) :
    ∃ G', Grows G G' s (groups.foldl (reduceGroup v n) s) ∧
      (groups.foldl (reduceGroup v n) s).Sound t k G' ∧
      Adds σ s (groups.foldl (reduceGroup v n) s) := by
  induction groups generalizing s G with
  | nil => exact ⟨G, Grows.refl G s, sound, adds_refl σ s⟩
  | cons group groups ih =>
    obtain ⟨G₁, grows, larger, adds⟩ := reduceGroup_spec sound stands (reducible group (by simp))
    have kept := adds.kept v stands.lt
    have later : ∀ g ∈ groups, (reduceGroup v n s group).Reducible G₁ v n g := by
      intro g member xs tree
      obtain ⟨spans, goes, rest⟩ := reducible g (List.mem_cons_of_mem group member) xs tree
      rw [← kept.alike.top]
      refine ⟨spans.grows (stands.fits sound).top grows, ?_, rest⟩
      rw [grows.point spans.inside]
      exact goes
    obtain ⟨G₂, growsLast, soundLast, addsLast⟩ :=
      ih larger (stands_keeps sound stands kept grows) later
    exact ⟨G₂, grows.trans growsLast, soundLast, Adds.trans larger growsLast adds addsLast⟩

/-- A reduction adds versions at the site of the version that it is made on. -/
theorem reduce_spec {n : Nonterminal} {count : Nat} (sound : s.Sound t k G) (stands : s.Stands v σ)
    (complete : (s.state v).completed? = some (n, count)) :
    ∃ G', Grows G G' s (reduce s v n count) ∧ (reduce s v n count).Sound t k G' ∧
      Adds σ s (reduce s v n count) := by
  apply reduceGroups_spec _ sound stands
  intro group member
  exact pop_reducible sound.graph (stands.fits sound).top complete member

theorem added?_eq_some {before after : Stack} {w : Nat} (added : added? before after = some w) :
    w = before.versions.length ∧ w < after.versions.length := by
  unfold added? at added
  split at added
  · obtain rfl := Option.some.inj added
    exact ⟨rfl, by assumption⟩
  · simp at added

theorem reductions_complete {state : State} {ts : List Terminal} {red : Nonterminal × Nat}
    (member : red ∈ (reductions state ts).1) : state.completed? = some red := by
  simp only [reductions, List.mem_eraseDups, List.mem_filter, List.mem_filterMap] at member
  obtain ⟨⟨terminal, _, reduces⟩, _⟩ := member
  unfold State.reduce? at reduces
  split at reduces
  · exact reduces
  · simp at reduces

theorem state_keeps {s' : Stack} {G' : Nat → Prop} (sound : s.Sound t k G) (stands : s.Stands v σ)
    (kept : s.Keeps s' v) (grows : Grows G G' s s') : s'.state v = s.state v :=
  congrArg Point.state (top_alike (stands.fits sound).top kept.alike grows)

/-- Reductions of a version one after the other; the last version added by the last of them. -/
theorem reduceList_spec (reds : List (Nonterminal × Nat)) {last : Option Nat}
    (sound : s.Sound t k G) (stands : s.Stands v σ)
    (complete : ∀ red ∈ reds, (s.state v).completed? = some red)
    {u : Stack × Option Nat} (result : reds.foldl (fun x red =>
      (reduce x.1 v red.1 red.2, added? x.1 (reduce x.1 v red.1 red.2))) (s, last) = u) :
    ∃ G', Grows G G' s u.1 ∧ u.1.Sound t k G' ∧ Adds σ s u.1 ∧
      (u.2 = last ∧ reds = [] ∨
        ∀ w, u.2 = some w → s.versions.length ≤ w ∧ w < u.1.versions.length) := by
  induction reds generalizing s G last with
  | nil =>
    subst result
    exact ⟨G, Grows.refl G s, sound, adds_refl σ s, Or.inl ⟨rfl, rfl⟩⟩
  | cons red reds ih =>
    obtain ⟨G₁, grows, larger, adds⟩ := reduce_spec sound stands (complete red (by simp))
    have kept := adds.kept v stands.lt
    have same := state_keeps sound stands kept grows
    rw [List.foldl_cons] at result
    obtain ⟨G₂, growsLast, soundLast, addsLast, added⟩ :=
      ih larger (stands_keeps sound stands kept grows) (by
        intro other member
        rw [same]
        exact complete other (List.mem_cons_of_mem red member)) result
    refine ⟨G₂, grows.trans growsLast, soundLast, Adds.trans larger growsLast adds addsLast,
      Or.inr ?_⟩
    have longer := adds.length_le
    have longest := addsLast.length_le
    intro w found
    rcases added with ⟨first, _⟩ | later
    · rw [first] at found
      obtain ⟨same, bound⟩ := added?_eq_some found
      dsimp only at same bound
      omega
    · have := later w found
      omega

/-- While reductions are made on `first` and on what comes out of it: the versions below `initial`
other than `first` are kept, and all others go on at the site. -/
structure Spread (first initial : Nat) (σ : Site) (s₀ s : Stack) : Prop where
  kept : ∀ v < initial, v ≠ first → s₀.Keeps s v
  rest : ∀ v < s.versions.length, v = first ∨ initial ≤ v → s.Stands v σ

theorem Spread.adds {first initial : Nat} {s₀ s' : Stack} {G' : Nat → Prop}
    (spread : Spread first initial σ s₀ s) (sound : s.Sound t k G) (grows : Grows G G' s s')
    (adds : Adds σ s s') : Spread first initial σ s₀ s' := by
  constructor
  · intro u low other
    have kept := spread.kept u low other
    exact kept.trans (adds.kept u kept.inside)
  · intro u inside region
    by_cases old : u < s.versions.length
    · exact stands_keeps sound (spread.rest u old region) (adds.kept u old) grows
    · exact adds.added u (by omega) inside

/-- One version of the region is taken out of the list; those after it move down. -/
theorem Spread.drop {first initial w : Nat} {s₀ s' : Stack} {G' : Nat → Prop}
    (spread : Spread first initial σ s₀ s) (sound : s.Sound t k G) (grows : Grows G G' s s')
    (region : initial ≤ w ∨ w = first ∧ first + 1 = initial)
    (length : s'.versions.length = s.versions.length - 1) (inside : w < s.versions.length)
    (before : ∀ u < w, u = first ∨ initial ≤ u → s'.Stands u σ)
    (keeps : ∀ u < initial, u ≠ first → s.Keeps s' u)
    (after : ∀ u, w ≤ u → u + 1 < s.versions.length → (s.version (u + 1)).Alike (s'.version u)) :
    Spread first initial σ s₀ s' := by
  constructor
  · intro u low other
    exact (spread.kept u low other).trans (keeps u low other)
  · intro u bound here
    by_cases early : u < w
    · exact before u early here
    · have stands := spread.rest (u + 1) (by omega) (by omega)
      exact stands_alike sound stands (after u (by omega) (by omega)) grows

theorem replace_version_lt {u w : Nat} (lower : v < w) (early : u < w) (other : u ≠ v) :
    (s.replace v w).version u = s.version u := by
  unfold replace
  rw [if_neg (by omega), version_remove_lt early, version_setVersion_ne _ other]

theorem replace_version_eq {w : Nat} (lower : v < w) (inside : v < s.versions.length) :
    (s.version w).Alike ((s.replace v w).version v) := by
  unfold replace
  rw [if_neg (by omega), version_remove_lt lower, version_setVersion_eq _ inside]
  exact ⟨rfl, rfl, rfl⟩

theorem replace_version_ge {u w : Nat} (lower : v < w) (late : w ≤ u) :
    (s.replace v w).version u = s.version (u + 1) := by
  unfold replace
  rw [if_neg (by omega), version_remove_ge late, version_setVersion_ne _ (by omega)]

theorem replace_sound {w : Nat} (sound : s.Sound t k G) :
    (s.replace v w).Sound t k G ∧ Grows G G s (s.replace v w) := by
  unfold replace
  split
  · exact ⟨sound, Grows.refl G s⟩
  · refine ⟨remove_sound (setVersion_sound _ sound ?_), Grows.of_vertices G rfl⟩
    intro _ live
    have fits := sound.fits_version live
    exact ⟨fits.top, fits.cost, fits.waits⟩

theorem replace_length {w : Nat} (lower : v < w) (inside : w < s.versions.length) :
    (s.replace v w).versions.length = s.versions.length - 1 := by
  unfold replace
  rw [if_neg (by omega), length_remove (by simpa using inside), length_setVersion]

theorem Spread.replace {first initial w : Nat} {s₀ : Stack} (spread : Spread first initial σ s₀ s)
    (sound : s.Sound t k G) (lower : v < w) (region : v = first ∨ initial ≤ v)
    (bound : initial ≤ w) (inside : w < s.versions.length) :
    Spread first initial σ s₀ (s.replace v w) := by
  have grows := (replace_sound (v := v) (w := w) sound).2
  refine spread.drop sound grows (Or.inl bound) (replace_length lower inside) inside ?_ ?_ ?_
  · intro u early here
    by_cases same : u = v
    · subst same
      have stands := spread.rest w inside (Or.inr bound)
      exact stands_alike sound stands (replace_version_eq lower (by omega)) grows
    · have stands := spread.rest u (by omega) here
      refine stands_alike sound stands ?_ grows
      rw [replace_version_lt lower early same]
      exact Version.Alike.refl _
  · intro u low other
    refine ⟨by rw [replace_length lower inside]; omega, ?_⟩
    rw [replace_version_lt lower (by omega) (by omega)]
    exact Version.Alike.refl _
  · intro u late _
    rw [replace_version_ge lower late]
    exact Version.Alike.refl _

theorem Spread.remove {first initial : Nat} {s₀ : Stack} (spread : Spread first initial σ s₀ s)
    (sound : s.Sound t k G) (contiguous : first + 1 = initial)
    (region : v = first ∨ initial ≤ v) (inside : v < s.versions.length) :
    Spread first initial σ s₀ (s.remove v) := by
  have grows : Grows G G s (s.remove v) := Grows.of_vertices G rfl
  refine spread.drop sound grows (by omega) (length_remove inside) inside ?_ ?_ ?_
  · intro u early here
    have stands := spread.rest u (by omega) here
    refine stands_alike sound stands ?_ grows
    rw [version_remove_lt early]
    exact Version.Alike.refl _
  · intro u low other
    refine ⟨by rw [length_remove inside]; omega, ?_⟩
    rw [version_remove_lt (by omega)]
    exact Version.Alike.refl _
  · intro u late _
    rw [version_remove_ge late]
    exact Version.Alike.refl _

theorem Spread.merge {first initial j : Nat} {s₀ s' : Stack}
    (spread : Spread first initial σ s₀ s) (sound : s.Sound t k G) (bound : initial ≤ v)
    (merged : s.merge? j v = some s') : Spread first initial σ s₀ s' := by
  obtain ⟨_, grows, inside, f, alike, versions⟩ := merge?_spec sound merged
  obtain ⟨before, after, length⟩ := merge?_keeps alike versions inside
  refine spread.drop sound grows (Or.inl bound) length inside ?_ ?_ ?_
  · intro u early here
    exact stands_keeps sound (spread.rest u (by omega) here) (before u early) grows
  · exact fun u low _ => before u (by omega)
  · exact fun u late more => (after u late more).2

theorem reduceAll_spec {first initial : Nat} {s₀ : Stack} (ts : List Terminal) (only : Bool)
    (fuel round : Nat) (shiftable : Bool) (contiguous : only = true → first + 1 = initial)
    (region : v = first ∨ initial ≤ v)
    (sound : s.Sound t k G) (spread : Spread first initial σ s₀ s)
    (long : only = false → initial ≤ s.versions.length) :
    ∃ G', Grows G G' s (reduceAll first initial ts only fuel round v s shiftable).1 ∧
      (reduceAll first initial ts only fuel round v s shiftable).1.Sound t k G' ∧
      Spread first initial σ s₀ (reduceAll first initial ts only fuel round v s shiftable).1 ∧
      (only = false → initial ≤
        (reduceAll first initial ts only fuel round v s shiftable).1.versions.length) := by
  induction fuel generalizing round v s shiftable G with
  | zero => exact ⟨G, Grows.refl G s, sound, spread, long⟩
  | succ fuel ih =>
    rw [reduceAll]
    dsimp only
    split
    · exact ⟨G, Grows.refl G s, sound, spread, long⟩
    · rename_i more
      split
      · rename_i joined found
        obtain ⟨j, inRange, merged⟩ := List.exists_of_findSome?_eq_some found
        have low : initial ≤ v := by
          obtain ⟨i, inside, _⟩ := List.mem_iff_getElem.mp inRange
          simp only [List.length_drop, List.length_range] at inside
          omega
        obtain ⟨soundMerged, grows, inside, f, alike, versions⟩ := merge?_spec sound merged
        obtain ⟨_, _, length⟩ := merge?_keeps alike versions inside
        obtain ⟨G', growsLast, rest⟩ := ih _ shiftable (Or.inr low) soundMerged (spread.merge sound low merged)
          (by omega)
        exact ⟨G', grows.trans growsLast, rest⟩
      · have stands := spread.rest v (by omega) region
        generalize result : List.foldl _ (s, none) (reductions (s.state v) ts).1 = u
        obtain ⟨G₁, grows, larger, adds, added⟩ := reduceList_spec _ sound stands
          (fun red member => reductions_complete member) result
        have longer := adds.length_le
        have spreadNext := spread.adds sound grows adds
        have longNext : only = false → initial ≤ u.1.versions.length := fun all => by
          have := long all
          omega
        have regionNext : (if v = first then s.versions.length else v + 1) = first ∨
            initial ≤ if v = first then s.versions.length else v + 1 := by
          cases only with
          | true =>
            have := contiguous rfl
            split <;> omega
          | false =>
            have := long rfl
            split <;> omega
        have addedBound : ∀ w, u.2 = some w → s.versions.length ≤ w ∧ w < u.1.versions.length := by
          intro w found
          rcases added with ⟨first, _⟩ | later
          · simp [first] at found
          · exact later w found
        split
        · obtain ⟨G', growsLast, rest⟩ := ih _ true regionNext larger spreadNext longNext
          exact ⟨G', grows.trans growsLast, rest⟩
        · split
          · rename_i w found
            have last := addedBound w (Option.eq_some_of_filter_eq_some found)
            have low : initial ≤ w := by
              cases only with
              | true =>
                have := contiguous rfl
                omega
              | false =>
                have := long rfl
                omega
            obtain ⟨soundReplaced, growsReplaced⟩ := replace_sound (v := v) (w := w) larger
            have lengthReplaced := replace_length (v := v) (by omega) last.2
            obtain ⟨G', growsLast, rest⟩ := ih _ shiftable region soundReplaced
              (spreadNext.replace larger (by omega) region low last.2) (by omega)
            exact ⟨G', grows.trans (growsReplaced.trans growsLast), rest⟩
          · cases only with
            | true =>
              have growsRemoved : Grows G₁ G₁ u.1 (u.1.remove v) := Grows.of_vertices G₁ rfl
              obtain ⟨G', growsLast, rest⟩ := ih _ shiftable regionNext (remove_sound (w := v) larger)
                (spreadNext.remove larger (contiguous rfl) region (by omega)) (by simp)
              exact ⟨G', grows.trans (growsRemoved.trans growsLast), rest⟩
            | false =>
              obtain ⟨G', growsLast, rest⟩ := ih _ shiftable regionNext larger spreadNext longNext
              exact ⟨G', grows.trans growsLast, rest⟩

end Reduce

end Reader

end TemplateMarkup.Markup
