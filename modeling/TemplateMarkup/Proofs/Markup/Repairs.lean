import TemplateMarkup.Proofs.Markup.Reductions

/-!
Repairs on a sound stack: missing tokens, going back below a fault, and passing over a token. What a
repair adds costs at least the price of a recovery, so no version gets cheaper than `k` as long as
`k` is at most that price. The version that is repaired may itself be cheaper.
-/
namespace TemplateMarkup.Markup

open Cursor TemplateMarkup.Markup.Tree

namespace Stack

/-- The same versions on the same vertices, up to the marks that progress is counted from. -/
structure Same (s s' : Stack) : Prop where
  vertices : s'.vertices = s.vertices
  length : s'.versions.length = s.versions.length
  alike : ∀ v, (s.version v).Alike (s'.version v)

section Marks

variable {t : Text} {k : Nat} {G : Nat → Prop} {s s' s'' : Stack} {v : Nat} {c : Cursor}

theorem same_refl (s : Stack) : s.Same s := ⟨rfl, rfl, fun _ => Version.Alike.refl _⟩

theorem Same.trans (first : s.Same s') (second : s'.Same s'') : s.Same s'' :=
  ⟨second.vertices.trans first.vertices, second.length.trans first.length,
    fun v => (first.alike v).trans (second.alike v)⟩

theorem Same.sound (same : s.Same s') (sound : s.Sound t k G) : s'.Sound t k G := by
  apply sound_of_versions (sound.graph.congr same.vertices)
  intro v live
  rw [← alike_isHalted (same.alike v)] at live
  exact (fits_alike (same.alike v) (sound.fits_version live)).congr same.vertices

theorem Same.at (same : s.Same s') (stands : s.At v c) : s'.At v c := by
  refine ⟨(same.alike v).status ▸ stands.active, ?_⟩
  have place := stands.place
  simp only [Stack.place, Stack.top, ← (same.alike v).top] at place ⊢
  rw [← place]
  exact congrArg Point.place (congrFun (point_congr same.vertices) _)

theorem Leads.congr {i : Nat} {p : Path} (leads : s'.Leads i p) (same : s'.vertices = s.vertices) :
    s.Leads i p := by
  induction leads with
  | here => exact Leads.here
  | @follow p l _ link ih =>
    rw [vertex, same] at link
    exact Leads.follow ih link

theorem same_setVersion (s : Stack) (v : Nat) {f : Version → Version}
    (alike : ∀ x : Version, x.Alike (f x)) : s.Same (s.setVersion v f) :=
  ⟨rfl, length_setVersion f, setVersion_alike alike⟩

theorem progress_same (s : Stack) (v : Nat) : s.Same (s.progress v).2 :=
  same_setVersion s v fun _ => ⟨rfl, rfl, rfl⟩

end Marks

/-- All versions but `v` fit. -/
structure Spares (t : Text) (k : Nat) (G : Nat → Prop) (s : Stack) (v : Nat) : Prop where
  graph : s.Graph t G
  top : G (s.version v).top
  others : ∀ u ≠ v, (s.version u).isHalted = false → s.Fits k G (s.version u)

section Spares

variable {t : Text} {k : Nat} {G G' : Nat → Prop} {s s' : Stack} {v : Nat} {c : Cursor}

theorem Sound.spares (sound : s.Sound t k G) (active : (s.version v).status = .active) :
    s.Spares t k G v :=
  ⟨sound.graph, (sound.fits_active active).top, fun _ _ live => sound.fits_version live⟩

theorem Spares.halt (spares : s.Spares t k G v) : (s.halt v).Sound t k G := by
  apply sound_of_versions (s := s.halt v) (spares.graph.congr rfl)
  intro u live
  by_cases same : u = v
  · subst same
    have inside : u < s.versions.length := by simpa [Stack.halt] using version_lt live
    rw [Stack.halt, version_setVersion_eq _ inside] at live
    simp [Version.isHalted] at live
  · rw [Stack.halt, version_setVersion_ne _ same] at live ⊢
    exact (spares.others u same live).congr rfl

theorem Same.spares (same : s.Same s') (spares : s.Spares t k G v) : s'.Spares t k G v := by
  refine ⟨spares.graph.congr same.vertices, (same.alike v).top ▸ spares.top, ?_⟩
  intro u other live
  rw [← alike_isHalted (same.alike u)] at live
  exact (fits_alike (same.alike u) (spares.others u other live)).congr same.vertices

/-- A version is moved down and a tree put over it. -/
theorem repush_sound {i : Nat} {x : Tree} {state : State} (spares : s.Spares t k G v)
    (stands : s.At v c) (below : G i)
    (joined : (s.point i).Joined ((s.point i).next (some x) state) (some x))
    (cost : k ≤ (s.point i).cost + x.cost) :
    ((s.setVersion v fun h => { h with top := i }).push v (some x) state).Sound t k
      (withNext G s) := by
  have moved := version_setVersion_eq (s := s) (fun h => { h with top := i }) stands.lt
  have graph : (s.setVersion v fun h => { h with top := i }).Graph t G := spares.graph.congr rfl
  refine push_sound _ _ graph ?_ ?_ ?_ ?_ ?_
  · rw [moved]
    exact stands.active
  · rw [moved]
    exact below
  · rw [moved]
    exact joined
  · intro u other live
    rw [version_setVersion_ne _ other] at live ⊢
    exact (spares.others u other live).congr rfl
  · rw [moved]
    exact cost

theorem Gains.spares {u : Stack} {tags : Option (List Tag)} {p : Point} {last : Version}
    (gains : Gains t G G' s u tags p last) (spares : s.Spares t k G v)
    (inside : v < s.versions.length) (cost : k ≤ p.cost) : u.Spares t k G' v := by
  refine ⟨gains.graph, ?_, ?_⟩
  · rw [gains.version_old inside]
    exact gains.grows.keeps spares.top
  · intro i other live
    have bound := version_lt live
    rw [gains.length] at bound
    by_cases old : i < s.versions.length
    · rw [gains.version_old old] at live ⊢
      exact fits_covers gains.grows.toCovers (spares.others i other live)
    · obtain rfl : i = s.versions.length := by omega
      rw [gains.version_last]
      exact gains.fits cost

/-- Ways down to a depth that leave out only extras are paid for. -/
def Paid (k : Nat) (s : Stack) (v depth : Nat) : Prop :=
  ∀ p, s.Leads (s.version v).top p → p.parts = depth → (∀ x ∈ p.trees, x.isExtra = true) →
    k ≤ (s.point (s.version v).top).cost

theorem Same.paid {depth : Nat} (same : s.Same s') (paid : s.Paid k v depth) : s'.Paid k v depth := by
  intro p leads parts extras
  rw [← (same.alike v).top] at leads ⊢
  rw [point_congr same.vertices]
  exact paid p (leads.congr same.vertices) parts extras

end Spares

theorem push_top {s : Stack} {v : Nat} (x : Option Tree) (state : State)
    (inside : v < s.versions.length) :
    ((s.push v x state).top v).point = (s.top v).point.next x state := by
  have top : ((s.push v x state).version v).top = s.vertices.size :=
    (push_version x state inside).top.symm
  show (s.push v x state).point ((s.push v x state).version v).top = _
  rw [top, push_point]
  rfl

theorem push_keeps {s : Stack} {u v : Nat} {x : Option Tree} {state : State}
    (inside : u < s.versions.length) (other : u ≠ v) : s.Keeps (s.push v x state) u := by
  refine ⟨by simpa using inside, ?_⟩
  rw [push_version_ne other]
  exact Version.Alike.refl _

/-- The site after a missing token. -/
def Site.lacking (σ : Site) : Site :=
  { σ with cost := σ.cost + (prices.missing + prices.recovery) }

/-- A version at a site where a fault has been marked. -/
structure Marked (s : Stack) (v : Nat) (σ : Site) : Prop where
  active : (s.version v).status = .active
  fault : s.state v = .recovery
  site : s.site v = σ

section Faults

variable {t : Text} {k : Nat} {G G' : Nat → Prop} {s s' : Stack} {v w : Nat} {σ : Site}

theorem Marked.at (marked : s.Marked v σ) : s.At v σ.place :=
  ⟨marked.active, congrArg Site.place marked.site⟩

theorem marked_alike (sound : s.Sound t k G) (marked : s.Marked v σ)
    (alike : (s.version v).Alike (s'.version w)) (grows : Grows G G' s s') : s'.Marked w σ := by
  have top := (sound.fits_active marked.active).top
  have state : s'.state w = s.state v := congrArg Point.state (top_alike top alike grows)
  exact ⟨alike.status ▸ marked.active, state.trans marked.fault,
    (site_alike top alike grows).trans marked.site⟩

theorem markFault_spec (sound : s.Sound t k G) (stands : s.Stands v σ) :
    (s.push v none .recovery).Sound t k (withNext G s) ∧
      Grows G (withNext G s) s (s.push v none .recovery) ∧ (s.push v none .recovery).Marked v σ := by
  have fits := stands.fits sound
  have joined : (s.point (s.version v).top).Joined
      ((s.point (s.version v).top).next none .recovery) none := ⟨rfl, rfl, rfl⟩
  have alike := push_version none .recovery stands.lt
  have top := push_top none .recovery stands.lt
  refine ⟨push_sound none .recovery sound.graph stands.active fits.top joined
    (sound.spares stands.active).others fits.cost,
    push_grows sound.graph fits.top joined fun _ => ⟨rfl, stands.regular⟩, ?_⟩
  refine ⟨alike.status ▸ stands.active, congrArg Point.state top, ?_⟩
  rw [← stands.site, site, site, ← alike.tags]
  show Site.mk ((s.push v none .recovery).top v).point.place
    ((s.push v none .recovery).top v).point.cost _ = _
  rw [top]
  rfl

end Faults

end Stack

namespace Reader

open Stack

section Repairs

variable {t : Text} {k : Nat} {G : Nat → Prop} {s : Stack} {v : Nat} {c : Cursor} {σ : Site}

theorem spread_start (stands : s.Stands v σ) : Spread v s.versions.length σ s s := by
  constructor
  · exact fun u inside _ => keeps_refl inside
  · intro u inside region
    rcases region with rfl | beyond
    · exact stands
    · omega

theorem reduceEvery_spec (sound : s.Sound t k G) (stands : s.Stands v σ) :
    ∃ G', Grows G G' s (reduceEvery s v) ∧ (reduceEvery s v).Sound t k G' ∧
      Spread v s.versions.length σ s (reduceEvery s v) ∧
      s.versions.length ≤ (reduceEvery s v).versions.length := by
  obtain ⟨G', grows, larger, spread, long⟩ := reduceAll_spec Terminal.insertable false
    maxRounds 0 false (by simp) (Or.inl rfl) sound (spread_start stands) fun _ => Nat.le_refl _
  exact ⟨G', grows, larger, spread, long rfl⟩

theorem reduceBefore_spec {w : Nat} (terminal : Terminal) (sound : s.Sound t k G)
    (stands : s.Stands w σ) (last : w + 1 = s.versions.length) :
    ∃ G', Grows G G' s (reduceBefore s w terminal).1 ∧
      (reduceBefore s w terminal).1.Sound t k G' ∧
      Spread w s.versions.length σ s (reduceBefore s w terminal).1 := by
  unfold reduceBefore
  split
  · obtain ⟨G', grows, larger, spread, _⟩ := reduceAll_spec Terminal.insertable false
      maxRounds 0 false (by simp) (Or.inl rfl) sound (spread_start stands) fun _ => Nat.le_refl _
    exact ⟨G', grows, larger, spread⟩
  · obtain ⟨G', grows, larger, spread, _⟩ := reduceAll_spec [terminal] true maxRounds 0 false
      (fun _ => last) (Or.inl rfl) sound (spread_start stands) (by simp)
    exact ⟨G', grows, larger, spread⟩

theorem next?_missing {state next : State} {m : Terminal} (found : state.next? m = some next)
    (moved : next ≠ state) : state.after? (.terminal m) = some next := by
  unfold State.next? at found
  split at found
  · exact absurd (Option.some.inj found).symm moved
  · exact found

theorem completed?_of_reduce? {state : State} {terminal : Terminal}
    (reduces : state.reduce? terminal ≠ none) : state.completed?.isSome := by
  unfold State.reduce? at reduces
  split at reduces
  · exact Option.isSome_iff_ne_none.mpr reduces
  · exact absurd rfl reduces

/-- A copy of a version with a missing token on it. -/
theorem missing_pushed {m : Terminal} {next : State} (sound : s.Sound t k G) (stands : s.Stands v σ)
    (step : (s.state v).after? (.terminal m) = some next) (complete : next.completed?.isSome)
    {u : Stack} (pushed : u = (s.add { s.version v with resorts := none }).push s.versions.length
      (some (Tree.missing m σ.place)) next) :
    ∃ G', Grows G G' s u ∧ u.Sound t k G' ∧ s.versions.length + 1 = u.versions.length ∧
      u.Stands s.versions.length σ.lacking ∧ ∀ i < s.versions.length, s.Keeps u i := by
  have fits := stands.fits sound
  have place : (s.point (s.version v).top).place = σ.place := stands.at.place
  have soundCopy : (s.add { s.version v with resorts := none }).Sound t k G :=
    add_sound sound ⟨fits.top, fits.cost, fits.waits⟩
  have version := version_add_eq (s := s) { s.version v with resorts := none }
  generalize copied : s.add { s.version v with resorts := none } = copy at *
  have growsCopy : Grows G G s copy := Grows.of_vertices G (by rw [← copied]; rfl)
  have keepsCopy : ∀ i < s.versions.length, s.Keeps copy i := by
    intro i inside
    rw [← copied]
    refine ⟨by simp [add]; omega, ?_⟩
    rw [version_add_lt _ inside]
    exact Version.Alike.refl _
  have inside : s.versions.length < copy.versions.length := by
    rw [← copied]
    simp [add]
  have top : (copy.top s.versions.length).point = (s.top v).point := by
    show copy.point (copy.version s.versions.length).top = _
    rw [version, growsCopy.point fits.top]
    rfl
  have regular := State.after?_regular step
  have joined : (copy.point (copy.version s.versions.length).top).Joined
      ((copy.point (copy.version s.versions.length).top).next (some (Tree.missing m σ.place)) next)
      (some (Tree.missing m σ.place)) := by
    rw [show copy.point (copy.version s.versions.length).top = s.point (s.version v).top from top]
    refine ⟨missing_sound m _, place ▸ reaches_refl _, rfl, rfl, ?_, by simp [Tree.missing],
      by simp [Tree.missing]⟩
    exact Or.inr (Or.inr ⟨rfl, step, fun _ => complete⟩)
  have active : (copy.version s.versions.length).status = .active := by
    rw [version]
    exact stands.active
  have topCopy : G (copy.version s.versions.length).top := by
    rw [version]
    exact fits.top
  have larger := push_sound (some (Tree.missing m σ.place)) next soundCopy.graph active topCopy joined
    (soundCopy.spares active).others (Nat.le_trans (soundCopy.fits_active active).cost
      (Nat.le_add_right _ _))
  have grows := push_grows soundCopy.graph topCopy joined fun recovery => absurd recovery regular
  have standsNext : u.Stands s.versions.length σ.lacking := by
    have alike := push_version (some (Tree.missing m σ.place)) next inside
    have topNext := push_top (some (Tree.missing m σ.place)) next inside
    rw [← pushed, version] at alike
    rw [← pushed, top] at topNext
    refine ⟨alike.status ▸ stands.active, ?_, ?_⟩
    · show (u.top s.versions.length).point.state ≠ _
      rw [topNext]
      exact regular
    · show Site.mk (u.top s.versions.length).point.place (u.top s.versions.length).point.cost _ = _
      rw [topNext, ← alike.tags, ← stands.site]
      rfl
  rw [← pushed] at larger grows
  refine ⟨_, growsCopy.trans grows, larger, ?_, standsNext, fun i old => ?_⟩
  · rw [pushed, length_push, ← copied]
    simp [add]
  · have pushedKeeps : copy.Keeps u i := by
      rw [pushed]
      exact push_keeps (keepsCopy i old).inside (by omega)
    exact (keepsCopy i old).trans pushedKeeps

/-- What reductions make of the copy with the missing token. -/
theorem missing_spec (terminal : Terminal) {m : Terminal} {next : State} (sound : s.Sound t k G)
    (stands : s.Stands v σ) (step : (s.state v).after? (.terminal m) = some next)
    (complete : next.completed?.isSome) {u : Stack}
    (pushed : u = (s.add { s.version v with resorts := none }).push s.versions.length
      (some (Tree.missing m σ.place)) next) :
    ∃ G', Grows G G' s (reduceBefore u s.versions.length terminal).1 ∧
      (reduceBefore u s.versions.length terminal).1.Sound t k G' ∧
      Adds σ.lacking s (reduceBefore u s.versions.length terminal).1 := by
  obtain ⟨G₁, grows, larger, length, standsNext, kept⟩ :=
    missing_pushed sound stands step complete pushed
  obtain ⟨G', growsLast, soundLast, spread⟩ := reduceBefore_spec terminal larger standsNext length
  refine ⟨G', grows.trans growsLast, soundLast, fun i old => ?_, fun i low high => ?_⟩
  · exact (kept i old).trans (spread.kept i (by omega) (by omega))
  · exact spread.rest i high (by omega)

theorem insertMissing_spec (terminal : Terminal) (ms : List Terminal) (sound : s.Sound t k G)
    (stands : s.Stands v σ) :
    ∃ G', Grows G G' s (insertMissing s v σ.place terminal ms).1 ∧
      (insertMissing s v σ.place terminal ms).1.Sound t k G' ∧
      Adds σ.lacking s (insertMissing s v σ.place terminal ms).1 := by
  induction ms generalizing s G with
  | nil => exact ⟨G, Grows.refl G s, sound, adds_refl _ s⟩
  | cons m rest ih =>
    rw [insertMissing]
    split
    · exact ih sound stands
    · rename_i next found
      split
      · exact ih sound stands
      · rename_i useful
        simp only [Bool.or_eq_true, decide_eq_true_eq, Option.isNone_iff_eq_none, not_or] at useful
        obtain ⟨G', grows, larger, adds⟩ := missing_spec terminal sound stands
          (next?_missing found useful.1) (completed?_of_reduce? useful.2) rfl
        dsimp only
        split
        · exact ⟨G', grows, larger, adds⟩
        · obtain ⟨G₂, growsLast, soundLast, addsLast⟩ :=
            ih larger (stands_keeps sound stands (adds.kept v stands.lt) grows)
          exact ⟨G₂, grows.trans growsLast, soundLast, Adds.trans larger growsLast adds addsLast⟩

theorem insertOnce_spec (terminal : Option Terminal) (inserted : Bool) (sound : s.Sound t k G)
    (stands : s.Stands v σ) :
    ∃ G', Grows G G' s (insertOnce s v σ.place terminal inserted).1 ∧
      (insertOnce s v σ.place terminal inserted).1.Sound t k G' ∧
      Adds σ.lacking s (insertOnce s v σ.place terminal inserted).1 := by
  unfold insertOnce
  split
  · exact insertMissing_spec _ Terminal.insertable sound stands
  · exact ⟨G, Grows.refl G s, sound, adds_refl _ s⟩

/-- The fault is marked on the versions listed. The other ones are kept, and those added go on after a
missing token. -/
structure Marks (σ : Site) (vs : List Nat) (s s' : Stack) : Prop where
  marked : ∀ u ∈ vs, s'.Marked u σ
  kept : ∀ u < s.versions.length, u ∉ vs → s.Keeps s' u
  added : ∀ u, s.versions.length ≤ u → u < s'.versions.length → s'.Stands u σ.lacking

theorem markFaults_spec (terminal : Option Terminal) (vs : List Nat) (inserted : Bool)
    (sound : s.Sound t k G) (stand : ∀ u ∈ vs, s.Stands u σ) (once : vs.Nodup) :
    ∃ G', Grows G G' s (markFaults σ.place terminal vs s inserted) ∧
      (markFaults σ.place terminal vs s inserted).Sound t k G' ∧
      Marks σ vs s (markFaults σ.place terminal vs s inserted) := by
  induction vs generalizing s G inserted with
  | nil =>
    exact ⟨G, Grows.refl G s, sound, by simp, fun _ inside _ => keeps_refl inside,
      fun _ low high => absurd high (Nat.not_lt_of_le low)⟩
  | cons v rest ih =>
    obtain ⟨fresh, onceRest⟩ := List.nodup_cons.mp once
    obtain ⟨standsV, standRest⟩ := List.forall_mem_cons.mp stand
    rw [markFaults]
    dsimp only
    obtain ⟨G₁, grows, larger, adds⟩ := insertOnce_spec terminal inserted sound standsV
    generalize insertOnce s v σ.place terminal inserted = u at grows larger adds ⊢
    obtain ⟨soundMarked, growsMarked, marked⟩ :=
      markFault_spec larger (stands_keeps sound standsV (adds.kept v standsV.lt) grows)
    have still : ∀ i < s.versions.length, i ≠ v → s.Keeps (u.1.push v none .recovery) i := by
      intro i inside other
      have kept := adds.kept i inside
      exact kept.trans (push_keeps kept.inside other)
    have length : (u.1.push v none .recovery).versions.length = u.1.versions.length := length_push
    obtain ⟨G₂, growsLast, soundLast, marks⟩ := ih u.2 soundMarked (fun i member =>
      stands_keeps sound (standRest i member)
        (still i (standRest i member).lt fun same => fresh (same ▸ member))
        (grows.trans growsMarked)) onceRest
    have longer := adds.length_le
    have inside := standsV.lt
    refine ⟨G₂, grows.trans (growsMarked.trans growsLast), soundLast, ?_, ?_, ?_⟩
    · refine List.forall_mem_cons.mpr ⟨?_, marks.marked⟩
      have kept := marks.kept v (by omega) fresh
      exact marked_alike soundMarked marked kept.alike growsLast
    · intro i old other
      obtain ⟨otherV, otherRest⟩ := not_or.mp (mt List.mem_cons.mpr other)
      have kept := still i old otherV
      exact kept.trans (marks.kept i kept.inside otherRest)
    · intro i low high
      by_cases old : i < u.1.versions.length
      · have stands := adds.added i low old
        have pushed := stands_keeps larger stands (push_keeps old (by omega)) growsMarked
        refine stands_keeps soundMarked pushed (marks.kept i (by omega) ?_) growsLast
        intro member
        have := (standRest i member).lt
        omega
      · exact marks.added i (by omega) high

/-- A lookahead is a sound tree that stands where it was read. -/
theorem lookahead_sound {x : Tree} (reads : Lookahead c x) : x.Sound ∧ x.info.origin = c := by
  obtain ⟨token, follows, rfl⟩ := reads
  exact ⟨ofToken_sound follows, rfl⟩

theorem setTop_self (s : Stack) (v : Nat) :
    (s.setVersion v fun h => { h with top := (s.version v).top }) = s := by
  have same : (s.versions.modify v fun h => { h with top := (s.version v).top }) = s.versions := by
    apply List.ext_getElem (by simp)
    intro i inside inside'
    rw [List.getElem_modify]
    split
    · rename_i equal
      subst equal
      simp [version, inside']
    · rfl
  simp only [setVersion, same]

/-- A tree that leads nowhere but to recovery. -/
theorem joined_skipped {p : Point} {x : Tree} (sound : x.Sound) (label : x.label = .skipped)
    (plain : x.isExtra = false) (gap : p.place.Reaches x.info.origin) :
    p.Joined (p.next (some x) .recovery) (some x) := by
  refine ⟨sound, gap, rfl, rfl, Or.inl rfl, fun _ => ⟨plain, rfl⟩, ?_⟩
  intro fault
  rw [label] at fault
  simp at fault

theorem skipped_sound {start d e : Cursor} {xs : List Tree} (row : Row d xs e)
    (sound : ∀ x ∈ xs, x.Sound) : (Tree.build .skipped start xs).Sound :=
  build_sound (fun _ => ⟨d, e, row⟩) sound (by simp) (by simp) (by simp) (by simp)

/-- The run that a skipped tree ends up in starts at a vertex of the graph, and the version is moved
there. -/
theorem joinRun_spec {progress : Nat} {start d : Cursor} {x : Tree} {u : Stack × Tree}
    (graph : s.Graph t G) (top : G (s.version v).top) (stands : s.At v c) (soundX : x.Sound)
    (label : x.label = .skipped) (plain : x.isExtra = false) (row : Row c [x] d)
    (cost : prices.recovery ≤ x.cost)
    (joined : u = joinRun s v progress start x) :
    ∃ i, G i ∧ (s.point i).Joined ((s.point i).next (some u.2) .recovery) (some u.2) ∧
      prices.recovery ≤ u.2.cost ∧ u.1 = s.setVersion v fun h => { h with top := i } := by
  have place : (s.point (s.version v).top).place = c := stands.place
  have alone : ∃ i, G i ∧ (s.point i).Joined ((s.point i).next (some x) .recovery) (some x) ∧
      prices.recovery ≤ x.cost ∧ s = s.setVersion v fun h => { h with top := i } := by
    refine ⟨_, top, joined_skipped soundX label plain ?_, cost, (setTop_self s v).symm⟩
    rw [place]
    cases row with
    | cons gap _ => exact gap
  unfold joinRun at joined
  subst joined
  split
  · split
    · rename_i i ts others groups popped
      have member : (i, ts :: others) ∈ s.pop v 1 := by
        rw [popped]
        simp
      obtain ⟨p, leads, vertex, trees⟩ := mem_pop_leads member List.mem_cons_self
      have spans := leads_spans graph top leads
      rw [vertex, trees] at spans
      have rowAll : Row (s.point i).place (ts ++ [x]) d := row_append spans.row (place ▸ row)
      have soundAll : ∀ y ∈ ts ++ [x], y.Sound := by
        intro y inside
        rcases List.mem_append.mp inside with early | last
        · exact spans.sound y early
        · exact List.mem_singleton.mp last ▸ soundX
      exact ⟨i, spans.inside, joined_skipped (skipped_sound rowAll soundAll) rfl rfl
        (build_gap _ _ rowAll (by simp)), build_fault_cost (Or.inr rfl), rfl⟩
    · exact alone
  · exact alone

/-- The run of tokens that is passed over grows by one. -/
theorem passOver_sound {progress : Nat} {x : Tree} (small : k ≤ prices.recovery)
    (spares : s.Spares t k G v) (stands : s.At v c) (reads : Lookahead c x) :
    ∃ G', (passOver s v progress x).Sound t k G' := by
  obtain ⟨soundX, origin⟩ := lookahead_sound reads
  unfold passOver
  dsimp only
  generalize shape : (if x.label == .terminal .comment then x.markExtra true else x) = y
  have soundY : y.Sound := by
    subst shape
    split
    · exact markExtra_sound soundX
    · exact soundX
  have originY : y.info.origin = c := by
    subst shape
    split
    · exact origin
    · exact origin
  have row : Row c [y] y.info.stop := row_single (originY ▸ reaches_refl _) rfl
  have soundRun : (Tree.build .skipped y.info.start [y]).Sound :=
    skipped_sound row (by simpa using soundY)
  have rowRun : Row c [Tree.build .skipped y.info.start [y]] y.info.stop :=
    row_single (build_gap _ _ row (by simp)) (build_stop _ _ row (by simp))
  generalize joined : joinRun s v progress y.info.start _ = u
  obtain ⟨i, below, joins, cost, moved⟩ := joinRun_spec spares.graph spares.top stands soundRun
    rfl rfl rowRun (build_fault_cost (Or.inr rfl)) joined.symm
  have pushed := repush_sound spares stands below joins (by omega)
  rw [← moved] at pushed
  split
  · refine ⟨_, setVersion_sound _ pushed ?_⟩
    intro _ live
    have fits := pushed.fits_version live
    exact ⟨fits.top, fits.cost, fits.waits⟩
  · exact ⟨_, pushed⟩

theorem fork_setTop (s : Stack) (v i j : Nat) :
    ((s.fork v j).setVersion s.versions.length fun h => { h with top := i }) = s.fork v i := by
  simp [fork, add, setVersion, List.modify_eq_take_drop]

/-- Trees to go back over, from a vertex up to a place. Only trees at their end that came off the
stack can be extras, and if they are all extras, they cost enough. -/
structure Retraces (k : Nat) (G : Nat → Prop) (s : Stack) (goal : State) (c : Cursor) (i : Nat)
    (xs : List Tree) : Prop where
  inside : G i
  state : (s.point i).state = goal
  row : Row (s.point i).place xs c
  sound : ∀ x ∈ xs, x.Sound
  skipped : ∀ x ∈ (splitTrailing xs).2, x.label = .skipped → x.isExtra = false
  faults : ∀ x ∈ (splitTrailing xs).2, x.label = .fault → x.EndsPlain
  cost : (splitTrailing xs).1 = [] → k ≤ (s.point i).cost + costs xs

theorem takeFault_spec {goal : State} {j : Nat} {xs : List Tree} (regular : goal ≠ .recovery)
    (graph : s.Graph t G) (stands : s.At v c) (state : (s.vertex j).state = goal)
    (spans : s.Spans G (s.version v).top j xs)
    (paid : (∀ x ∈ xs, x.isExtra = true) → k ≤ (s.point (s.version v).top).cost) :
    ∃ i ys, takeFault (s.fork v j) s.versions.length xs = (s.fork v i, ys) ∧
      Retraces k G s goal c i ys := by
  have place : (s.point (s.version v).top).place = c := stands.place
  unfold takeFault
  split
  · rename_i s' fault popped
    have version : (s.fork v j).version s.versions.length = _ := version_add_eq _
    have top : ((s.fork v j).version s.versions.length).top = j := by rw [version]
    have forked : (s.fork v j).Graph t G := graph.congr rfl
    have here : (s.fork v j).state s.versions.length = goal := by
      show ((s.fork v j).vertex ((s.fork v j).version s.versions.length).top).state = goal
      rw [top]
      exact state
    obtain ⟨l, link, tree, label, moved⟩ := popFault?_spec forked (by rw [top]; exact spans.inside)
      (by rw [here]; exact regular) popped
    have member : l ∈ (s.vertex j).links := by
      have : l ∈ ((s.fork v j).vertex ((s.fork v j).version s.versions.length).top).links := link
      rwa [top] at this
    have below := graph.closed spans.inside l member
    have joined := graph.joined spans.inside l member
    rw [tree] at joined
    obtain ⟨_, same, last, ends, plain⟩ := joined.fault label
    have filled : fault.children ≠ [] := by
      intro empty
      simp [empty] at ends
    have trailing := splitTrailing_append_subset xs ends plain
    refine ⟨l.below, fault.children ++ xs, by rw [moved, fork_setTop], below, same.trans state,
      ?_, ?_, ?_, ?_, ?_⟩
    · have row := row_children joined.sound filled joined.gap
      rw [← joined.stop] at row
      exact row_append row (place ▸ spans.row)
    · intro x inside
      rcases List.mem_append.mp inside with early | late
      · exact joined.sound.child early
      · exact spans.sound x late
    · exact fun x inside => spans.skipped x (trailing inside)
    · exact fun x inside => spans.faults x (trailing inside)
    · intro none
      have part := splitTrailing_part (fault.children ++ xs) (x := last)
        (List.mem_append_left _ (List.mem_of_getLast? ends)) plain
      simp [none] at part
  · refine ⟨j, xs, rfl, spans.inside, state, place ▸ spans.row, spans.sound, ?_, ?_, ?_⟩
    · exact fun x inside => spans.skipped x (splitTrailing_extra_mem inside)
    · exact fun x inside => spans.faults x (splitTrailing_extra_mem inside)
    · intro none
      rw [← spans.cost]
      apply paid
      have extras := splitTrailing_extras xs
      rwa [← List.nil_append (splitTrailing xs).2, ← none, splitTrailing_append] at extras

/-- Going back to a vertex adds a version there that has come to the place with a fault. -/
theorem retrace_gains {goal : State} {i : Nat} {start : Cursor} {xs : List Tree} {u : Stack}
    (small : k ≤ prices.recovery) (regular : goal ≠ .recovery) (graph : s.Graph t G)
    (retraces : Retraces k G s goal c i xs)
    (built : u = (s.fork v i).pushAll s.versions.length (asFault start xs) goal) :
    ∃ G' last cost, k ≤ cost ∧ Gains t G G' s u (s.version v).tags ⟨goal, c, cost⟩ last := by
  obtain ⟨d, rowParts, rowExtras⟩ := row_split ((splitTrailing_append xs).symm ▸ retraces.row)
  have soundParts : ∀ x ∈ (splitTrailing xs).1, x.Sound :=
    fun x member => retraces.sound x (splitTrailing_part_mem member)
  have soundExtras : ∀ x ∈ (splitTrailing xs).2, x.Sound :=
    fun x member => retraces.sound x (splitTrailing_extra_mem member)
  have extra := splitTrailing_extras xs
  unfold asFault at built
  dsimp only at built
  split at built
  · rename_i empty
    have none := List.isEmpty_iff.mp empty
    rw [none] at rowParts
    obtain rfl := row_nil_iff.mp rowParts
    have forked : (s.fork v i).Graph t G := graph.congr rfl
    obtain ⟨G', last, grows, graph, versions, top, status, tags, point⟩ :=
      pushExtras_spec (splitTrailing xs).2 forked rfl retraces.inside regular retraces.state rowExtras
        soundExtras extra retraces.skipped retraces.faults
    have result : (s.fork v i).pushAll s.versions.length (splitTrailing xs).2 goal = u := built.symm
    rw [result] at grows graph versions point
    have growsFork : Grows G G s (s.fork v i) := Grows.of_vertices G rfl
    have whole : costs xs = costs (splitTrailing xs).2 := by
      have := congrArg costs (splitTrailing_append xs)
      rw [none, List.nil_append] at this
      exact this.symm
    have paid := retraces.cost none
    rw [whole] at paid
    exact ⟨G', last, _, paid, growsFork.trans grows, graph, versions, top, status, tags, point⟩
  · rename_i filled
    have parted : (splitTrailing xs).1 ≠ [] := fun none => filled (List.isEmpty_iff.mpr none)
    have stop := build_stop .fault start rowParts parted
    have cost : prices.recovery ≤ ((Tree.build .fault start (splitTrailing xs).1).markExtra true).cost :=
      build_fault_cost (Or.inl rfl)
    have joined : (s.point i).Joined ((s.point i).next
        (some ((Tree.build .fault start (splitTrailing xs).1).markExtra true)) goal)
        (some ((Tree.build .fault start (splitTrailing xs).1).markExtra true)) := by
      refine ⟨markExtra_sound (build_sound (fun _ => ⟨_, d, rowParts⟩) soundParts (by simp) (by simp)
        (by simp) (by simp)), build_gap .fault start rowParts parted, rfl, rfl,
        Or.inr (Or.inl ⟨rfl, retraces.state⟩), by simp [markExtra], ?_⟩
      intro _
      obtain ⟨y, final⟩ := Option.isSome_iff_exists.mp (List.getLast?_isSome.mpr parted)
      exact ⟨rfl, retraces.state, y, final, splitTrailing_last xs final⟩
    obtain ⟨G', last, gains⟩ := graft_gains graph retraces.inside regular joined (stop.symm ▸ rowExtras)
      soundExtras extra retraces.skipped retraces.faults built
    exact ⟨G', last, _, by omega, gains⟩

theorem recoverGroups_spec {goal : State} (groups : List (Nat × List (List Tree))) (done : Bool)
    (small : k ≤ prices.recovery) (regular : goal ≠ .recovery) (spares : s.Spares t k G v)
    (stands : s.At v c)
    (ways : ∀ group ∈ groups, group.2 ≠ [] ∧ ∀ xs ∈ group.2,
      s.Spans G (s.version v).top group.1 xs ∧
        ((∀ x ∈ xs, x.isExtra = true) → k ≤ (s.point (s.version v).top).cost)) :
    ∃ G', (groups.foldl (recoverGroup v goal) (s, done)).1.Spares t k G' v ∧
      (groups.foldl (recoverGroup v goal) (s, done)).1.At v c := by
  induction groups generalizing s G done with
  | nil => exact ⟨G, spares, stands⟩
  | cons group groups ih =>
    obtain ⟨here, later⟩ := List.forall_mem_cons.mp ways
    rw [List.foldl_cons]
    by_cases same : (s.vertex group.1).state = goal
    · obtain ⟨filled, trees⟩ := here
      have head : group.2.headD [] ∈ group.2 := by
        cases list : group.2 with
        | nil => exact absurd list filled
        | cons xs rest => simp
      obtain ⟨spans, paid⟩ := trees _ head
      obtain ⟨i, ys, taken, retraces⟩ := takeFault_spec regular spares.graph stands same spans paid
      have step : recoverGroup v goal (s, done) group = ((s.fork v i).pushAll s.versions.length
          (asFault (s.vertex group.1).place ys) goal, true) := by
        rw [recoverGroup, if_neg (by simpa using same)]
        dsimp only
        rw [taken]
      rw [step]
      generalize built : (s.fork v i).pushAll s.versions.length _ goal = u
      obtain ⟨G', last, cost, enough, gains⟩ := retrace_gains small regular spares.graph retraces
        built.symm
      have version := gains.version_old stands.lt
      refine ih true (gains.spares spares stands.lt enough)
        (at_keeps stands spares.top (gains.keeps stands.lt) gains.grows) ?_
      intro g member
      obtain ⟨filled, trees⟩ := later g member
      refine ⟨filled, fun xs tree => ?_⟩
      obtain ⟨spans, paid⟩ := trees xs tree
      rw [version, gains.grows.point spares.top]
      exact ⟨spans.grows spares.top gains.grows, paid⟩
    · have step : recoverGroup v goal (s, done) group = (s, done) := by
        rw [recoverGroup, if_pos same]
      rw [step]
      exact ih done spares stands later

/-- Going back to a state below adds versions and keeps `v`. -/
theorem recoverTo_spec {goal : State} {depth : Nat} {s' : Stack} (small : k ≤ prices.recovery)
    (regular : goal ≠ .recovery) (spares : s.Spares t k G v) (stands : s.At v c)
    (paid : s.Paid k v depth) (recovered : recoverTo s v depth goal = some s') :
    ∃ G', s'.Spares t k G' v ∧ s'.At v c := by
  have ways : ∀ group ∈ s.pop v depth, group.2 ≠ [] ∧ ∀ xs ∈ group.2,
      s.Spans G (s.version v).top group.1 xs ∧
        ((∀ x ∈ xs, x.isExtra = true) → k ≤ (s.point (s.version v).top).cost) := by
    intro group member
    refine ⟨(groupPaths_gathers member).filled, fun xs tree => ?_⟩
    obtain ⟨p, leads, parts, vertex, rfl⟩ := mem_pop member tree Leads.here
      fun p leads _ l link => Leads.follow leads link
    have spans := leads_spans spares.graph spares.top leads
    rw [vertex] at spans
    exact ⟨spans, paid p leads parts⟩
  have result := recoverGroups_spec _ false small regular spares stands ways
  unfold recoverTo at recovered
  dsimp only at recovered
  split at recovered
  · obtain rfl := Option.some.inj recovered
    exact result
  · simp at recovered

end Repairs

end Reader

end TemplateMarkup.Markup
