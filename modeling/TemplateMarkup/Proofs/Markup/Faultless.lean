import TemplateMarkup.Proofs.Markup.Courses
import TemplateMarkup.Proofs.Markup.Effort

/-!
A text is read without faults just if its tree is clean. Where the reader leaves its pile, it has one
version, and all that comes out of the repair of this version has been paid for. So every tree that is
finished after it has a cost, and a clean tree has none.
-/
namespace TemplateMarkup.Markup

open Cursor TemplateMarkup.Markup.Tree

namespace Stack

variable {t : Text} {k : Nat} {G : Nat → Prop} {s : Stack} {i v w : Nat} {σ : Site}

def Below (s : Stack) (i j : Nat) : Prop := ∃ p, s.Leads i p ∧ p.vertex = j

theorem graph_below (graph : s.Graph t G) (top : G i) : s.Graph t (s.Below i) := by
  have inner : ∀ {j}, s.Below i j → G j := by
    rintro j ⟨p, leads, rfl⟩
    exact (leads_spans graph top leads).inside
  refine ⟨fun below => graph.bound (inner below), fun below => graph.place (inner below), ?_,
    fun below => graph.joined (inner below), fun below => graph.ground (inner below)⟩
  rintro j ⟨p, leads, rfl⟩ l link
  refine ⟨p.follow l, Leads.follow leads link, ?_⟩
  unfold Path.follow
  split <;> rfl

theorem fresh_below (graph : s.Graph t G) (top : G i) (regular : (s.point i).state ≠ .recovery) :
    s.Fresh (s.Below i) := by
  rintro j ⟨p, leads, rfl⟩ fault
  exact absurd fault (leads_regular graph top regular leads).1

theorem sound_below (sound : s.Sound t k G) (single : s.versions.length = 1)
    (active : (s.version 0).status = .active) : s.Sound t k (s.Below (s.version 0).top) := by
  have fits := sound.fits_active active
  apply sound_of_versions (graph_below sound.graph fits.top)
  intro u live
  obtain rfl : u = 0 := by
    have := version_lt live
    omega
  exact ⟨⟨_, Leads.here, rfl⟩, fits.cost, fits.waits⟩

theorem merge?_marked (first : s.Marked v σ) (second : s.Marked w σ) : (s.merge? v w).isSome := by
  have site := first.site.trans second.site.symm
  have can : s.canMerge v w = true :=
    canMerge_iff.mpr ⟨first.active, second.active, first.fault.trans second.fault.symm,
      congrArg (fun a => a.place.offset) site, congrArg Site.cost site, congrArg Site.tags site⟩
  rw [merge?, if_pos can]
  rfl

/-- All versions on which a fault was marked become one. -/
theorem joinAll_marked (count : Nat) (sound : s.Sound t k G) (marked : ∀ u ≤ count, s.Marked u σ)
    (rest : ∀ u, count < u → u < s.versions.length → s.Stands u σ.lacking) :
    (Reader.joinAll 0 1 count s).Sound t k G ∧ Grows G G s (Reader.joinAll 0 1 count s) ∧
      (Reader.joinAll 0 1 count s).Marked 0 σ ∧
      ∀ u, 0 < u → u < (Reader.joinAll 0 1 count s).versions.length →
        (Reader.joinAll 0 1 count s).Stands u σ.lacking := by
  induction count generalizing s with
  | zero => exact ⟨sound, Grows.refl G s, marked 0 (Nat.le_refl 0), rest⟩
  | succ count ih =>
    obtain ⟨s', merged⟩ := Option.isSome_iff_exists.mp
      (merge?_marked (marked 0 (Nat.zero_le _)) (marked 1 (Nat.le_add_left 1 count)))
    obtain ⟨larger, grows, inside, f, alike, versions⟩ := merge?_spec sound merged
    obtain ⟨before, after, length⟩ := merge?_keeps alike versions inside
    have markedNext : ∀ u ≤ count, s'.Marked u σ := by
      intro u low
      by_cases first : u < 1
      · exact marked_alike sound (marked u (by omega)) (before u first).alike grows
      · have here := marked (u + 1) (by omega)
        exact marked_alike sound here (after u (by omega) here.at.lt).2 grows
    have restNext : ∀ u, count < u → u < s'.versions.length → s'.Stands u σ.lacking := by
      intro u high bound
      have here := rest (u + 1) (by omega) (by omega)
      exact stands_alike sound here (after u (by omega) here.lt).2 grows
    rw [Reader.joinAll, merged, Option.getD_some]
    obtain ⟨soundLast, growsLast, last⟩ := ih larger markedNext restNext
    exact ⟨soundLast, grows.trans growsLast, last⟩

/-- Going back from a fresh fault to a state that is not at its place costs something. -/
theorem affords_fresh {e : Resort} (graph : s.Graph t G) (fresh : s.Fresh G)
    (top : G (s.version v).top) (fault : s.state v = .recovery) (member : e ∈ s.resorts v) :
    Reader.Affords k s v (s.place v) e := by
  intro regular apart depth deep p leads parts extras
  rcases mem_resorts graph top fresh fault member with recovery | place | far
  · exact absurd recovery regular
  · exact absurd (congrArg Cursor.offset place) apart
  · obtain ⟨x, inside, plain⟩ := leads_fresh_plain graph top fresh fault leads (by omega)
    rw [extras x inside] at plain
    cases plain

end Stack

namespace Reader

open Stack Pile

variable {t : Text} {k : Nat} {r : Reader} {p q : Pile} {c : Cursor} {x : Tree}

/-- The repair of the only version leaves no version cheaper than a recovery. -/
theorem repair_lone (small : k ≤ prices.recovery) (valid : r.Valid t 0)
    (finished : ∀ y ∈ r.finished, Whole t k y) (single : r.stack.versions.length = 1)
    (stands : r.stack.At 0 c) (regular : r.stack.state 0 ≠ .recovery) (reads : Lookahead c x) :
    (repair r 0 x).Valid t k := by
  obtain ⟨G₀, sound⟩ := valid.stack
  have fresh := fresh_below sound.graph (stands.fits sound).top regular
  have lone := sound_below sound single stands.active
  obtain ⟨G₁, grows, larger, spread, long⟩ := reduceEvery_spec lone (stands.stands regular)
  unfold repair
  dsimp only
  rw [single] at spread long ⊢
  generalize reduceEvery r.stack 0 = s at grows larger spread long ⊢
  -- all versions there are have come out of the only one
  have region : ∀ u < s.versions.length, s.Stands u _ := fun u inside =>
    spread.rest u inside (by omega)
  have place : s.place 0 = c := (region 0 (by omega)).at.place
  rw [place]
  obtain ⟨G₂, growsMarked, soundMarked, marks⟩ := markFaults_spec x.label.terminal?
    (0 :: (List.range s.versions.length).drop 1) false larger
    (fun u member => region u ((mem_affected (by omega)).mp member).1) (affected_nodup (by omega))
  obtain ⟨soundJoined, growsJoined, marked, rest⟩ := joinAll_marked (s.versions.length - 1) soundMarked
    (fun u low => marks.marked u ((mem_affected (by omega)).mpr (by omega)))
    fun u high => marks.added u (by omega)
  have freshJoined := growsJoined.fresh (growsMarked.fresh (grows.fresh fresh))
  generalize joinAll 0 1 (s.versions.length - 1) _ = u at soundJoined marked rest freshJoined ⊢
  have topU := (soundJoined.fits_active marked.active).top
  have spares : u.Spares t k G₂ 0 := by
    refine ⟨soundJoined.graph, topU, ?_⟩
    intro i other live
    have stands := rest i (by omega) (version_lt live)
    have cost : (u.point (u.version i).top).cost = _ + (prices.missing + prices.recovery) :=
      congrArg Site.cost stands.site
    refine ⟨(stands.fits soundJoined).top, by omega, ?_⟩
    intro y paused
    rw [stands.active] at paused
    cases paused
  have same := u.same_setVersion 0 (f := fun h => { h with resorts := some (u.resorts 0) })
    fun _ => ⟨rfl, rfl, rfl⟩
  refine recover_valid small ⟨⟨G₂, same.spares spares⟩, finished⟩ (same.at marked.at) reads ?_
  intro es listed e member
  dsimp only at listed
  rw [version_setVersion_eq _ marked.at.lt] at listed
  obtain rfl := Option.some.inj listed
  have affords := affords_fresh (k := k) soundJoined.graph freshJoined topU marked.fault member
  rw [show u.place 0 = c from marked.at.place] at affords
  exact fun regular apart depth deep => same.paid (affords regular apart depth deep)

/-- A reader whose only version waits repairs it. -/
theorem condense_waits (single : r.stack.versions.length = 1)
    (waiting : (r.stack.version 0).status = .paused x) (first : r.accepted = 0) :
    (condense r).1 = repair { r with stack := (r.stack.progress 0).2.setVersion 0 fun h =>
      { h with status := .active } } 0 x := by
  have live : (r.stack.version 0).isHalted = false := by simp [Version.isHalted, waiting]
  obtain ⟨least, swept⟩ := sweep_single 2 single live
  have same := progress_same r.stack 0
  have length := same.length.trans single
  have status : ((r.stack.progress 0).2.version 0).status = .paused x :=
    (same.alike 0).status ▸ waiting
  unfold condense
  rw [single]
  dsimp only
  rw [show 2 * 1 + 2 = 2 + 2 from rfl, swept]
  dsimp only
  rw [List.take_of_length_le (by rw [length]; decide), length, resume, if_neg (by omega)]
  dsimp only
  rw [status]
  dsimp only
  rw [first, if_pos (by decide), resume, if_pos (Nat.le_refl _)]

theorem waits_valid (small : k ≤ prices.recovery) (valid : r.Valid t 0)
    (single : r.stack.versions.length = 1) (waiting : (r.stack.version 0).status = .paused x)
    (first : r.accepted = 0) (unfinished : r.finished = none) : (condense r).1.Valid t k := by
  rw [condense_waits single waiting first]
  have same := progress_same r.stack 0
  obtain ⟨validWoken, stands, regular, reads⟩ := wake_valid (valid.same same)
    ((same.alike 0).status ▸ waiting) rfl
  refine repair_lone small validWoken ?_ ((length_setVersion _).trans (same.length.trans single)) stands
    regular reads
  intro y found
  rw [show r.finished = some y from found] at unfinished
  cases unfinished

theorem valid_empty (versions : r.stack.versions = []) (unfinished : r.finished = none) :
    r.Valid t k := by
  refine ⟨⟨fun _ => False, ⟨?_, ?_, ?_, ?_, ?_⟩, ?_⟩, ?_⟩
  all_goals simp [versions, unfinished]

/-- A reader that leaves its pile finishes no tree for free. -/
theorem strays_valid (small : k ≤ prices.recovery) (valid : r.Valid t 0) (strays : r.Strays t x) :
    (condense r).1.Valid t k := by
  cases strays with
  | halted ended =>
    obtain ⟨r', condensed, versions, unfinished⟩ := condense_ended ended
    rw [condensed]
    exact valid_empty versions unfinished
  | waits single waiting models =>
    exact waits_valid small valid single waiting models.accepted models.finished

theorem run_strays (effort fuel reached : Nat) (models : r.Models t p) (valid : r.Valid t 0)
    (never : ∀ xs x, ¬ p.Reads t xs x) :
    ∀ y ∈ (run (effort + 1) fuel r reached).finished, Whole t 1 y := by
  have small : 1 ≤ prices.recovery := by decide
  induction fuel generalizing r p reached with
  | zero =>
    intro y found
    rw [run, models.finished] at found
    cases found
  | succ fuel ih =>
    have validAfter := advanceVersion_valid (v := 0) (Nat.zero_le _) (effort + 1) reached valid
    rw [run]
    dsimp only
    have turns := advanceVersion_turns effort reached models valid
    have rest : ∀ r' : Reader, r'.Valid t 1 → ∀ (b : Bool) (n : Nat), ∀ y ∈ (if b then r' else
        run (effort + 1) fuel r' n).finished, Whole t 1 y := by
      intro r' valid' b n
      split
      · exact valid'.finished
      · exact (run_valid _ _ _ small valid').finished
    cases turns with
    | goes filled comes after =>
      rw [advanceAll_single _ _ _ models.inside after.single]
      have condensed := condense_models after
      rw [condensed.finished, after.single]
      refine ih _ condensed (condense_valid (Nat.zero_le _) validAfter) ?_
      intro xs x reads
      exact never _ _ (comes.reads reads)
    | ends comes whole ended =>
      rw [advanceAll_single _ _ _ models.inside ended.single]
      rename_i y
      cases y with
      | some x => exact absurd (comes.reads (.done whole)) (never _ _)
      | none => exact rest _ (strays_valid small validAfter (.halted (x := p.token t) ended)) _ _
    | strays comes fault strays =>
      rw [advanceAll_single _ _ _ models.inside strays.single]
      exact rest _ (strays_valid small validAfter strays) _ _

theorem read_strays (never : ∀ xs x, ¬ Pile.start.Reads t xs x) :
    (read t).label = .fault ∨ 1 ≤ (read t).cost := by
  have costly := run_strays (4 * t.length + 63) (4 * t.length + 64) 0 (models_start t) (start_valid t)
    never
  unfold read
  dsimp only
  generalize run _ _ _ 0 = r at costly ⊢
  cases finished : r.finished with
  | none => exact Or.inl rfl
  | some y => exact Or.inr (costly y finished).cost

end Reader

/-- A text is faultless just if no node of its tree is a fault or a token that the text lacks. -/
theorem isFaultless_iff_clean {t : Text} : isFaultless t = true ↔ (Reader.read t).Clean := by
  rw [isFaultless_iff]
  constructor
  · rintro ⟨xs, x, reads⟩
    rw [Pile.read_of_reads reads]
    exact (reads.ruled Pile.regular_start).clean
  · intro clean
    have whole := Reader.read_whole t
    have read : (Reader.read t).label ≠ .skipped := by
      rcases whole.label with document | fault
      · simp [document]
      · simp [fault]
    refine Classical.byContradiction fun never => ?_
    rcases Reader.read_strays fun xs x reads => never ⟨xs, x, reads⟩ with fault | costly
    · exact clean.fits fault
    · rw [clean_cost clean whole.sound read] at costly
      cases costly

/-- An element that is left open lacks its end. -/
example : isFaultless "<p>x</p>" = true ∧ isFaultless "<p>x" = false := by decide +kernel

end TemplateMarkup.Markup
