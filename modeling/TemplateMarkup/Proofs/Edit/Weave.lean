import TemplateMarkup.Proofs.Edit.Splices

/-!
The text that splices leave, read from left to right. Splices that stand in a strict order by their places
are woven into the text, however they are listed: each gives its replacement, and what lies between two of
them stays.
-/
namespace TemplateMarkup

namespace Text

variable {t : Text} {i j k : Nat}

theorem boundary_end (t : Text) : t.Boundary (bytes t) := ⟨t, [], by simp, rfl⟩

theorem slice_parts (a b c : Text) : slice (a ++ b ++ c) (bytes a) (bytes (a ++ b)) = b := by
  rw [slice, bytes_append, List.append_assoc, slice?_append, Option.getD_some]

theorem slice_self (boundary : t.Boundary i) : slice t i i = [] := by
  obtain ⟨lead, rest, rfl, rfl⟩ := boundary
  simpa using slice_parts lead [] rest

theorem slice_split (first : t.Boundary i) (second : t.Boundary j) (third : t.Boundary k) (low : i ≤ j)
    (high : j ≤ k) : slice t i k = slice t i j ++ slice t j k := by
  obtain ⟨a, b, rest, rfl, rfl, rfl⟩ := boundary_split first second low
  obtain ⟨lead, tail, same, rfl⟩ := third
  obtain ⟨c, rfl, rfl⟩ := append_inj_of_bytes same high
  have whole := slice_parts a (b ++ c) tail
  have left := slice_parts a b (c ++ tail)
  have right := slice_parts (a ++ b) c tail
  simp only [List.append_assoc] at *
  rw [whole, left, right]

end Text

namespace Splice

open Text

variable {t : Text} {i j : Nat} {ss : List Splice}

/-- The text from an offset on with splices that stand in the order of their places. -/
def weave (t : Text) (i : Nat) : List Splice → Text
  | [] => slice t i (bytes t)
  | s :: ss => slice t i s.span.start ++ s.replacement ++ weave t s.span.stop ss

/-- Text before the first splice stays. -/
theorem weave_advance (first : t.Boundary i) (second : t.Boundary j) (low : i ≤ j)
    (on : ∀ s ∈ ss, s.span.On t) (high : ∀ s ∈ ss, j ≤ s.span.start) :
    weave t i ss = slice t i j ++ weave t j ss := by
  cases ss with
  | nil =>
    obtain ⟨lead, rest, rfl, rfl⟩ := second
    exact slice_split first (boundary_bytes lead rest) (boundary_end _) low (by simp)
  | cons s ss =>
    have start := (on s (List.mem_cons_self ..)).start
    rw [weave, weave, slice_split first second start low (high s (List.mem_cons_self ..))]
    simp

/-- A splice that puts back what it takes can be left out. -/
theorem weave_filter {p : Splice → Bool} (boundary : t.Boundary i) (on : ∀ s ∈ ss, s.span.On t)
    (ascending : Ascending ss) (lower : ∀ s ∈ ss, i ≤ s.span.start)
    (idle : ∀ s ∈ ss, p s = false → s.replacement = s.span.slice t) :
    weave t i (ss.filter p) = weave t i ss := by
  induction ss generalizing i with
  | nil => rfl
  | cons s ss ih =>
    obtain ⟨first, ascending⟩ := List.pairwise_cons.mp ascending
    obtain ⟨here, later⟩ := List.forall_mem_cons.mp on
    obtain ⟨low, lower⟩ := List.forall_mem_cons.mp lower
    obtain ⟨idleHere, idle⟩ := List.forall_mem_cons.mp idle
    by_cases kept : p s = true
    · rw [List.filter_cons_of_pos kept, weave, weave, ih here.stop later ascending first idle]
    · have back := idleHere (Bool.not_eq_true _ ▸ kept)
      have range := here.range
      rw [List.filter_cons_of_neg kept, ih boundary later ascending lower idle, weave, back,
        weave_advance boundary here.stop (by omega) later first,
        slice_split boundary here.start here.stop low range]
      rfl

/-- Splices in groups can be woven group by group: what those of a group make of its place is one
replacement. -/
theorem weave_groups {α : Type} {place : α → Splice} {parts : α → List Splice} {xs : List α}
    (boundary : t.Boundary i) (on : ∀ x ∈ xs, (place x).span.On t)
    (ordered : xs.Pairwise fun x y => (place x).span.stop ≤ (place y).span.start)
    (lower : ∀ x ∈ xs, i ≤ (place x).span.start)
    (inside : ∀ x ∈ xs, ∀ s ∈ parts x, s.span.On t ∧ (place x).span.start ≤ s.span.start)
    (made : ∀ x ∈ xs, ∀ rest, (∀ s ∈ rest, s.span.On t ∧ (place x).span.stop ≤ s.span.start) →
      weave t (place x).span.start (parts x ++ rest) =
        (place x).replacement ++ weave t (place x).span.stop rest) :
    weave t i (xs.flatMap parts) = weave t i (xs.map place) := by
  induction xs generalizing i with
  | nil => rfl
  | cons x xs ih =>
    obtain ⟨first, ordered⟩ := List.pairwise_cons.mp ordered
    obtain ⟨here, later⟩ := List.forall_mem_cons.mp on
    obtain ⟨low, _⟩ := List.forall_mem_cons.mp lower
    obtain ⟨parted, insides⟩ := List.forall_mem_cons.mp inside
    obtain ⟨makes, made⟩ := List.forall_mem_cons.mp made
    have rest : ∀ s ∈ xs.flatMap parts, s.span.On t ∧ (place x).span.stop ≤ s.span.start := by
      intro s member
      obtain ⟨y, listed, part⟩ := List.mem_flatMap.mp member
      obtain ⟨onS, start⟩ := insides y listed s part
      have after := first y listed
      exact ⟨onS, by omega⟩
    have all : ∀ s ∈ parts x ++ xs.flatMap parts, s.span.On t ∧ (place x).span.start ≤ s.span.start := by
      intro s member
      rcases List.mem_append.mp member with part | further
      · exact parted s part
      · obtain ⟨onS, after⟩ := rest s further
        have range := here.range
        exact ⟨onS, by omega⟩
    rw [List.flatMap_cons, List.map_cons, weave,
      weave_advance boundary here.start low (fun s member => (all s member).1) (fun s member => (all s member).2),
      makes _ rest, ih here.stop later ordered first insides made, List.append_assoc]

theorem weave_assembly (lead rest : Text) (on : ∀ s ∈ ss, s.span.On (lead ++ rest))
    (ascending : Ascending ss) (lower : ∀ s ∈ ss, bytes lead ≤ s.span.start) :
    Assembly (bytes lead) rest ss (weave (lead ++ rest) (bytes lead) ss) := by
  induction ss generalizing lead rest with
  | nil =>
    have whole := slice_parts lead rest []
    rw [List.append_nil] at whole
    rw [weave, whole]
    exact Assembly.nil
  | cons s ss ih =>
    obtain ⟨first, ascending⟩ := List.pairwise_cons.mp ascending
    obtain ⟨here, later⟩ := List.forall_mem_cons.mp on
    obtain ⟨a, old, tail, split, start, stop⟩ := boundary_split here.start here.stop here.range
    have low := lower s (List.mem_cons_self ..)
    rw [List.append_assoc] at split
    obtain ⟨gap, rfl, rfl⟩ := append_inj_of_bytes split (by omega)
    have whole : lead ++ (gap ++ (old ++ tail)) = lead ++ gap ++ old ++ tail := by simp
    have gapped := slice_parts lead gap (old ++ tail)
    rw [whole] at later ⊢
    have assembly := ih (lead ++ gap ++ old) tail later ascending (fun u member => stop ▸ first u member)
    rw [stop] at assembly
    rw [List.append_assoc] at gapped
    rw [weave, ← whole, ← start, gapped, whole, ← List.append_assoc gap]
    refine Assembly.cons ?_ ?_ assembly
    · rw [← start, bytes_append]
    · rw [← stop, ← start, bytes_append _ old]

/-- The first splice ends before the second one starts, and they are not two insertions at one place. -/
def Precedes (s u : Splice) : Prop := s.span.stop ≤ u.span.start ∧ s.span.start < u.span.stop

theorem precedes_of_goesFirst {s u : Splice} (range : s.span.start ≤ s.span.stop) (first : goesFirst s u)
    (either : Precedes s u ∨ Precedes u s) : Precedes u s := by
  simp only [goesFirst, Bool.or_eq_true, decide_eq_true_eq, Bool.and_eq_true, beq_iff_eq] at first
  unfold Precedes at *
  omega

theorem mergeSort_eq {placed : List Splice} (same : placed.Perm ss) (on : ∀ s ∈ placed, s.span.On t)
    (ordered : placed.Pairwise Precedes) : ss.mergeSort goesFirst = placed.reverse := by
  have perm : (ss.mergeSort goesFirst).Perm placed := (List.mergeSort_perm ss goesFirst).trans same.symm
  have sorted := List.pairwise_mergeSort goesFirst_trans goesFirst_total ss
  have either : (ss.mergeSort goesFirst).Pairwise fun s u => Precedes s u ∨ Precedes u s :=
    (perm.pairwise_iff fun {_ _} => Or.symm).mpr (ordered.imp Or.inl)
  have backwards : (ss.mergeSort goesFirst).Pairwise fun s u => Precedes u s := by
    refine (sorted.and either).imp_of_mem ?_
    intro s u member _ both
    exact precedes_of_goesFirst (on s (perm.mem_iff.mp member)).range both.1 both.2
  refine (perm.trans (List.reverse_perm placed).symm).eq_of_pairwise ?_ backwards
    (List.pairwise_reverse.mpr ordered)
  intro s u _ _ first second
  unfold Precedes at first second
  omega

/-- Splices that precede each other are woven into the text, however they are listed. -/
theorem applyAll?_weave {placed : List Splice} (same : placed.Perm ss) (on : ∀ s ∈ placed, s.span.On t)
    (ordered : placed.Pairwise Precedes) : applyAll? t ss = some (weave t 0 placed) := by
  have ascending : Ascending placed := ordered.imp And.left
  have assembly := weave_assembly [] t on ascending (fun _ _ => Nat.zero_le _)
  have applied := assembly_foldlM assembly [] rfl
  rw [applyAll?, mergeSort_eq same on ordered]
  exact applied

/-- Splices at different places, apart from each other, have an order from left to right. -/
theorem exists_placed (on : ∀ s ∈ ss, s.span.On t) (distinct : ss.Pairwise fun s u => s.span ≠ u.span)
    (apart : ss.Pairwise fun s u => s.span.Apart u.span) :
    ∃ placed : List Splice, placed.Perm ss ∧ placed.Pairwise Precedes := by
  obtain ⟨placed, same, ascending⟩ := exists_ascending Splice.span on apart
  refine ⟨placed, same, ?_⟩
  have differ : placed.Pairwise fun s u => s.span ≠ u.span :=
    (same.pairwise_iff fun {_ _} => Ne.symm).mpr distinct
  refine (ascending.and differ).imp_of_mem ?_
  intro s u memberS memberU both
  obtain ⟨before, other⟩ := both
  have rangeS := (on s (same.mem_iff.mp memberS)).range
  have rangeU := (on u (same.mem_iff.mp memberU)).range
  refine ⟨before, Nat.lt_of_not_le fun late => other ?_⟩
  -- both would be insertions at one place
  have start : s.span.start = u.span.start := by omega
  have stop : s.span.stop = u.span.stop := by omega
  exact (Span.mk.injEq ..).mpr ⟨start, stop⟩

/-- Of two splices that start together the insertion comes first. -/
theorem insertion_sublist {placed : List Splice} {s u : Splice} (ordered : placed.Pairwise Precedes)
    (memberS : s ∈ placed) (memberU : u ∈ placed) (empty : s.span.isEmpty)
    (start : s.span.start = u.span.start) (other : s.span ≠ u.span) : [s, u].Sublist placed := by
  obtain ⟨before, after, rfl⟩ := List.append_of_mem memberS
  rcases List.mem_append.mp memberU with earlier | here
  · have first := (List.pairwise_append.mp ordered).2.2 u earlier s (List.mem_cons_self ..)
    have point := beq_iff_eq.mp empty
    unfold Precedes at first
    omega
  · have later : u ∈ after := by
      refine (List.mem_cons.mp here).resolve_left ?_
      rintro rfl
      exact other rfl
    exact ((List.singleton_sublist.mpr later).cons_cons s).trans (List.sublist_append_right before _)

/-- Splices at different places, apart from each other, act on a text as if all at once, however they are
listed: what none of them covers stays, and an insertion comes before what replaces the text after it. -/
theorem applied_at_once (on : ∀ s ∈ ss, s.span.On t) (distinct : ss.Pairwise fun s u => s.span ≠ u.span)
    (apart : ss.Pairwise fun s u => s.span.Apart u.span) :
    ∃ placed : List Splice, placed.Perm ss ∧ Ascending placed ∧
      (∀ s ∈ ss, ∀ u ∈ ss, s.span.isEmpty → s.span.start = u.span.start → s.span ≠ u.span →
        [s, u].Sublist placed) ∧
      ∀ listed : List Splice, listed.Perm ss → applyAll? t listed = some (weave t 0 placed) := by
  obtain ⟨placed, same, ordered⟩ := exists_placed on distinct apart
  refine ⟨placed, same, ordered.imp And.left, ?_, ?_⟩
  · intro s memberS u memberU
    exact insertion_sublist ordered (same.mem_iff.mpr memberS) (same.mem_iff.mpr memberU)
  · intro listed again
    exact applyAll?_weave (same.trans again.symm) (fun s member => on s (same.mem_iff.mp member)) ordered

/-- A replaced character with an insertion on either side of it, listed from the back. -/
def touchingSplices : List Splice := [insertion 3 "|", ⟨⟨1, 3⟩, "e"⟩, insertion 1 "["]

theorem touchingSplices_on : ∀ s ∈ touchingSplices, s.span.On "ré!" := by
  have first : Boundary "ré!" 1 := ⟨"r", "é!", rfl, rfl⟩
  have second : Boundary "ré!" 3 := ⟨"ré", "!", rfl, rfl⟩
  simp only [touchingSplices, List.forall_mem_cons]
  exact ⟨⟨by decide, second, second⟩, ⟨by decide, first, second⟩, ⟨by decide, first, first⟩, by simp⟩

theorem touchingSplices_at_once :
    ((∀ s ∈ touchingSplices, s.span.On "ré!") ∧ touchingSplices.Pairwise (fun s u => s.span ≠ u.span) ∧
      touchingSplices.Pairwise fun s u => s.span.Apart u.span) ∧
    ∃ placed : List Splice, placed.Perm touchingSplices ∧ Ascending placed ∧
      (∀ s ∈ touchingSplices, ∀ u ∈ touchingSplices, s.span.isEmpty → s.span.start = u.span.start →
        s.span ≠ u.span → [s, u].Sublist placed) ∧
      ∀ listed : List Splice, listed.Perm touchingSplices →
        applyAll? "ré!" listed = some (weave "ré!" 0 placed) :=
  ⟨⟨touchingSplices_on, by decide, by decide⟩, applied_at_once touchingSplices_on (by decide) (by decide)⟩

end Splice

end TemplateMarkup
