import TemplateMarkup.Edit.Splice

/-!
Splices that keep apart. However they are listed, they are applied from the back, so each one finds
its own text. The result is put together from left to right: the text between the splices stays, and
each splice gives its replacement.
-/
namespace TemplateMarkup

namespace Text

/-- The offset lies between two characters of the text, or at one of its ends. -/
def Boundary (t : Text) (n : Nat) : Prop := ∃ lead rest, t = lead ++ rest ∧ bytes lead = n

theorem append_inj_of_bytes {a b c d : Text} (same : a ++ b = c ++ d)
    (size : bytes a ≤ bytes c) : ∃ e, c = a ++ e ∧ b = e ++ d := by
  rcases List.append_eq_append_iff.mp same with ⟨e, left, right⟩ | ⟨e, left, right⟩
  · exact ⟨e, left, right⟩
  · have empty : e = [] := by
      cases e with
      | nil => rfl
      | cons x e =>
        have positive := x.utf8Size_pos
        rw [left, bytes_append, bytes_cons] at size
        omega
    subst empty
    exact ⟨[], by simpa using left.symm, by simpa using right.symm⟩

theorem boundary_bytes (lead rest : Text) : (lead ++ rest).Boundary (bytes lead) :=
  ⟨lead, rest, rfl, rfl⟩

/-- Two offsets between characters part a text in three. -/
theorem boundary_split {t : Text} {m n : Nat} (first : t.Boundary m) (second : t.Boundary n)
    (ordered : m ≤ n) : ∃ a b c, t = a ++ b ++ c ∧ bytes a = m ∧ bytes (a ++ b) = n := by
  obtain ⟨a, rest, split, sizeA⟩ := first
  obtain ⟨lead, c, same, sizeLead⟩ := second
  obtain ⟨b, leadSplit, _⟩ := append_inj_of_bytes (split.symm.trans same) (by omega)
  subst leadSplit
  exact ⟨a, b, c, same, sizeA, sizeLead⟩

end Text

namespace Span

def Apart (a b : Span) : Prop := a.stop ≤ b.start ∨ b.stop ≤ a.start

instance (a b : Span) : Decidable (a.Apart b) := inferInstanceAs (Decidable (_ ∨ _))

theorem apart_symm {a b : Span} (apart : a.Apart b) : b.Apart a := Or.symm apart

/-- The ends of the span lie between characters of the text. -/
structure On (t : Text) (s : Span) : Prop where
  range : s.start ≤ s.stop
  start : t.Boundary s.start
  stop : t.Boundary s.stop

end Span

namespace Splice

open Text

/-- The text `t`, which stands at the offset `n`, with splices that follow each other from left to
right. -/
inductive Assembly : (n : Nat) → (t : Text) → List Splice → (result : Text) → Prop where
  | nil {n : Nat} {t : Text} : Assembly n t [] t
  | cons {n : Nat} {gap old rest result : Text} {s : Splice} {ss : List Splice}
      (start : s.span.start = n + bytes gap) (stop : s.span.stop = s.span.start + bytes old)
      (later : Assembly s.span.stop rest ss result) :
      Assembly n (gap ++ old ++ rest) (s :: ss) (gap ++ s.replacement ++ result)

def Ascending (ss : List Splice) : Prop := ss.Pairwise fun a b => a.span.stop ≤ b.span.start

theorem put?_append (a b c r : Text) :
    put? (a ++ b ++ c) ⟨⟨bytes a, bytes (a ++ b)⟩, r⟩ = some (a ++ r ++ c) := by
  have lead := takeBytes_append a (b ++ c)
  have tail := dropBytes_append (a ++ b) c
  rw [← List.append_assoc] at lead
  unfold put?
  rw [if_pos (by simp), lead, tail]
  rfl

/-- Applied from the back, splices give what is put together from left to right. -/
theorem assembly_foldlM {n : Nat} {t result : Text} {ss : List Splice}
    (assembly : Assembly n t ss result) (lead : Text) (size : bytes lead = n) :
    ss.reverse.foldlM put? (lead ++ t) = some (lead ++ result) := by
  induction assembly generalizing lead with
  | nil => rfl
  | @cons n gap old rest result s ss start stop _ ih =>
    have before : bytes (lead ++ (gap ++ old)) = s.span.stop := by
      simp only [bytes_append]
      omega
    have here : s = ⟨⟨bytes (lead ++ gap), bytes (lead ++ gap ++ old)⟩, s.replacement⟩ := by
      rw [List.append_assoc, before, bytes_append, size, ← start]
    have later := ih (lead ++ (gap ++ old)) before
    rw [List.reverse_cons, List.foldlM_append, ← List.append_assoc, later]
    have put := put?_append (lead ++ gap) old result s.replacement
    rw [← here] at put
    simpa [List.foldlM_cons] using put

/-- Splices between characters of a text that follow each other can be put together. -/
theorem exists_assembly {n : Nat} {ss : List Splice} (lead t : Text) (ascending : Ascending ss)
    (on : ∀ s ∈ ss, s.span.On (lead ++ t)) (size : bytes lead = n)
    (lower : ∀ s ∈ ss, n ≤ s.span.start) : ∃ result, Assembly n t ss result := by
  induction ss generalizing n lead t with
  | nil => exact ⟨t, Assembly.nil⟩
  | cons s ss ih =>
    obtain ⟨first, rest⟩ := List.pairwise_cons.mp ascending
    have onS := on s (by simp)
    obtain ⟨a, old, tail, split, sizeA, sizeOld⟩ :=
      boundary_split onS.start onS.stop onS.range
    rw [List.append_assoc] at split
    obtain ⟨gap, leadGap, here⟩ := append_inj_of_bytes split (by
      have := lower s (by simp)
      omega)
    subst leadGap here
    have whole : lead ++ (gap ++ (old ++ tail)) = lead ++ gap ++ old ++ tail := by simp
    obtain ⟨result, later⟩ := ih (lead ++ gap ++ old) tail rest
      (fun x member => whole ▸ on x (List.mem_cons_of_mem s member)) sizeOld
      (fun x member => first x member)
    refine ⟨gap ++ s.replacement ++ result, ?_⟩
    rw [← List.append_assoc]
    refine Assembly.cons ?_ ?_ later
    · rw [← sizeA, bytes_append, size]
    · rw [← sizeA, ← sizeOld, bytes_append _ old]

theorem goesFirst_trans (a b c : Splice) (first : goesFirst a b) (second : goesFirst b c) :
    goesFirst a c := by
  simp only [goesFirst, Bool.or_eq_true, decide_eq_true_eq, Bool.and_eq_true, beq_iff_eq] at *
  omega

theorem goesFirst_total (a b : Splice) : goesFirst a b || goesFirst b a := by
  simp only [goesFirst, Bool.or_eq_true, decide_eq_true_eq, Bool.and_eq_true, beq_iff_eq]
  omega

/-- Of two splices apart, the one that does not go first ends before the other one starts. -/
theorem stop_le_of_goesFirst {a b : Splice} (range : a.span.start ≤ a.span.stop)
    (first : goesFirst a b) (apart : a.span.Apart b.span) : b.span.stop ≤ a.span.start := by
  simp only [goesFirst, Bool.or_eq_true, decide_eq_true_eq, Bool.and_eq_true, beq_iff_eq] at first
  rcases apart with before | after
  · omega
  · exact after

theorem ascending_of_apart {t : Text} {ss : List Splice} (on : ∀ s ∈ ss, s.span.On t)
    (apart : ss.Pairwise fun a b => a.span.Apart b.span) :
    Ascending (ss.mergeSort goesFirst).reverse := by
  have perm := List.mergeSort_perm ss goesFirst
  have sorted := List.pairwise_mergeSort goesFirst_trans goesFirst_total ss
  have apartSorted : (ss.mergeSort goesFirst).Pairwise fun a b => a.span.Apart b.span :=
    (perm.pairwise_iff fun {_ _} => Span.apart_symm).mpr apart
  refine List.pairwise_reverse.mpr ?_
  refine (sorted.and apartSorted).imp_of_mem ?_
  intro a b memberA _ both
  exact stop_le_of_goesFirst (on a (perm.mem_iff.mp memberA)).range both.1 both.2

/-- Things with places apart from each other can be put in the order of their places. -/
theorem exists_ascending {α : Type} {t : Text} (place : α → Span) {xs : List α}
    (on : ∀ x ∈ xs, (place x).On t) (apart : xs.Pairwise fun x y => (place x).Apart (place y)) :
    ∃ placed : List α, placed.Perm xs ∧
      placed.Pairwise fun x y => (place x).stop ≤ (place y).start := by
  let mark : α → Splice := fun x => ⟨place x, []⟩
  let sorted := xs.mergeSort fun x y => goesFirst (mark x) (mark y)
  have same : sorted.map mark = (xs.map mark).mergeSort goesFirst :=
    List.map_mergeSort fun _ _ _ _ => rfl
  refine ⟨sorted.reverse, (List.reverse_perm _).trans (List.mergeSort_perm ..), ?_⟩
  have marked : ∀ s ∈ xs.map mark, s.span.On t := by
    intro s member
    obtain ⟨x, listed, rfl⟩ := List.mem_map.mp member
    exact on x listed
  have ascending := ascending_of_apart marked (List.pairwise_map.mpr apart)
  rw [← same, ← List.map_reverse] at ascending
  exact List.pairwise_map.mp ascending

/-- Splices apart from each other are applied as if all at once. -/
theorem applyAll?_assembly {t : Text} {ss : List Splice} (on : ∀ s ∈ ss, s.span.On t)
    (apart : ss.Pairwise fun a b => a.span.Apart b.span) :
    ∃ result, Assembly 0 t (ss.mergeSort goesFirst).reverse result ∧
      applyAll? t ss = some result := by
  have perm := List.mergeSort_perm ss goesFirst
  obtain ⟨result, assembly⟩ := exists_assembly [] t (ascending_of_apart on apart)
    (fun s member => on s (perm.mem_iff.mp (List.mem_reverse.mp member))) rfl
    (fun _ _ => Nat.zero_le _)
  refine ⟨result, assembly, ?_⟩
  have applied := assembly_foldlM assembly [] rfl
  rw [List.reverse_reverse] at applied
  exact applied

theorem assembly_lower {n : Nat} {t result : Text} {ss : List Splice}
    (assembly : Assembly n t ss result) : ∀ s ∈ ss, n ≤ s.span.start := by
  induction assembly with
  | nil => simp
  | cons start stop _ ih =>
    intro x member
    rcases List.mem_cons.mp member with rfl | later
    · omega
    · have := ih x later
      omega

/-- Text before and after all splices stays where it is. -/
theorem assembly_outside {n : Nat} {t tail result : Text} {ss : List Splice} (lead body : Text)
    (assembly : Assembly n t ss result) (split : t = lead ++ body ++ tail)
    (lower : ∀ s ∈ ss, n + bytes lead ≤ s.span.start)
    (upper : ∀ s ∈ ss, s.span.stop ≤ n + bytes (lead ++ body)) :
    ∃ middle, result = lead ++ middle ++ tail := by
  induction assembly generalizing lead body with
  | nil => exact ⟨body, split⟩
  | @cons n gap old rest result s ss start stop later ih =>
    have low := lower s (by simp)
    have high := upper s (by simp)
    rw [List.append_assoc, List.append_assoc] at split
    obtain ⟨g, gapSplit, inner⟩ := append_inj_of_bytes split.symm (by omega)
    subst gapSplit
    -- the old text of the splice lies in the body as well
    have sizes : bytes (g ++ old) ≤ bytes body := by
      simp only [bytes_append] at *
      omega
    rw [← List.append_assoc] at inner
    obtain ⟨b, bodySplit, restSplit⟩ := append_inj_of_bytes inner.symm sizes
    subst bodySplit
    obtain ⟨middle, same⟩ := ih [] b restSplit
      (fun x member => by simpa using assembly_lower later x member)
      (fun x member => by
        have := upper x (List.mem_cons_of_mem s member)
        simp only [bytes_append, List.nil_append] at *
        omega)
    exact ⟨g ++ s.replacement ++ middle, by simp [same]⟩

end Splice

end TemplateMarkup
