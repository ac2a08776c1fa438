import Mathlib.Algebra.Ring.Nat
import Mathlib.Data.List.SplitBy
import TemplateMarkup.Edit.Rename
import TemplateMarkup.Proofs.Edit.Places

/-!
What renaming a class does to a text. A value is read as runs of blanks and runs of other characters,
and each run that is the old name is replaced. The values of a document are apart from each other, so
every class value is rewritten in its own place and all text between them stays.
-/
namespace TemplateMarkup

namespace Text

def runs (t : Text) : List Text := t.splitBy fun c d => isBlank c == isBlank d

def isWord (run : Text) : Bool := run.all fun c => !isBlank c

theorem isWord_iff {run : Text} : isWord run ↔ ∀ c ∈ run, isBlank c = false := by
  simp [isWord]

theorem isWord_reverse (run : Text) : isWord run.reverse = isWord run := List.all_reverse

theorem runs_append {a b : Text} {blank : Bool} (filled : a ≠ []) (same : ∀ c ∈ a, isBlank c = blank)
    (ends : ∀ c ∈ b.head?, isBlank c ≠ blank) : runs (a ++ b) = a :: runs b := by
  have whole : runs a = [a] := by
    refine List.splitBy_of_isChain filled ?_
    rw [List.isChain_iff_getElem]
    intro i bound
    rw [beq_iff_eq, same _ (List.getElem_mem _), same _ (List.getElem_mem _)]
  have parted : runs (a ++ b) = runs a ++ runs b := by
    apply List.splitBy_append
    intro x last y head
    have differs := ends y head
    rw [same x (List.mem_of_mem_getLast? last)]
    exact beq_false_of_ne differs.symm
  rw [parted, whole]
  rfl

end Text

namespace Edit

open Text

def renameRun (old new run : Text) : Text := if isWord run && run == old then new else run

def renamed (old new value : Text) : Text := (runs value).flatMap (renameRun old new)

def uses (old value : Text) : Nat := (runs value).countP fun run => isWord run && run == old

variable (old new : Text)

theorem renamed_append {a b : Text} {blank : Bool} (filled : a ≠ [])
    (same : ∀ c ∈ a, isBlank c = blank) (ends : ∀ c ∈ b.head?, isBlank c ≠ blank) :
    renamed old new (a ++ b) = renameRun old new a ++ renamed old new b := by
  rw [renamed, runs_append filled same ends, List.flatMap_cons, renamed]

theorem uses_append {a b : Text} {blank : Bool} (filled : a ≠ [])
    (same : ∀ c ∈ a, isBlank c = blank) (ends : ∀ c ∈ b.head?, isBlank c ≠ blank) :
    uses old (a ++ b) = uses old b + if isWord a && a == old then 1 else 0 := by
  rw [uses, runs_append filled same ends, List.countP_cons, uses]

/-- Blanks stay, and no word runs across them. -/
theorem renamed_blanks {blanks rest : Text} (blank : ∀ c ∈ blanks, isBlank c = true)
    (ends : ∀ c ∈ rest.head?, isBlank c = false) :
    renamed old new (blanks ++ rest) = blanks ++ renamed old new rest ∧
      uses old (blanks ++ rest) = uses old rest := by
  cases blanks with
  | nil => exact ⟨rfl, rfl⟩
  | cons c blanks =>
    have noWord : isWord (c :: blanks) = false := by
      simp [isWord, blank c (List.mem_cons_self ..)]
    have apart : ∀ d ∈ rest.head?, isBlank d ≠ true := by
      intro d head
      simp [ends d head]
    constructor
    · rw [renamed_append old new (List.cons_ne_nil _ _) blank apart, renameRun, noWord]
      rfl
    · rw [uses_append old (List.cons_ne_nil _ _) blank apart, noWord]
      rfl

theorem renamed_cons_blank {c : Char} (blank : isBlank c = true) (t : Text) :
    renamed old new (c :: t) = c :: renamed old new t ∧ uses old (c :: t) = uses old t := by
  have blanks : ∀ d ∈ t.takeWhile isBlank, isBlank d = true := by
    intro d member
    exact List.all_eq_true.mp List.all_takeWhile d member
  have ends : ∀ d ∈ (t.dropWhile isBlank).head?, isBlank d = false := by
    intro d head
    have stops := List.head?_dropWhile_not isBlank t
    rw [Option.mem_def.mp head] at stops
    simpa using stops
  have here := renamed_blanks old new blanks ends
  have more := renamed_blanks old new
    (List.forall_mem_cons.mpr ⟨blank, blanks⟩) ends
  rw [List.cons_append, List.takeWhile_append_dropWhile] at more
  rw [List.takeWhile_append_dropWhile] at here
  rw [here.1, here.2, more.1, more.2]
  exact ⟨rfl, rfl⟩

theorem renamed_word {word rest : Text} (filled : word ≠ []) (solid : isWord word)
    (ends : ∀ c ∈ rest.head?, isBlank c = true) :
    renamed old new (word ++ rest) = (renameWord old new word).1 ++ renamed old new rest ∧
      uses old (word ++ rest) = (renameWord old new word).2 + uses old rest := by
  have apart : ∀ d ∈ rest.head?, isBlank d ≠ false := by
    intro d head
    simp [ends d head]
  rw [renamed_append old new filled (isWord_iff.mp solid) apart, uses_append old filled (isWord_iff.mp solid) apart,
    renameRun, renameWord, solid, Bool.true_and]
  by_cases same : word = old
  · simp [same, Nat.add_comm]
  · simp [same]

/-- Reading on with a word begun is reading the word and all that follows. -/
theorem renameWordsFrom_eq (value : Text) {run : Text} (solid : isWord run) :
    renameWordsFrom old new run value =
      (renamed old new (run.reverse ++ value), uses old (run.reverse ++ value)) := by
  induction value generalizing run with
  | nil =>
    rw [renameWordsFrom]
    cases run with
    | nil => rfl
    | cons d run =>
      have ends : ∀ e ∈ ([] : Text).head?, isBlank e = true := by simp
      have word := renamed_word old new (by simp : (d :: run).reverse ≠ [])
        ((isWord_reverse _).trans solid) ends
      rw [word.1, word.2]
      simp [renamed, uses, runs]
  | cons c t ih =>
    rw [renameWordsFrom]
    by_cases blank : isBlank c = true
    · rw [if_pos blank, ih rfl]
      cases run with
      | nil =>
        have cons := renamed_cons_blank old new blank t
        simp [cons.1, cons.2]
      | cons d run =>
        have cons := renamed_cons_blank old new blank t
        have ends : ∀ e ∈ (c :: t).head?, isBlank e = true := by simpa using blank
        have word := renamed_word old new (by simp : (d :: run).reverse ≠ [])
          ((isWord_reverse _).trans solid) ends
        rw [word.1, word.2, cons.1, cons.2]
        rfl
    · rw [if_neg blank, ih (by simpa [isWord, blank] using solid)]
      simp

theorem renamed_of_uses_eq_zero {value : Text} (none : uses old value = 0) :
    renamed old new value = value := by
  have stays : ∀ run ∈ runs value, renameRun old new run = run := by
    intro run member
    rw [renameRun, if_neg (List.countP_eq_zero.mp none run member)]
  calc renamed old new value = ((runs value).map (renameRun old new)).flatten := rfl
    _ = (runs value).flatten := by rw [List.map_congr_left stays, List.map_id']
    _ = value := List.flatten_splitBy _ value

theorem renameWords_eq (value : Text) :
    renameWords value old new = (renamed old new value, uses old value) :=
  renameWordsFrom_eq old new value rfl

/-- The place of the value of a class attribute, and the quotation mark it is escaped for. -/
def classValue? (a : Attribute) : Option (Span × Char) :=
  if ClassName.isAttribute a.name then a.valueSpan.map fun s => (s, a.quote.getD '\x22') else none

def classValues (t : Text) : List (Span × Char) :=
  ((Document.read t).records.flatMap (·.attributes)).filterMap classValue?

def renameValue (t old new : Text) (v : Span × Char) : Splice :=
  ⟨v.1, renamed old (escapeValue new v.2) (v.1.slice t)⟩

variable {t : Text}

theorem renameIn?_eq {a : Attribute} (settled : a.Settled t) :
    renameIn? old new a = (classValue? a).bind fun v =>
      if uses old (v.1.slice t) = 0 then none
      else some (renameValue t old new v, uses old (v.1.slice t)) := by
  unfold renameIn? classValue?
  rw [settled.read]
  cases a.valueSpan with
  | none => cases ClassName.isAttribute a.name <;> rfl
  | some s =>
    by_cases isClass : ClassName.isAttribute a.name = true
    · simp only [Option.map_some, if_pos isClass, Option.bind_some, renameWords_eq]
      rfl
    · simp only [Option.map_some, if_neg isClass, Option.bind_none]

/-- The values of different attributes of a text have no byte in common. -/
theorem read_values_apart (t : Text) :
    ((Document.read t).records.flatMap (·.attributes)).Pairwise fun a b =>
      ∀ s ∈ a.valueSpan, ∀ u ∈ b.valueSpan, s.Apart u := by
  have settled : ∀ r ∈ (Document.read t).records, r.Settled t := fun _ => Document.settled_of_mem
  refine List.pairwise_flatMap.mpr ⟨?_, ?_⟩
  · intro r member
    refine (settled r member).ordered.imp_of_mem ?_
    intro a b memberA memberB before s valueA u valueB
    have insideA := Span.encloses_iff.mp ((((settled r member).attributes a memberA).1.value s valueA).2)
    have insideB := Span.encloses_iff.mp ((((settled r member).attributes b memberB).1.value u valueB).2)
    left
    omega
  · refine (Document.read_tags_apart t).imp_of_mem ?_
    intro r q memberR memberQ apart a memberA b memberB s valueA u valueB
    obtain ⟨settledA, inA⟩ := (settled r memberR).attributes a memberA
    obtain ⟨settledB, inB⟩ := (settled q memberQ).attributes b memberB
    have insideA := Span.encloses_iff.mp (Span.encloses_trans inA (settledA.value s valueA).2)
    have insideB := Span.encloses_iff.mp (Span.encloses_trans inB (settledB.value u valueB).2)
    unfold Span.Apart at *
    omega

theorem settled_of_mem {a : Attribute}
    (member : a ∈ (Document.read t).records.flatMap (·.attributes)) : a.Settled t := by
  obtain ⟨r, memberR, memberA⟩ := List.mem_flatMap.mp member
  exact ((Document.settled_of_mem memberR).attributes a memberA).1

theorem classValue?_span {a : Attribute} {v : Span × Char} (found : classValue? a = some v) :
    a.valueSpan = some v.1 := by
  unfold classValue? at found
  split at found
  · obtain ⟨s, span, rfl⟩ := Option.map_eq_some_iff.mp found
    exact span
  · simp at found

theorem classValues_on : ∀ v ∈ classValues t, v.1.On t := by
  intro v member
  obtain ⟨a, memberA, found⟩ := List.mem_filterMap.mp member
  exact ((settled_of_mem memberA).value _ (classValue?_span found)).1

theorem classValues_apart (t : Text) : (classValues t).Pairwise fun v w => v.1.Apart w.1 := by
  refine List.pairwise_filterMap.mpr ((read_values_apart t).imp ?_)
  intro a b apart v foundA w foundB
  exact apart v.1 (classValue?_span foundA) w.1 (classValue?_span foundB)

/-- The splices of a renaming are those of the class values with a use of the name. -/
theorem renames_eq :
    ((Document.read t).records.flatMap (·.attributes)).filterMap (renameIn? old new) =
      ((classValues t).filter fun v => uses old (v.1.slice t) != 0).map fun v =>
        (renameValue t old new v, uses old (v.1.slice t)) := by
  rw [classValues, List.filter_filterMap, List.map_filterMap]
  refine List.filterMap_congr ?_
  intro a member
  rw [renameIn?_eq old new (settled_of_mem member)]
  cases classValue? a with
  | none => rfl
  | some v =>
    by_cases zero : uses old (v.1.slice t) = 0
    · simp [Option.filter_some, zero]
    · simp [Option.filter_some, zero]

theorem renames_total (values : List (Span × Char)) :
    (((values.filter fun v => uses old (v.1.slice t) != 0).map fun v =>
      (renameValue t old new v, uses old (v.1.slice t))).foldr (fun r n => r.2 + n) 0) =
      (values.map fun v => uses old (v.1.slice t)).sum := by
  induction values with
  | nil => rfl
  | cons v values ih =>
    by_cases zero : uses old (v.1.slice t) = 0
    · simpa [zero] using ih
    · simpa [zero] using ih

theorem start_lt_of_uses {s : Span} (on : s.On t) (used : uses old (s.slice t) ≠ 0) :
    s.start < s.stop := by
  have range := on.range
  by_contra low
  have same : s.stop = s.start := by omega
  apply used
  rw [Span.slice, same, slice_self on.start]
  rfl

/-- The values without a use of the name need not be rewritten. -/
theorem weave_used {placed : List (Span × Char)} (on : ∀ v ∈ placed, v.1.On t)
    (ordered : placed.Pairwise fun v w => v.1.stop ≤ w.1.start) :
    Splice.weave t 0 ((placed.filter fun v => uses old (v.1.slice t) != 0).map (renameValue t old new)) =
      Splice.weave t 0 (placed.map (renameValue t old new)) := by
  have onMap : ∀ s ∈ placed.map (renameValue t old new), s.span.On t := by
    intro s member
    obtain ⟨v, memberV, rfl⟩ := List.mem_map.mp member
    exact on v memberV
  have idle : ∀ s ∈ placed.map (renameValue t old new), (uses old (s.span.slice t) != 0) = false →
      s.replacement = s.span.slice t := by
    intro s member unused
    obtain ⟨v, memberV, rfl⟩ := List.mem_map.mp member
    exact renamed_of_uses_eq_zero old _ (by simpa [renameValue] using unused)
  have kept := Splice.weave_filter ⟨[], t, rfl, rfl⟩ onMap (List.pairwise_map.mpr ordered)
    (fun _ _ => Nat.zero_le _) idle
  rw [List.filter_map] at kept
  exact kept

theorem applyAll?_used {placed : List (Span × Char)} (same : placed.Perm (classValues t))
    (on : ∀ v ∈ placed, v.1.On t) (ordered : placed.Pairwise fun v w => v.1.stop ≤ w.1.start) :
    Splice.applyAll? t (((classValues t).filter fun v => uses old (v.1.slice t) != 0).map
        (renameValue t old new)) =
      some (Splice.weave t 0 (placed.map (renameValue t old new))) := by
  rw [← weave_used old new on ordered]
  refine Splice.applyAll?_weave ((same.filter _).map _) ?_ ?_
  · intro s member
    obtain ⟨v, memberV, rfl⟩ := List.mem_map.mp member
    exact on v (List.mem_filter.mp memberV).1
  · refine List.pairwise_map.mpr ((ordered.filter _).imp_of_mem ?_)
    intro v w memberV memberW before
    obtain ⟨inV, used⟩ := List.mem_filter.mp memberV
    -- a value with a use of the name has a byte, so no two splices stand at one place
    have filled := start_lt_of_uses old (on v inV) (by simpa using used)
    have range := (on w (List.mem_filter.mp memberW).1).range
    exact ⟨before, Nat.lt_of_lt_of_le filled (Nat.le_trans before range)⟩

theorem weave_unused {placed : List (Span × Char)} (on : ∀ v ∈ placed, v.1.On t)
    (ordered : placed.Pairwise fun v w => v.1.stop ≤ w.1.start)
    (unused : (placed.map fun v => uses old (v.1.slice t)).sum = 0) :
    Splice.weave t 0 (placed.map (renameValue t old new)) = t := by
  have none : placed.filter (fun v => uses old (v.1.slice t) != 0) = [] := by
    refine List.filter_eq_nil_iff.mpr ?_
    intro v member
    simp [List.sum_eq_zero_iff_forall_eq_nat.mp unused _ (List.mem_map_of_mem member)]
  have whole := slice_parts [] t []
  rw [← weave_used old new on ordered, none]
  rw [List.append_nil] at whole
  exact whole

/-- Renaming a class rewrites each class value in its place, run by run, and nothing else. -/
theorem renameClass_exact (t old new : Text) :
    (((Document.read t).records.flatMap (·.attributes)).Pairwise fun a b =>
        ∀ s ∈ a.valueSpan, ∀ u ∈ b.valueSpan, s.Apart u) ∧
      ∃ placed : List (Span × Char), placed.Perm (classValues t) ∧ (∀ v ∈ placed, v.1.On t) ∧
        (placed.Pairwise fun v w => v.1.stop ≤ w.1.start) ∧
        renameClass? t old new = some (Splice.weave t 0 (placed.map (renameValue t old new)),
          (placed.map fun v => uses old (v.1.slice t)).sum) ∧
        ((placed.map fun v => uses old (v.1.slice t)).sum = 0 →
          Splice.weave t 0 (placed.map (renameValue t old new)) = t) := by
  obtain ⟨placed, same, ordered⟩ :=
    Splice.exists_ascending (fun v : Span × Char => v.1) classValues_on (classValues_apart t)
  have on : ∀ v ∈ placed, v.1.On t := fun v member => classValues_on v (same.mem_iff.mp member)
  have total : ((classValues t).map fun v => uses old (v.1.slice t)).sum =
      (placed.map fun v => uses old (v.1.slice t)).sum := (same.map _).symm.sum_nat
  have unused := weave_unused old new on ordered
  refine ⟨read_values_apart t, placed, same, on, ordered, ?_, unused⟩
  simp only [renameClass?, renames_eq, renames_total, List.map_map, Function.comp_def, total]
  by_cases zero : (placed.map fun v => uses old (v.1.slice t)).sum = 0
  · rw [if_pos zero, unused zero, zero]
  · rw [if_neg zero, applyAll?_used old new same on ordered]
    rfl

end Edit

end TemplateMarkup
