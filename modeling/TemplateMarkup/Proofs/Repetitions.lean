import TemplateMarkup.Proofs.Blanks
import TemplateMarkup.Proofs.Edit.Places
import TemplateMarkup.Proofs.Order
import TemplateMarkup.Repetition

/-!
Repeated markup. Two elements repeat each other if their markup has the same words. The elements are
gathered into groups one after the other; groups of two elements or more are reported, those with longer
previews first, and those with previews of one length in the order of their first elements.
-/
namespace TemplateMarkup

namespace Text

theorem nil_notMem_wordsFrom (run t : Text) : [] ∉ wordsFrom run t := by
  induction t generalizing run with
  | nil =>
    rw [wordsFrom]
    split
    · simp
    · rename_i begun
      simpa using begun
  | cons c t ih =>
    rw [wordsFrom]
    split
    · split
      · exact ih []
      · rename_i begun
        simpa using ⟨by simpa using begun, ih []⟩
    · exact ih (c :: run)

theorem joinWith_cons (separator s : Text) (ts : List Text) :
    joinWith separator (s :: ts) = s ++ if ts = [] then [] else separator ++ joinWith separator ts := by
  cases ts <;> simp [joinWith]

theorem joinWith_words_eq_nil {separator t : Text} :
    joinWith separator (words t) = [] ↔ words t = [] := by
  have solid : [] ∉ words t := nil_notMem_wordsFrom [] t
  cases list : words t with
  | nil => simp [joinWith]
  | cons w ws =>
    rw [list] at solid
    have first : w ≠ [] := fun empty => solid (by simp [empty])
    simp [joinWith_cons, first]

end Text

namespace Repetition

open Text

/-- Markup with each run of blanks as one space and no blanks at its ends. -/
def form (markup : Text) : Text := joinWith [' '] (words markup)

theorem collapse_solid {c : Char} (solid : isBlank c = false) (t : Text) :
    collapse (c :: t) = c :: collapse t := by
  simp [collapse, solid]

/-- A run of blanks becomes one space, whatever its length. -/
theorem collapse_blank {c : Char} (blank : isBlank c) (t : Text) :
    collapse (c :: t) = ' ' :: trimStart (collapse t) := by
  induction t generalizing c with
  | nil => simp [collapse, blank, trimStart]
  | cons d t ih =>
    rw [collapse, if_pos blank]
    cases next : isBlank d with
    | true =>
      simp only [if_true]
      rw [ih next, trimStart_blank (by decide), trimStart_trimStart]
    | false =>
      simp only [Bool.false_eq_true, if_false]
      rw [collapse_solid next, trimStart_solid next]

-- Both halves go by the text together: a blank ends a word that is begun, and a character begins one.
theorem normalize_words (t : Text) : normalize t = joinWith [' '] (words t) ∧
    ∀ run : Text, run ≠ [] → joinWith [' '] (wordsFrom run t) = run.reverse ++ trimEnd (collapse t) := by
  induction t with
  | nil =>
    refine ⟨rfl, ?_⟩
    intro run begun
    simp [wordsFrom, begun, joinWith, collapse, trimEnd]
  | cons c t ih =>
    obtain ⟨whole, begun⟩ := ih
    cases kind : isBlank c with
    | false =>
      constructor
      · have first := begun [c] (by simp)
        rw [normalize, trim, collapse_solid kind, trimStart_solid kind, trimEnd_solid kind, words,
          wordsFrom, kind, if_neg (by simp), first]
        rfl
      · intro run _
        rw [wordsFrom, kind, if_neg (by simp), begun (c :: run) (by simp), collapse_solid kind,
          trimEnd_solid kind]
        simp
    | true =>
      constructor
      · rw [normalize, trim, collapse_blank kind, trimStart_blank (by decide), trimStart_trimStart,
          words, wordsFrom, kind]
        exact whole
      · intro run given
        have rest : trimEnd (collapse (c :: t)) =
            if words t = [] then [] else ' ' :: joinWith [' '] (words t) := by
          rw [collapse_blank kind, trimEnd_blank (by decide), ← trim, ← normalize, whole]
          simp only [joinWith_words_eq_nil]
        have ended : wordsFrom run (c :: t) = run.reverse :: words t := by
          simp [wordsFrom, kind, given, words]
        rw [ended, rest, joinWith_cons, List.singleton_append]

theorem normalize_eq_form (t : Text) : normalize t = form t := (normalize_words t).1

section Groups

variable {key : Record → Text} {groups : List (Text × List Nat)} {rs : List Record}

/-- The groups of elements: a group for each key, in the order of first occurrence, with the lines of its
elements. -/
structure Groups (key : Record → Text) (groups : List (Text × List Nat)) (rs : List Record) : Prop where
  keys : FirstOccurrences (groups.map (·.1)) (rs.map key)
  lines : ∀ g ∈ groups, g.2 = (rs.filter fun r => key r == g.1).map (·.line)

theorem addTo_known {k : Text} {n : Nat} (known : k ∈ groups.map (·.1))
    (nodup : (groups.map (·.1)).Nodup) :
    addTo k n groups = groups.map fun g => if g.1 = k then (g.1, g.2 ++ [n]) else g := by
  induction groups with
  | nil => cases known
  | cons g groups ih =>
    obtain ⟨first, rest⟩ := List.nodup_cons.mp nodup
    rw [addTo, List.map_cons]
    split
    · rename_i same
      have others : ∀ h ∈ groups, ¬ h.1 = k := by
        intro h member equal
        exact first (List.mem_map.mpr ⟨h, member, equal.trans same.symm⟩)
      congr 1
      exact (List.map_id' groups).symm.trans
        (List.map_congr_left fun h member => (if_neg (others h member)).symm)
    · rename_i other
      have later : k ∈ groups.map (·.1) := (List.mem_cons.mp known).resolve_left (Ne.symm other)
      rw [ih later rest]

theorem addTo_new {k : Text} {n : Nat} (new : k ∉ groups.map (·.1)) :
    addTo k n groups = groups ++ [(k, [n])] := by
  induction groups with
  | nil => rfl
  | cons g groups ih =>
    rw [List.map_cons, List.mem_cons, not_or] at new
    rw [addTo, if_neg (Ne.symm new.1), ih new.2, List.cons_append]

theorem filter_concat (r : Record) (k : Text) :
    ((rs ++ [r]).filter fun s => key s == k).map (·.line) =
      (rs.filter fun s => key s == k).map (·.line) ++ if key r = k then [r.line] else [] := by
  by_cases same : key r = k <;> simp [List.filter_append, same]

theorem addTo_groups (grouped : Groups key groups rs) (r : Record) :
    Groups key (addTo (key r) r.line groups) (rs ++ [r]) := by
  by_cases known : key r ∈ groups.map (·.1)
  · rw [addTo_known known grouped.keys.nodup]
    constructor
    · have keys := grouped.keys.concat_known known
      rw [List.map_append, List.map_map]
      have same : ((·.1) ∘ fun g : Text × List Nat =>
          if g.1 = key r then (g.1, g.2 ++ [r.line]) else g) = (·.1) := by
        funext g
        dsimp only [Function.comp]
        split <;> rfl
      rw [same]
      exact keys
    · intro g member
      obtain ⟨old, inside, rfl⟩ := List.mem_map.mp member
      have before := grouped.lines old inside
      split
      · rename_i same
        rw [filter_concat, if_pos same.symm, before]
      · rename_i other
        rw [filter_concat, if_neg (Ne.symm other), List.append_nil, before]
  · rw [addTo_new known]
    constructor
    · have keys := grouped.keys.concat_new known
      simpa using keys
    · intro g member
      rcases List.mem_append.mp member with old | last
      · have other : key r ≠ g.1 := fun same => known (List.mem_map.mpr ⟨g, old, same.symm⟩)
        rw [filter_concat, if_neg other, List.append_nil, grouped.lines g old]
      · obtain rfl := List.mem_singleton.mp last
        have none : rs.filter (fun s => key s == key r) = [] := by
          refine List.filter_eq_nil_iff.mpr ?_
          intro s member same
          exact known ((grouped.keys.mem_iff _).mpr (List.mem_map.mpr ⟨s, member, beq_iff_eq.mp same⟩))
        rw [filter_concat, if_pos rfl, none]
        rfl

theorem foldl_groups (grouped : Groups key groups rs) (more : List Record) :
    Groups key (more.foldl (fun found r => addTo (key r) r.line found) groups) (rs ++ more) := by
  induction more generalizing groups rs with
  | nil => simpa using grouped
  | cons r more ih =>
    have rest := ih (addTo_groups grouped r)
    rw [List.append_assoc, List.singleton_append] at rest
    exact rest

end Groups

/-- There are more than twenty characters of markup between the tags of the element. -/
def isCandidate (t : Text) (r : Record) : Bool :=
  (r.inner.bind (·.slice? t)).any fun inner => 20 < inner.length

def formOf? (t : Text) (r : Record) : Option Text := (r.outer.slice? t).map form

def formsIn (t : Text) : List Text :=
  ((Document.read t).records.filter (isCandidate t)).filterMap (formOf? t)

/-- The candidates of a form, in document order. -/
def membersOf (t f : Text) : List Record :=
  (Document.read t).records.filter fun r => isCandidate t r && formOf? t r == some f

def previewOf (f : Text) : Text := f.take 100 ++ "...".toList

def ofForm (t f : Text) : Repetition := ⟨previewOf f, (membersOf t f).map (·.line)⟩

theorem slice?_on {t : Text} {s : Span} (on : s.On t) : s.slice? t = some (s.slice t) := by
  obtain ⟨a, b, c, rfl, start, stop⟩ := boundary_split on.start on.stop on.range
  rw [Span.slice, Span.slice?, Text.slice, ← start, ← stop, bytes_append, List.append_assoc,
    slice?_append, Option.getD_some]

section Settled

variable {t : Text} {r : Record} (settled : r.Settled t)
include settled

theorem isCandidate_eq : isCandidate t r = isEligible t r := by
  rw [isCandidate, isEligible]
  cases inner : r.inner with
  | none => rfl
  | some s =>
    rw [Option.bind_some, slice?_on (settled.inner s inner).1]
    rfl

theorem formOf?_eq : formOf? t r = some (normalize (r.outer.slice t)) := by
  rw [formOf?, slice?_on settled.outer, Option.map_some, normalize_eq_form]

end Settled

/-- The elements that are gathered, with their keys, are the candidates with their forms. -/
theorem groups_candidates (t : Text) : ∃ (key : Record → Text) (rs : List Record),
    Groups key (groups t) rs ∧ formsIn t = rs.map key ∧
      ∀ f, membersOf t f = rs.filter fun r => key r == f := by
  have settled : ∀ r ∈ (Document.read t).records, r.Settled t := fun r => Document.settled_of_mem
  have candidates : (Document.read t).records.filter (isCandidate t) =
      (Document.read t).records.filter (isEligible t) :=
    List.filter_congr fun r member => isCandidate_eq (settled r member)
  refine ⟨fun r => normalize (r.outer.slice t),
    (Document.read t).records.filter (isEligible t), ?_, ?_, ?_⟩
  · have none : Groups (fun r => normalize (r.outer.slice t)) [] [] := ⟨FirstOccurrences.nil, by simp⟩
    have gathered := foldl_groups none ((Document.read t).records.filter (isEligible t))
    rw [List.nil_append] at gathered
    exact gathered
  · rw [formsIn, candidates, ← List.filterMap_eq_map]
    refine List.filterMap_congr ?_
    intro r member
    exact formOf?_eq (settled r (List.mem_filter.mp member).1)
  · intro f
    rw [membersOf, List.filter_filter]
    refine List.filter_congr ?_
    intro r member
    rw [isCandidate_eq (settled r member), formOf?_eq (settled r member), Bool.and_comm]
    rfl

theorem filterMap_ofGroup? {found : List (Text × List Nat)} {entry : Text → Repetition}
    (each : ∀ g ∈ found, entry g.1 = ⟨previewOf g.1, g.2⟩) :
    found.filterMap ofGroup? = ((found.map (·.1)).filter fun f => 2 ≤ (entry f).count).map entry := by
  induction found with
  | nil => rfl
  | cons g found ih =>
    obtain ⟨here, later⟩ := List.forall_mem_cons.mp each
    rw [List.filterMap_cons, ih later, List.map_cons, List.filter_cons, ofGroup?, here]
    by_cases few : g.2.length < 2
    · rw [if_pos few, if_neg (by rw [decide_eq_true_eq]; exact Nat.not_le.mpr few)]
    · rw [if_neg few, if_pos (by rw [decide_eq_true_eq]; exact Nat.not_lt.mp few), List.map_cons, here]
      rfl

theorem mem_formsIn {t f : Text} (many : 2 ≤ (membersOf t f).length) : f ∈ formsIn t := by
  obtain ⟨r, member⟩ := List.exists_mem_of_length_pos (show 0 < (membersOf t f).length by omega)
  obtain ⟨record, passes⟩ := List.mem_filter.mp member
  rw [Bool.and_eq_true, beq_iff_eq] at passes
  exact List.mem_filterMap.mpr ⟨r, List.mem_filter.mpr ⟨record, passes.1⟩, passes.2⟩

def longerFirst (f g : Text) : Bool := decide ((previewOf g).length ≤ (previewOf f).length)

theorem longerFirst_trans (f g h : Text) (first : longerFirst f g) (second : longerFirst g h) :
    longerFirst f h := by
  simp only [longerFirst, decide_eq_true_eq] at *
  omega

theorem longerFirst_total (f g : Text) : longerFirst f g || longerFirst g f := by
  simp only [longerFirst, Bool.or_eq_true, decide_eq_true_eq]
  omega

theorem count_ofForm (t f : Text) : (ofForm t f).count = (membersOf t f).length := by
  rw [count, ofForm, List.length_map]

/-- A report is made from the forms of the groups with two members or more. -/
theorem allIn_eq (t : Text) : allIn t =
    ((((groups t).map (·.1)).filter fun f => 2 ≤ (ofForm t f).count).mergeSort longerFirst).map
      (ofForm t) := by
  obtain ⟨key, rs, grouped, _, members⟩ := groups_candidates t
  have each : ∀ g ∈ groups t, ofForm t g.1 = ⟨previewOf g.1, g.2⟩ := by
    intro g member
    rw [ofForm, members, ← grouped.lines g member]
  have order : ∀ f g, longerFirst f g =
      decide ((ofForm t g).preview.length ≤ (ofForm t f).preview.length) := fun _ _ => rfl
  rw [allIn, filterMap_ofGroup? each]
  generalize ((groups t).map (·.1)).filter (fun f => decide (2 ≤ (ofForm t f).count)) = forms
  exact (List.map_mergeSort fun f _ g _ => order f g).symm

/-- The markup of every element can be read off the text. A report has one entry for each form that at
least two candidates have, with their lines and their number. Longer previews come first, and among
previews of one length the form that occurs first. -/
theorem allIn_exact (t : Text) :
    (∀ r ∈ (Document.read t).records,
      (r.outer.slice? t).isSome ∧ ∀ s ∈ r.inner, (s.slice? t).isSome) ∧
    ∃ forms : List Text, allIn t = forms.map (ofForm t) ∧ forms.Nodup ∧
      (∀ f, f ∈ forms ↔ 2 ≤ (membersOf t f).length) ∧
      (∀ f, (ofForm t f).count = (membersOf t f).length) ∧
      forms.Pairwise fun f g => (previewOf g).length < (previewOf f).length ∨
        (previewOf f).length = (previewOf g).length ∧ (formsIn t).idxOf f < (formsIn t).idxOf g := by
  obtain ⟨key, rs, grouped, forms, _⟩ := groups_candidates t
  have firsts := grouped.keys
  rw [← forms] at firsts
  refine ⟨?_, _, allIn_eq t, ?_, ?_, count_ofForm t, ?_⟩
  · intro r member
    have settled := Document.settled_of_mem member
    refine ⟨by rw [slice?_on settled.outer]; rfl, ?_⟩
    intro s inner
    rw [slice?_on (settled.inner s inner).1]
    rfl
  · exact (List.mergeSort_perm ..).nodup_iff.mpr (firsts.nodup.filter _)
  · intro f
    rw [List.mem_mergeSort, List.mem_filter, firsts.mem_iff, decide_eq_true_eq, count_ofForm]
    exact ⟨And.right, fun many => ⟨mem_formsIn many, many⟩⟩
  · have stable := mergeSort_stable longerFirst_trans longerFirst_total
      (firsts.ordered.filter fun f => decide (2 ≤ (ofForm t f).count))
    refine stable.imp ?_
    intro f g both
    simp only [longerFirst, decide_eq_true_eq] at both
    omega

end Repetition

end TemplateMarkup
