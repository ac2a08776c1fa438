import TemplateMarkup.Proofs.Blanks
import TemplateMarkup.Proofs.Region.Blocks

/-!
Texts in which nothing is left to take out. A pass over a text keeps it exactly if no comment, no code
and no style stands anywhere in it, and otherwise makes it shorter. So the passes end with such a text,
and its parts, the text without blanks at its ends among them, are such texts again.
-/
namespace TemplateMarkup.Region

open Text

variable {t : Text}

/-- No comment, no code and no style stands anywhere in the text. -/
structure Settled (t : Text) : Prop where
  comments : ∀ lead after, t = lead ++ "@*".toList ++ after → splitAt? "*@" after = none
  code : ∀ d ∈ directives, ∀ lead after, t = lead ++ d ++ after → endsWord after →
    braced? after = none
  styles : ∀ lead s, t = lead ++ s → styleAt? s = none

/-- A part of a settled text is settled: what stands in a part stands in the whole as well. -/
theorem Settled.part {before after : Text} (settled : Settled (before ++ t ++ after)) : Settled t where
  comments lead rest split := by
    subst split
    have whole := settled.comments (before ++ lead) (rest ++ after) (by simp)
    cases found : splitAt? "*@" rest with
    | none => rfl
    | some x =>
      rw [splitAt?_append after found] at whole
      cases whole
  code d member lead rest split word := by
    subst split
    cases found : braced? rest with
    | none => rfl
    | some x =>
      have filled : rest ≠ [] := by
        rintro rfl
        cases found
      obtain ⟨c, tail, rfl⟩ := List.exists_cons_of_ne_nil filled
      have whole := settled.code d member (before ++ lead) (c :: tail ++ after) (by simp) word
      rw [braced?_append after found] at whole
      cases whole
  styles lead s split := by
    subst split
    have whole := settled.styles (before ++ lead) (s ++ after) (by simp)
    cases found : styleAt? s with
    | none => rfl
    | some x =>
      have longer := styleAt?_append after (by rw [found]; rfl : (styleAt? s).isSome)
      rw [whole] at longer
      cases longer

theorem Settled.withMarker {d : Text} (settled : Settled t) (member : d ∈ directives) :
    withMarker d t = [] :=
  (withMarker_eq_nil_iff member t).mpr (settled.code d member)

theorem Settled.codeIn (settled : Settled t) : codeIn t = [] := by
  have none : (directives.flatMap fun d => Region.withMarker d t) = [] :=
    List.flatMap_eq_nil_iff.mpr fun d member => settled.withMarker member
  rw [Region.codeIn, none, List.mergeSort_nil]

theorem Settled.stylesIn (settled : Settled t) : stylesIn t = [] :=
  (stylesFrom_cut (bytes t) (t.length + 1) t (by omega) (by omega)).2.mpr settled.styles

def withoutCode (t d : Text) : Text := outside t ((Region.withMarker d t).map (·.span))

theorem removeOnce_eq (t : Text) :
    removeOnce t =
      let plain := directives.foldl withoutCode (removeDelimited "@*" "*@" t)
      outside plain ((Region.stylesIn plain).map (·.span)) := rfl

theorem directive_given {d : Text} (member : d ∈ directives) : d ≠ [] := by
  obtain ⟨part, rfl, -⟩ := directive_once member
  simp

theorem comments_cut (t : Text) :
    ∃ insides, Cut (Delimited "@*" "*@") 0 t insides (removeDelimited "@*" "*@" t) ∧
      (insides = [] ↔ ∀ lead after, t = lead ++ "@*".toList ++ after →
        splitAt? "*@" after = none) :=
  removeDelimitedFrom_cut (by decide) (t.length + 1) 0 t (by omega)

/-- Code is taken out directive by directive; a text that does not get shorter held none. -/
theorem foldl_withoutCode (ds : List Text) (given : ∀ d ∈ ds, d ≠ []) (t : Text) :
    (ds.foldl withoutCode t).length < t.length ∨
      (ds.foldl withoutCode t = t ∧ ∀ d ∈ ds, Region.withMarker d t = []) := by
  induction ds generalizing t with
  | nil => exact Or.inr ⟨rfl, by simp⟩
  | cons d ds ih =>
    have cut : Cut (IsBlock d) 0 t (Region.withMarker d t) (withoutCode t d) :=
      withMarker_cut (given d (List.mem_cons_self ..)) t
    have bound := cut_length cut
    have later := ih (fun d member => given d (List.mem_cons_of_mem _ member)) (withoutCode t d)
    rw [List.foldl_cons, List.forall_mem_cons]
    by_cases found : Region.withMarker d t = []
    · rw [cut_rest_eq cut found] at later ⊢
      exact later.imp_right fun ⟨same, others⟩ => ⟨same, found, others⟩
    · have some := List.length_pos_iff.mpr found
      left
      rcases later with shorter | ⟨same, -⟩
      · omega
      · rw [same]
        omega

/-- A pass makes a text shorter, or nothing stood in it. -/
theorem removeOnce_cases (t : Text) :
    (removeOnce t).length < t.length ∨ (removeOnce t = t ∧ Settled t) := by
  obtain ⟨insides, comments, noComment⟩ := comments_cut t
  have code := foldl_withoutCode directives (fun _ member => directive_given member)
    (removeDelimited "@*" "*@" t)
  rw [removeOnce_eq]
  generalize removeDelimited "@*" "*@" t = bare at comments code
  have styles := stylesIn_cut (directives.foldl withoutCode bare)
  have noStyle := (stylesFrom_cut (bytes (directives.foldl withoutCode bare)) _
    (directives.foldl withoutCode bare) (Nat.lt_succ_self _) (Nat.le_refl _)).2
  rw [← Region.stylesIn] at noStyle
  dsimp only
  generalize directives.foldl withoutCode bare = plain at code styles noStyle
  have commentBound := cut_length comments
  have styleBound := cut_length styles
  -- each of the three steps shortens the text by what it takes out
  by_cases kept : insides = [] ∧ Region.stylesIn plain = [] ∧ ¬plain.length < bare.length
  · obtain ⟨commentsNil, stylesNil, long⟩ := kept
    obtain ⟨rfl, codeNil⟩ := code.resolve_left long
    obtain rfl := cut_rest_eq comments commentsNil
    right
    refine ⟨cut_rest_eq styles stylesNil, noComment.mp commentsNil, ?_, noStyle.mp stylesNil⟩
    intro d member
    exact (withMarker_eq_nil_iff member _).mp (codeNil d member)
  · left
    have codeBound : plain.length ≤ bare.length := by
      rcases code with shorter | ⟨rfl, -⟩
      · omega
      · exact Nat.le_refl _
    have positive : 0 < insides.length + (Region.stylesIn plain).length +
        (bare.length - plain.length) := by
      refine Nat.pos_of_ne_zero fun zero => kept ⟨?_, ?_, by omega⟩
      · exact List.length_eq_zero_iff.mp (by omega)
      · exact List.length_eq_zero_iff.mp (by omega)
    omega

theorem Settled.withoutCode (settled : Settled t) (ds : List Text) (known : ∀ d ∈ ds, d ∈ directives) :
    ds.foldl withoutCode t = t := by
  induction ds with
  | nil => rfl
  | cons d ds ih =>
    have member := known d (List.mem_cons_self ..)
    have kept : Region.withoutCode t d = t :=
      cut_rest_eq (withMarker_cut (directive_given member) t) (settled.withMarker member)
    rw [List.foldl_cons, kept]
    exact ih fun d member => known d (List.mem_cons_of_mem _ member)

theorem Settled.removeOnce (settled : Settled t) : removeOnce t = t := by
  obtain ⟨insides, comments, noComment⟩ := comments_cut t
  have bare := cut_rest_eq comments (noComment.mpr settled.comments)
  rw [removeOnce_eq, bare, settled.withoutCode directives fun _ member => member]
  exact cut_rest_eq (stylesIn_cut t) settled.stylesIn

theorem removeOnce_shorter (changed : removeOnce t ≠ t) : (removeOnce t).length < t.length :=
  (removeOnce_cases t).resolve_right fun same => changed same.1

/-- After `n` passes over `t` that change it, the next one finds `u` and changes nothing. -/
inductive Passes : Nat → Text → Text → Prop
  | last {t : Text} (kept : removeOnce t = t) : Passes 0 t t
  | next {n : Nat} {t u : Text} (changed : removeOnce t ≠ t)
      (later : Passes n (removeOnce t) u) : Passes (n + 1) t u

theorem Passes.settled {n : Nat} {u : Text} (passes : Passes n t u) : Settled u := by
  induction passes with
  | @last t kept =>
    rcases removeOnce_cases t with shorter | ⟨-, settled⟩
    · rw [kept] at shorter
      omega
    · exact settled
  | next changed later ih => exact ih

/-- Each pass but the last one takes out a character, so a pass for every character is enough. -/
theorem exists_passes (fuel : Nat) (t : Text) (enough : t.length < fuel) :
    ∃ n ≤ t.length, Passes n t (removeAllFrom fuel t) := by
  induction fuel generalizing t with
  | zero => omega
  | succ fuel ih =>
    rw [removeAllFrom]
    by_cases kept : removeOnce t = t
    · rw [if_pos kept]
      exact ⟨0, Nat.zero_le _, Passes.last kept⟩
    · have shorter := removeOnce_shorter kept
      obtain ⟨n, bound, later⟩ := ih (removeOnce t) (by omega)
      rw [if_neg kept]
      exact ⟨n + 1, by omega, Passes.next kept later⟩

theorem markupOf_settled (t : Text) : Settled (markupOf t) := by
  obtain ⟨before, after, parts⟩ := trim_part (removeAllFrom (t.length + 1) t)
  obtain ⟨n, -, passes⟩ := exists_passes (t.length + 1) t (by omega)
  have settled := passes.settled
  rw [parts] at settled
  exact settled.part

theorem markupOf_markupOf (t : Text) : markupOf (markupOf t) = markupOf t := by
  have settled := markupOf_settled t
  rw [markupOf, removeAllFrom, settled.removeOnce, if_pos rfl, markupOf, trim_trim]

end TemplateMarkup.Region
