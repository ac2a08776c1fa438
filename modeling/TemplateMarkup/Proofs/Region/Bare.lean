import TemplateMarkup.Proofs.Region.Settled

/-!
Bare texts, in which no comment, no code and no style can be found. Passes over a text only ever take
characters out, and they end with a bare text, also where taking out one region has brought the ends of
another together; leaving out the blanks at its ends makes up no new one.
-/
namespace TemplateMarkup.Region

open Text

variable {t u : Text} {n : Nat}

/-- Nothing can be found in the text: no comment, no code after a directive and no style. -/
structure Bare (t : Text) : Prop where
  comments : ∀ before inside after,
    t ≠ before ++ "@*".toList ++ inside ++ "*@".toList ++ after
  code : ∀ d ∈ directives, withMarker d t = []
  styles : stylesIn t = []

theorem foldl_withoutCode_sublist (ds : List Text) (given : ∀ d ∈ ds, d ≠ []) (t : Text) :
    (ds.foldl withoutCode t).Sublist t := by
  induction ds generalizing t with
  | nil => exact List.Sublist.refl t
  | cons d ds ih =>
    have rest := ih (fun d member => given d (List.mem_cons_of_mem _ member)) (withoutCode t d)
    exact rest.trans (cut_sublist (withMarker_cut (given d (List.mem_cons_self ..)) t))

/-- Comments, code and styles are taken out by cuts, each of what the one before it left. -/
theorem removeOnce_sublist (t : Text) : (removeOnce t).Sublist t := by
  obtain ⟨insides, comments, -⟩ := comments_cut t
  have code := foldl_withoutCode_sublist directives (fun _ member => directive_given member)
    (removeDelimited "@*" "*@" t)
  rw [removeOnce_eq]
  exact ((cut_sublist (stylesIn_cut _)).trans code).trans (cut_sublist comments)

theorem Passes.sublist (passes : Passes n t u) : u.Sublist t := by
  induction passes with
  | last kept => exact List.Sublist.refl _
  | next changed later ih => exact ih.trans (removeOnce_sublist _)

theorem bare_iff_settled : Bare t ↔ Settled t := by
  have closed : (∀ lead after, t = lead ++ "@*".toList ++ after → splitAt? "*@" after = none) ↔
      ∀ before inside after, t ≠ before ++ "@*".toList ++ inside ++ "*@".toList ++ after := by
    constructor
    · intro none before inside after split
      have found : (splitAt? "*@" (inside ++ "*@".toList ++ after)).isSome :=
        splitAt?_isSome_iff.mpr ⟨inside, after, rfl⟩
      rw [none before _ (by rw [split]; simp)] at found
      cases found
    · intro clear lead rest split
      rw [← Option.not_isSome_iff_eq_none, splitAt?_isSome_iff]
      rintro ⟨inside, after, rfl⟩
      exact clear lead inside after (by rw [split]; simp)
  constructor
  · intro bare
    refine ⟨closed.mpr bare.comments, ?_, ?_⟩
    · intro d member
      exact (withMarker_eq_nil_iff member t).mp (bare.code d member)
    · exact (stylesFrom_cut (bytes t) (t.length + 1) t (by omega) (by omega)).2.mp bare.styles
  · intro settled
    exact ⟨closed.mp settled.comments, fun _ member => settled.withMarker member, settled.stylesIn⟩

theorem trim_sublist (t : Text) : (trim t).Sublist t := by
  obtain ⟨before, after, parts⟩ := trim_part t
  have inner : (trim t).Sublist (before ++ trim t ++ after) :=
    (List.sublist_append_right before _).trans (List.sublist_append_left _ after)
  rwa [← parts] at inner

theorem Bare.markupOf (bare : Bare t) : markupOf t = trim t := by
  rw [Region.markupOf, removeAllFrom, (bare_iff_settled.mp bare).removeOnce, if_pos rfl]

/-- The markup of a template is what passes over it leave, without the blanks at its ends. The passes
end, because each one that changes the text makes it shorter. In the markup nothing more can be found; it
is made of characters of the template, in their order; where nothing can be found, only blanks go; and the
markup of the markup is the same. -/
theorem passes_leave_bare_markup (t : Text) :
    (∀ s, removeOnce s ≠ s → (removeOnce s).length < s.length) ∧
      (∃ n u, n ≤ t.length ∧ Passes n t u ∧ markupOf t = trim u) ∧
      Bare (markupOf t) ∧ (markupOf t).Sublist t ∧ (Bare t → markupOf t = trim t) ∧
      markupOf (markupOf t) = markupOf t := by
  obtain ⟨n, bound, passes⟩ := exists_passes (t.length + 1) t (by omega)
  have sublist : (markupOf t).Sublist t := (trim_sublist _).trans passes.sublist
  exact ⟨fun s changed => removeOnce_shorter changed, ⟨n, _, bound, passes, rfl⟩,
    bare_iff_settled.mpr (markupOf_settled t), sublist, Bare.markupOf, markupOf_markupOf t⟩

/-- Code between the letters of a directive, which comes together when that code is taken out. -/
def rejoinedTemplate : Text := " <p>a</p>@cod@code\x7b\x7de \x7b x \x7d".toList

theorem rejoinedTemplate_markup :
    removeOnce rejoinedTemplate = " <p>a</p>@code \x7b x \x7d".toList ∧
      (removeOnce rejoinedTemplate).length < rejoinedTemplate.length ∧
      markupOf rejoinedTemplate = "<p>a</p>".toList ∧ Bare "<p>a</p>".toList ∧
      markupOf "<p>a</p>".toList = trim "<p>a</p>".toList := by
  have once : removeOnce rejoinedTemplate = " <p>a</p>@code \x7b x \x7d".toList := by decide +kernel
  have markup : markupOf rejoinedTemplate = "<p>a</p>".toList := by decide +kernel
  obtain ⟨shorter, -, bare, -⟩ := passes_leave_bare_markup rejoinedTemplate
  rw [markup] at bare
  exact ⟨once, shorter _ (by rw [once]; decide), markup, bare,
    (passes_leave_bare_markup "<p>a</p>".toList).2.2.2.2.1 bare⟩

end TemplateMarkup.Region
