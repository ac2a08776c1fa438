import TemplateMarkup.Proofs.Edit.Update

/-!
What wrapping and appending do to the text. The tags of a new parent go around the element, and new
content goes before its end tag or opens a tag that closes itself; all other text stays. How the
result is read depends on the tags: a void parent has no content, and a paragraph ends before a
block.
-/
namespace TemplateMarkup

open Text

namespace Splice

theorem applyAll?_single {t : Text} {s : Splice} (on : s.span.On t) :
    ∃ lead body tail, t = lead ++ body ++ tail ∧ bytes lead = s.span.start ∧
      bytes (lead ++ body) = s.span.stop ∧ applyAll? t [s] = some (lead ++ s.replacement ++ tail) := by
  obtain ⟨lead, body, tail, rfl, start, stop⟩ := boundary_split on.start on.stop on.range
  have assembly : Assembly 0 (lead ++ body ++ tail) [s] (lead ++ s.replacement ++ tail) := by
    refine Assembly.cons ?_ ?_ Assembly.nil
    · rw [← start, Nat.zero_add]
    · rw [← start, ← stop, bytes_append]
  refine ⟨lead, body, tail, rfl, start, stop, ?_⟩
  rw [applyAll?, List.mergeSort_singleton]
  exact assembly_foldlM assembly [] rfl

/-- Two insertions go around the text between them. -/
theorem applyAll?_around {t : Text} {span : Span} (on : span.On t) (filled : span.start < span.stop)
    (before after : Text) :
    ∃ lead body tail, t = lead ++ body ++ tail ∧ bytes lead = span.start ∧
      bytes (lead ++ body) = span.stop ∧
      applyAll? t [insertion span.start before, insertion span.stop after] =
        some (lead ++ before ++ (body ++ after ++ tail)) := by
  obtain ⟨lead, body, tail, rfl, start, stop⟩ := boundary_split on.start on.stop on.range
  have assembly : Assembly 0 (lead ++ [] ++ (body ++ [] ++ tail))
      [insertion span.start before, insertion span.stop after]
      (lead ++ before ++ (body ++ after ++ tail)) := by
    refine Assembly.cons ?_ rfl (Assembly.cons ?_ rfl Assembly.nil)
    · simp [insertion, Span.point, start]
    · rw [bytes_append, start] at stop
      exact stop.symm
  refine ⟨lead, body, tail, rfl, start, stop, ?_⟩
  have sorted : [insertion span.start before, insertion span.stop after].mergeSort goesFirst =
      [insertion span.stop after, insertion span.start before] := by
    have later : goesFirst (insertion span.start before) (insertion span.stop after) = false := by
      rw [Bool.eq_false_iff]
      intro first
      simp only [goesFirst, Bool.or_eq_true, decide_eq_true_eq, Bool.and_eq_true,
        beq_iff_eq] at first
      simp only [insertion, Span.point] at first
      omega
    simp [List.mergeSort, List.MergeSort.Internal.splitInTwo, later]
  rw [applyAll?, sorted]
  have applied := assembly_foldlM assembly [] rfl
  simpa using applied

end Splice

namespace Edit

variable {t p : Text} {e : Edit} {r : Record}

theorem wrap_apply (found : e.target (Document.read t) = .ok r) (kind : e.kind = .wrap)
    (payload : e.requiredPayload = .ok p) (name : isTagName p)
    (filled : r.outer.start < r.outer.stop) :
    ∃ lead body tail, t = lead ++ body ++ tail ∧ bytes lead = r.outer.start ∧
      bytes (lead ++ body) = r.outer.stop ∧
      e.apply t = .done (lead ++ ('<' :: p ++ ((e.attributes.getD []).flatMap fun c =>
        ' ' :: assignment c.1 c.2) ++ ['>']) ++ (body ++ ("</".toList ++ p ++ ['>']) ++ tail)) := by
  obtain ⟨lead, body, tail, split, start, stop, applied⟩ :=
    Splice.applyAll?_around (target_settled found).outer filled ('<' :: p ++
      ((e.attributes.getD []).flatMap fun c => ' ' :: assignment c.1 c.2) ++ ['>'])
      ("</".toList ++ p ++ ['>'])
  refine ⟨lead, body, tail, split, start, stop, ?_⟩
  simp only [apply, splices, found, kind, wrapSplices, payload, name, bind, Except.bind, pure,
    Except.pure, if_true]
  simp only [applied]
  rfl

/-- Where appended content goes, and what stands around it there. -/
theorem append_apply (found : e.target (Document.read t) = .ok r) (kind : e.kind = .append)
    (payload : e.requiredPayload = .ok p) (markup : (Document.read p).records ≠ []) :
    ∃ lead body tail, t = lead ++ body ++ tail ∧
      ((∃ inner, r.inner = some inner ∧ body = [] ∧ bytes lead = inner.stop ∧
          e.apply t = .done (lead ++ p ++ tail)) ∨
        (r.inner = none ∧ bytes lead = (selfClosingEnd t r).start ∧
          bytes (lead ++ body) = r.startTag.stop ∧
          e.apply t = .done (lead ++ ('>' :: p ++ "</".toList ++ r.tag ++ ['>']) ++ tail))) := by
  have settled := target_settled found
  have filled : (Document.read p).records.isEmpty = false := by simpa using markup
  have made : ∀ s, appendSplices t r e = .ok [s] → s.span.On t → ∃ lead body tail,
      t = lead ++ body ++ tail ∧ bytes lead = s.span.start ∧ bytes (lead ++ body) = s.span.stop ∧
      e.apply t = .done (lead ++ s.replacement ++ tail) := by
    intro s splices on
    obtain ⟨lead, body, tail, split, start, stop, applied⟩ := Splice.applyAll?_single on
    refine ⟨lead, body, tail, split, start, stop, ?_⟩
    simp only [apply, Edit.splices, found, kind, bind, Except.bind, splices, applied]
    rfl
  cases content : r.inner with
  | some inner =>
    have splices : appendSplices t r e = .ok [Splice.insertion inner.stop p] := by
      simp [appendSplices, payload, filled, content, bind, Except.bind, pure, Except.pure]
    obtain ⟨lead, body, tail, split, start, stop, applied⟩ :=
      made _ splices (Span.point_on (settled.inner inner content).1.stop)
    have empty : body = [] := by
      apply bytes_eq_zero
      simp only [Splice.insertion, Span.point, bytes_append] at start stop
      omega
    exact ⟨lead, body, tail, split, Or.inl ⟨inner, rfl, empty, start, applied⟩⟩
  | none =>
    obtain ⟨on, _, last⟩ := selfClosingEnd_settled settled
    have splices : appendSplices t r e = .ok [openUp t r p] := by
      simp [appendSplices, payload, filled, content, bind, Except.bind, pure, Except.pure]
    obtain ⟨lead, body, tail, split, start, stop, applied⟩ := made _ splices on
    exact ⟨lead, body, tail, split, Or.inr ⟨rfl, start, stop.trans last, applied⟩⟩

/-- A paragraph is wrapped in a tag, and then looked for in its new parent. -/
def paragraphEdits : List Edit :=
  [{ kind := .wrap, path := "/p", payload := some "br" },
    { kind := .update, path := "/br/p", payload := some "y" }]

/-- A void wrapper takes in nothing: the paragraph is read as its sibling, and is not found in it. -/
theorem void_wrapper_takes_in_nothing :
    applyAll "<p>x</p>" (paragraphEdits.take 1) = .done "<br><p>x</p></br>" ∧
      (Document.read "<br><p>x</p></br>").records.map (·.path) = ["/br[1]".toList, "/p[1]".toList] ∧
      applyAll "<p>x</p>" paragraphEdits = .failed (.elementNotFound "/br/p") := by
  have splices : splices "<p>x</p>" { kind := .wrap, path := "/p", payload := some "br" } =
      .ok [Splice.insertion 0 "<br>", Splice.insertion 8 "</br>"] := ok_of_toOption (by decide +kernel)
  have sorted : [Splice.insertion 0 "<br>", Splice.insertion 8 "</br>"].mergeSort Splice.goesFirst =
      [Splice.insertion 8 "</br>", Splice.insertion 0 "<br>"] := by
    simp [List.mergeSort, List.MergeSort.Internal.splitInTwo, Splice.goesFirst, Splice.insertion,
      Span.point]
  have wrapped : apply "<p>x</p>" { kind := .wrap, path := "/p", payload := some "br" } =
      .done "<br><p>x</p></br>" := by
    simp only [apply, splices, Splice.applyAll?, sorted]
    rfl
  have missed : apply "<br><p>x</p></br>" { kind := .update, path := "/br/p", payload := some "y" } =
      .failed (.elementNotFound "/br/p") := by
    decide +kernel
  refine ⟨?_, by decide +kernel, ?_⟩
  · simp only [applyAll, paragraphEdits, List.take, List.foldlM_cons, List.foldlM_nil, wrapped]
    rfl
  · simp only [applyAll, paragraphEdits, List.foldlM_cons, wrapped, bind, Outcome.bind, missed]

end Edit

end TemplateMarkup
