import TemplateMarkup.Edit.Basic
import TemplateMarkup.Proofs.Edit.Places

/-!
What an update touches. Its splices lie inside the element. They keep apart unless two changes are
about one attribute, and then the text around the element stays as it is.
-/
namespace TemplateMarkup

open Text

theorem Text.boundary_max {t : Text} {m n : Nat} (first : t.Boundary m) (second : t.Boundary n) :
    t.Boundary (max m n) := by
  rcases Nat.le_total m n with less | less
  · rw [Nat.max_eq_right less]
    exact second
  · rw [Nat.max_eq_left less]
    exact first

namespace Record

variable {t : Text} {r : Record}

/-- New attributes go after all others, inside the tag. -/
theorem insertPoint_settled (settled : r.Settled t) :
    t.Boundary r.insertPoint ∧ r.startTag.start ≤ r.insertPoint ∧
      r.insertPoint ≤ r.startTag.stop ∧ ∀ a ∈ r.attributes, a.span.stop ≤ r.insertPoint := by
  have name := Span.encloses_iff.mp settled.name_enclosed
  have range := settled.tagName.range
  unfold insertPoint
  cases last : r.attributes.getLast? with
  | none =>
    have none : r.attributes = [] := List.getLast?_eq_none_iff.mp last
    refine ⟨settled.tagName.stop, ?_, name.2, by simp [none]⟩
    show r.startTag.start ≤ r.tagName.stop
    omega
  | some a =>
    have member := List.mem_of_getLast? last
    obtain ⟨settledA, enclosed⟩ := settled.attributes a member
    rw [Span.encloses_iff] at enclosed
    have rangeA := settledA.on.range
    refine ⟨settledA.on.stop, ?_, enclosed.2, ?_⟩
    · show r.startTag.start ≤ a.span.stop
      omega
    · intro b memberB
      show b.span.stop ≤ a.span.stop
      obtain ⟨init, list⟩ := List.getLast?_eq_some_iff.mp last
      have ordered := settled.ordered
      rw [list] at memberB ordered
      rcases List.mem_append.mp memberB with early | same
      · have before := (List.pairwise_append.mp ordered).2.2 b early a (by simp)
        omega
      · exact Nat.le_of_eq (congrArg (·.span.stop) (List.mem_singleton.mp same))

/-- Two attributes of a tag are the same or lie apart. -/
theorem attributes_apart (settled : r.Settled t) {a b : Attribute} (memberA : a ∈ r.attributes)
    (memberB : b ∈ r.attributes) (different : a ≠ b) : a.span.Apart b.span := by
  have forward : r.attributes.Pairwise fun a b => a ≠ b → a.span.Apart b.span :=
    settled.ordered.imp fun before _ => Or.inl before
  have backward : r.attributes.Pairwise fun a b => b ≠ a → b.span.Apart a.span :=
    settled.ordered.imp fun before _ => Or.inr before
  exact List.Pairwise.forall_of_forall_of_flip (fun _ _ same => absurd rfl same) forward backward
    memberA memberB different

theorem attribute?_mem {name : Text} {a : Attribute} (found : r.attribute? name = some a) :
    a ∈ r.attributes := by
  unfold attribute? Attribute.find? at found
  rw [Option.orElse_eq_orElse, Option.orElse_eq_or] at found
  rcases Option.or_eq_some_iff.mp found with exact | ⟨_, folded⟩
  · exact List.mem_of_find?_eq_some exact
  · exact List.mem_of_find?_eq_some folded

end Record

namespace Edit

variable {t : Text} {r : Record}

theorem assign_span (a : Attribute) (v w : Text) : (assign a v).span = (assign a w).span := by
  unfold assign
  split <;> rfl

theorem assign_settled {a : Attribute} (settled : a.Settled t) (value : Text) :
    (assign a value).span.On t ∧ a.span.encloses (assign a value).span := by
  unfold assign
  split
  · rename_i span quote found _
    exact settled.value span found
  · exact ⟨settled.on, Span.encloses_refl a.span⟩

theorem apart_of_encloses {a b c d : Span} (apart : a.Apart b) (first : a.encloses c)
    (second : b.encloses d) : c.Apart d := by
  rw [Span.encloses_iff] at first second
  unfold Span.Apart at *
  omega

/-- Two assignments of attributes overlap only if they are about one attribute with a place that is
not empty. -/
theorem assign_apart_iff (settled : r.Settled t) {a b : Attribute} (memberA : a ∈ r.attributes)
    (memberB : b ∈ r.attributes) (v w : Text) :
    (assign a v).span.Apart (assign b w).span ↔ (a = b → (assign a v).span.isEmpty) := by
  obtain ⟨onA, enclosedA⟩ := assign_settled (settled.attributes a memberA).1 v
  obtain ⟨_, enclosedB⟩ := assign_settled (settled.attributes b memberB).1 w
  have range := onA.range
  by_cases same : a = b
  · subst same
    rw [assign_span a w v]
    simp only [Span.Apart, Span.isEmpty, beq_iff_eq, forall_const]
    omega
  · have apart := Record.attributes_apart settled memberA memberB same
    exact iff_of_true (apart_of_encloses apart enclosedA enclosedB) fun equal => absurd equal same

theorem lastOffset?_boundary {part s : Text} {n : Nat} (found : lastOffset? part s = some n) :
    s.Boundary n := by
  induction s generalizing n with
  | nil =>
    rw [lastOffset?] at found
    split at found
    · obtain rfl := Option.some.inj found
      exact boundary_bytes [] []
    · simp at found
  | cons c s ih =>
    rw [lastOffset?] at found
    split at found
    · rename_i m inner
      obtain rfl := Option.some.inj found
      obtain ⟨lead, rest, rfl, rfl⟩ := ih inner
      exact ⟨c :: lead, rest, rfl, by simp [Nat.add_comm]⟩
    · split at found
      · obtain rfl := Option.some.inj found
        exact boundary_bytes [] (c :: s)
      · simp at found

theorem slice_of_on {s : Span} (on : s.On t) :
    ∃ a b c, t = a ++ b ++ c ∧ bytes a = s.start ∧ bytes (a ++ b) = s.stop ∧ s.slice t = b := by
  obtain ⟨a, b, c, split, start, stop⟩ := boundary_split on.start on.stop on.range
  refine ⟨a, b, c, split, start, stop, ?_⟩
  have slice := slice?_append a b c
  rw [← List.append_assoc, ← split, ← bytes_append, start, stop] at slice
  rw [Span.slice, Text.slice, slice, Option.getD_some]

/-- The end of a tag that closes itself comes after its attributes. -/
theorem selfClosingEnd_settled (settled : r.Settled t) :
    (selfClosingEnd t r).On t ∧ r.insertPoint ≤ (selfClosingEnd t r).start ∧
      (selfClosingEnd t r).stop = r.startTag.stop := by
  obtain ⟨boundary, _, inside, _⟩ := Record.insertPoint_settled settled
  obtain ⟨a, b, c, split, start, stop, slice⟩ := slice_of_on settled.startTag
  -- the slash, or else the end of the tag, lies between characters
  have slash : ∀ n, n = ((lastOffset? "/>" (r.startTag.slice t)).map (r.startTag.start + ·)).getD
      r.startTag.stop → t.Boundary n ∧ n ≤ r.startTag.stop := by
    intro n same
    cases found : lastOffset? "/>" (r.startTag.slice t) with
    | none =>
      rw [found] at same
      exact same ▸ ⟨settled.startTag.stop, Nat.le_refl _⟩
    | some m =>
      rw [found] at same
      have equal : n = r.startTag.start + m := same
      obtain ⟨lead, rest, inner, size⟩ := lastOffset?_boundary found
      rw [slice] at inner
      subst inner
      rw [bytes_append, bytes_append] at stop
      refine ⟨⟨a ++ lead, rest ++ c, by simp [split], ?_⟩, by omega⟩
      rw [bytes_append, start, size, equal]
  unfold selfClosingEnd
  dsimp only
  generalize ((lastOffset? "/>" (r.startTag.slice t)).map (r.startTag.start + ·)).getD
    r.startTag.stop = n at slash
  obtain ⟨cut, bound⟩ := slash n rfl
  -- without the blanks before it, the text up to there is a shorter one
  have trimmed : t.Boundary (bytes (trimEnd (Text.slice t 0 n))) ∧
      bytes (trimEnd (Text.slice t 0 n)) ≤ n := by
    obtain ⟨lead, rest, split, size⟩ := cut
    have whole := slice?_append [] lead rest
    rw [List.nil_append, ← split, bytes_nil, Nat.zero_add, size] at whole
    rw [Text.slice, whole, Option.getD_some]
    have parts : trimEnd lead ++ (lead.reverse.takeWhile isBlank).reverse = lead := by
      rw [trimEnd, ← List.reverse_append, List.takeWhile_append_dropWhile, List.reverse_reverse]
    refine ⟨⟨trimEnd lead, (lead.reverse.takeWhile isBlank).reverse ++ rest, ?_, rfl⟩, ?_⟩
    · rw [← List.append_assoc, parts, split]
    · have sizes := congrArg bytes parts
      rw [bytes_append] at sizes
      omega
  exact ⟨⟨Nat.max_le.mpr ⟨Nat.le_trans trimmed.2 bound, inside⟩, boundary_max trimmed.1 boundary,
    settled.startTag.stop⟩, Nat.le_max_right _ _, rfl⟩

/-- New content goes after the attributes and inside the element. -/
theorem setContent_settled (settled : r.Settled t) (content : Text) :
    (setContent t r content).span.On t ∧ r.insertPoint ≤ (setContent t r content).span.start ∧
      (setContent t r content).span.stop ≤ r.outer.stop := by
  obtain ⟨_, _, inside, _⟩ := Record.insertPoint_settled settled
  have tag := Span.encloses_iff.mp settled.tag_enclosed
  unfold setContent
  split
  · rename_i inner found
    obtain ⟨on, start, stop⟩ := settled.inner inner found
    exact ⟨on, start ▸ inside, stop⟩
  · obtain ⟨on, start, stop⟩ := selfClosingEnd_settled settled
    exact ⟨on, start, stop ▸ tag.2⟩

/-- The splices of an update in order: attributes with new values, new attributes, new content. -/
theorem updateSplices_eq (t : Text) (r : Record) (e : Edit) : ∃ added : List Splice,
    (∀ s ∈ added, s.span = Span.point r.insertPoint) ∧ added.length ≤ 1 ∧
      updateSplices t r e =
        ((e.attributes.getD []).filterMap fun c => (r.attribute? c.1).map fun a => assign a c.2) ++
          (added ++ (e.payload.map (setContent t r)).toList) := by
  unfold updateSplices setAttributes
  dsimp only
  split
  · exact ⟨[], by simp, by simp, by simp⟩
  · refine ⟨[_], ?_, by simp, List.append_assoc _ _ _⟩
    intro s member
    rw [List.mem_singleton.mp member]
    rfl

theorem mem_changed {changes : List (Text × Text)} {s : Splice}
    (member : s ∈ changes.filterMap fun c => (r.attribute? c.1).map fun a => assign a c.2) :
    ∃ a ∈ r.attributes, ∃ value, s = assign a value := by
  obtain ⟨c, _, found⟩ := List.mem_filterMap.mp member
  obtain ⟨a, resolved, rfl⟩ := Option.map_eq_some_iff.mp found
  exact ⟨a, Record.attribute?_mem resolved, c.2, rfl⟩

/-- Every splice of an update lies inside the element. -/
theorem updateSplices_settled (settled : r.Settled t) (e : Edit) :
    ∀ s ∈ updateSplices t r e, s.span.On t ∧ r.outer.encloses s.span := by
  intro s member
  obtain ⟨added, point, _, same⟩ := updateSplices_eq t r e
  obtain ⟨boundary, low, inside, _⟩ := Record.insertPoint_settled settled
  have tag := Span.encloses_iff.mp settled.tag_enclosed
  rw [same] at member
  rcases List.mem_append.mp member with changed | rest
  · obtain ⟨a, memberA, value, rfl⟩ := mem_changed changed
    obtain ⟨settledA, enclosed⟩ := settled.attributes a memberA
    obtain ⟨on, inner⟩ := assign_settled settledA value
    exact ⟨on, Span.encloses_trans settled.tag_enclosed (Span.encloses_trans enclosed inner)⟩
  · rcases List.mem_append.mp rest with new | content
    · rw [point s new, Span.encloses_iff]
      refine ⟨Span.point_on boundary, ?_⟩
      simp only [Span.point]
      omega
    · obtain ⟨payload, _, rfl⟩ := Option.map_eq_some_iff.mp (Option.mem_toList.mp content)
      obtain ⟨on, start, stop⟩ := setContent_settled settled payload
      exact ⟨on, Span.encloses_iff.mpr ⟨by omega, stop⟩⟩

/-- Splices of an update overlap only where two changes are about one attribute. -/
theorem updateSplices_apart_iff (settled : r.Settled t) (e : Edit) :
    ((updateSplices t r e).Pairwise fun a b => a.span.Apart b.span) ↔
      (e.attributes.getD []).Pairwise fun c d => ∀ a, r.attribute? c.1 = some a →
        r.attribute? d.1 = some a → (assign a c.2).span.isEmpty := by
  obtain ⟨added, point, single, same⟩ := updateSplices_eq t r e
  obtain ⟨_, _, inside, after⟩ := Record.insertPoint_settled settled
  have tail : (added ++ (e.payload.map (setContent t r)).toList).Pairwise
      fun a b => a.span.Apart b.span := by
    refine List.pairwise_append.mpr ⟨?_, ?_, ?_⟩
    · match added, single with
      | [], _ => exact List.Pairwise.nil
      | [s], _ => exact List.pairwise_singleton _ s
    · cases e.payload with
      | none => exact List.Pairwise.nil
      | some payload => exact List.pairwise_singleton _ _
    · intro s new u content
      obtain ⟨payload, _, rfl⟩ := Option.map_eq_some_iff.mp (Option.mem_toList.mp content)
      rw [point s new]
      exact Or.inl (setContent_settled settled payload).2.1
  have across : ∀ s ∈ ((e.attributes.getD []).filterMap fun c =>
        (r.attribute? c.1).map fun a => assign a c.2),
      ∀ u ∈ added ++ (e.payload.map (setContent t r)).toList, s.span.Apart u.span := by
    intro s changed u rest
    obtain ⟨a, memberA, value, rfl⟩ := mem_changed changed
    have enclosed := (assign_settled (settled.attributes a memberA).1 value).2
    rw [Span.encloses_iff] at enclosed
    have last := after a memberA
    left
    rcases List.mem_append.mp rest with new | content
    · rw [point u new]
      simp only [Span.point]
      omega
    · obtain ⟨payload, _, rfl⟩ := Option.map_eq_some_iff.mp (Option.mem_toList.mp content)
      have start := (setContent_settled settled payload).2.1
      omega
  rw [same, List.pairwise_append, List.pairwise_filterMap]
  constructor
  · rintro ⟨pairs, _, _⟩
    refine pairs.imp ?_
    intro c d apart a foundC foundD
    have member := Record.attribute?_mem foundC
    exact (assign_apart_iff settled member member c.2 d.2).mp
      (apart _ (by simp [foundC]) _ (by simp [foundD])) rfl
  · intro distinct
    refine ⟨distinct.imp ?_, tail, across⟩
    intro c d once s foundS u foundU
    obtain ⟨a, foundA, rfl⟩ := Option.map_eq_some_iff.mp foundS
    obtain ⟨b, foundB, rfl⟩ := Option.map_eq_some_iff.mp foundU
    refine (assign_apart_iff settled (Record.attribute?_mem foundA) (Record.attribute?_mem foundB)
      c.2 d.2).mpr ?_
    intro equal
    exact once a foundA (equal ▸ foundB)

theorem target_settled {e : Edit} (found : e.target (Document.read t) = .ok r) : r.Settled t := by
  unfold target at found
  cases selected : (Document.read t).selectText e.path with
  | error error => simp [selected, bind, Except.bind] at found
  | ok indices =>
    simp only [selected, bind, Except.bind] at found
    split at found
    · rename_i record first
      obtain rfl := Except.ok.inj found
      obtain ⟨i, _, recorded⟩ := Option.bind_eq_some_iff.mp first
      exact Document.read_settled recorded
    · simp at found

theorem ok_of_toOption {α : Type} {x : Except Error α} {a : α} (found : x.toOption = some a) :
    x = .ok a := by
  cases x with
  | error => simp [Except.toOption] at found
  | ok b => rw [Option.some.inj found]

/-- An update of an element that is found touches nothing outside of it, unless two of its changes
are about one attribute: the splices lie inside the element, and they keep apart exactly if no
attribute with anything to replace is changed twice. Then the edit is made, and the text before and
after the element stays. -/
theorem update_keeps_surroundings (t : Text) (e : Edit) (r : Record) (kind : e.kind = .update)
    (found : e.target (Document.read t) = .ok r) :
    (∀ s ∈ updateSplices t r e, r.outer.encloses s.span) ∧
      (((updateSplices t r e).Pairwise fun a b => a.span.Apart b.span) ↔
        (e.attributes.getD []).Pairwise fun c d => ∀ a, r.attribute? c.1 = some a →
          r.attribute? d.1 = some a → (assign a c.2).span.isEmpty) ∧
      (((updateSplices t r e).Pairwise fun a b => a.span.Apart b.span) →
        ∃ lead body tail middle, t = lead ++ body ++ tail ∧ bytes lead = r.outer.start ∧
          bytes (lead ++ body) = r.outer.stop ∧ e.apply t = .done (lead ++ middle ++ tail)) := by
  have settled := target_settled found
  have inside := updateSplices_settled settled e
  refine ⟨fun s member => (inside s member).2, updateSplices_apart_iff settled e, ?_⟩
  intro apart
  obtain ⟨lead, body, tail, split, start, stop, _⟩ := slice_of_on settled.outer
  obtain ⟨result, assembly, applied⟩ :=
    Splice.applyAll?_assembly (fun s member => (inside s member).1) apart
  have enclosed : ∀ s ∈ ((updateSplices t r e).mergeSort Splice.goesFirst).reverse,
      r.outer.start ≤ s.span.start ∧ s.span.stop ≤ r.outer.stop := by
    intro s member
    rw [List.mem_reverse, List.mem_mergeSort] at member
    exact Span.encloses_iff.mp (inside s member).2
  obtain ⟨middle, rfl⟩ := Splice.assembly_outside lead body assembly split
    (fun s member => by
      have := (enclosed s member).1
      omega)
    (fun s member => by
      have := (enclosed s member).2
      omega)
  refine ⟨lead, body, tail, middle, split, start, stop, ?_⟩
  have splices : e.splices t = .ok (updateSplices t r e) := by
    simp only [Edit.splices, found, kind, bind, Except.bind, pure, Except.pure]
  simp only [Edit.apply, splices, applied]
  rfl

/-- The link of `<a x='1'/> b`. -/
def link : Record :=
  { tag := "a", path := "/a[1]", line := 1
    attributes := [{ name := "x", value := some "1", span := ⟨3, 8⟩, nameSpan := ⟨3, 4⟩
                     valueSpan := some ⟨6, 7⟩, quote := some '\x27' }]
    parent := none, children := [], subtreeEnd := 1
    outer := ⟨0, 10⟩, startTag := ⟨0, 10⟩, tagName := ⟨1, 2⟩
    inner := none, selfClosing := true, innerText := [] }

def linkUpdate : Edit :=
  { kind := .update, path := "/a", payload := some "z"
    attributes := some [("X", "v"), ("c", "w")] }

theorem link_keeps_surroundings :
    linkUpdate.target (Document.read "<a x='1'/> b") = .ok link ∧
      ∃ lead body tail middle, ("<a x='1'/> b" : Text) = lead ++ body ++ tail ∧
        bytes lead = link.outer.start ∧ bytes (lead ++ body) = link.outer.stop ∧
        linkUpdate.apply "<a x='1'/> b" = .done (lead ++ middle ++ tail) := by
  have found : linkUpdate.target (Document.read "<a x='1'/> b") = .ok link :=
    ok_of_toOption (by decide +kernel)
  have apart : (updateSplices "<a x='1'/> b" link linkUpdate).Pairwise
      fun a b => a.span.Apart b.span := by decide +kernel
  exact ⟨found, (update_keeps_surroundings _ linkUpdate link rfl found).2.2 apart⟩

/-- Two changes that are about the one attribute of `<a x="1234567"/> tail`. -/
def doubledUpdate : Edit :=
  { kind := .update, path := "/a", attributes := some [("X", "v"), ("x", "v")] }

theorem doubledUpdate_eats_tail :
    doubledUpdate.apply "<a x=\"1234567\"/> tail" = .done "<a x=\"vil".toList ∧
      " tail".toList.isSuffixOf "<a x=\"vil".toList = false := by
  have splices : doubledUpdate.splices "<a x=\"1234567\"/> tail" =
      .ok [⟨⟨6, 13⟩, "v"⟩, ⟨⟨6, 13⟩, "v"⟩] := ok_of_toOption (by decide +kernel)
  have sorted : ([⟨⟨6, 13⟩, "v"⟩, ⟨⟨6, 13⟩, "v"⟩] : List Splice).mergeSort Splice.goesFirst =
      [⟨⟨6, 13⟩, "v"⟩, ⟨⟨6, 13⟩, "v"⟩] := List.mergeSort_of_pairwise (by decide)
  refine ⟨?_, by decide⟩
  simp only [apply, splices, Splice.applyAll?, sorted]
  rfl

end Edit

end TemplateMarkup
