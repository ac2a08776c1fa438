import Mathlib.Data.List.Perm.Basic
import TemplateMarkup.Edit.Merge
import TemplateMarkup.Proofs.Edit.Solid
import TemplateMarkup.Proofs.Order

/-!
The text after a merge. The splices for all elements are applied at once. In a text that lacks nothing those
for one element stay inside of its opening tag, so the tags change one by one, each as an update of the
attributes would change it, and the text between them stays.
-/
namespace TemplateMarkup

open Text Markup

namespace Edit

variable {t : Text} {r : Record} {changes : List (Text × Text)}

def newTag (t : Text) (r : Record) (changes : List (Text × Text)) : Text :=
  attributesText t r changes r.startTag.start r.attributes ++
    slice t ((r.attributes.getLast?.map (·.span.stop)).getD r.startTag.start) r.insertPoint ++
    freshText r changes ++ slice t r.insertPoint r.startTag.stop

/-- An element of the text with changes of which no two name one attribute. -/
structure Ready (t : Text) (r : Record) (changes : List (Text × Text)) : Prop where
  settled : r.Settled t
  solid : r.Solid
  distinct : changes.Pairwise fun c d => ¬equalsFold c.1 d.1

def tagSplices (r : Record) (changes : List (Text × Text)) : List Splice :=
  (changed r changes r.attributes).map (fun p => assign p.1 p.2) ++ insertions r changes

theorem updateSplices_attributes {e : Edit} (attributes : e.attributes = some changes)
    (payload : e.payload = none) : updateSplices t r e = setAttributes r changes := by
  simp [updateSplices, attributes, payload]

theorem placedSplices_attributes {e : Edit} (attributes : e.attributes = some changes)
    (payload : e.payload = none) : placedSplices t r e = tagSplices r changes := by
  simp [placedSplices, tagSplices, attributes, payload]

theorem tagSplices_perm (ready : Ready t r changes) :
    (tagSplices r changes).Perm (setAttributes r changes) := by
  have perm := placedSplices_perm t { kind := .update, path := [], attributes := some changes }
    (solid_nodup ready.settled ready.solid) ready.distinct
  rwa [updateSplices_attributes rfl rfl, placedSplices_attributes rfl rfl] at perm

theorem tagSplices_ordered (ready : Ready t r changes) :
    (tagSplices r changes).Pairwise Splice.Precedes := by
  have ordered := solid_ordered ready.settled ready.solid
    { kind := .update, path := [], attributes := some changes }
  rwa [placedSplices_attributes rfl rfl] at ordered

/-- The splices of a tag lie in the tag and start before its end. -/
theorem tagSplices_inside (ready : Ready t r changes) : ∀ s ∈ tagSplices r changes, s.span.On t ∧
    r.startTag.start ≤ s.span.start ∧ s.span.stop ≤ r.startTag.stop ∧
      s.span.start < r.startTag.stop := by
  intro s member
  obtain ⟨boundary, low, high, -⟩ := Record.insertPoint_settled ready.settled
  rcases List.mem_append.mp member with value | new
  · obtain ⟨p, inside, rfl⟩ := List.mem_map.mp value
    have listed := changed_mem inside
    obtain ⟨settled, inTag⟩ := ready.settled.attributes p.1 listed
    obtain ⟨on, inAttribute⟩ := assign_settled settled p.2
    rw [Span.encloses_iff] at inTag inAttribute
    have filled := ready.solid.filled p.1 listed p.2
    exact ⟨on, by omega, by omega, by omega⟩
  · rw [insertions_point s new]
    exact ⟨Span.point_on boundary, low, high, ready.solid.closed⟩

theorem weave_insertions {n : Nat} {rest : List Splice} (settled : r.Settled t) (start : t.Boundary n)
    (before : n ≤ r.insertPoint)
    (after : ∀ s ∈ rest, s.span.On t ∧ r.startTag.stop ≤ s.span.start) :
    Splice.weave t n (insertions r changes ++ rest) =
      slice t n r.insertPoint ++ freshText r changes ++ slice t r.insertPoint r.startTag.stop ++
        Splice.weave t r.startTag.stop rest := by
  obtain ⟨boundary, -, high, -⟩ := Record.insertPoint_settled settled
  have on := fun s member => (after s member).1
  have behind := fun s member => (after s member).2
  have ending := Splice.weave_advance boundary settled.startTag.stop high on behind
  unfold insertions
  split
  · rename_i empty
    have skip := Splice.weave_advance start boundary before on
      fun s member => Nat.le_trans high (behind s member)
    rw [List.nil_append, List.isEmpty_iff.mp empty, skip, ending]
    simp
  · rw [List.singleton_append, Splice.weave]
    show slice t n r.insertPoint ++ freshText r changes ++ Splice.weave t r.insertPoint rest = _
    rw [ending]
    simp

theorem weave_tagSplices (ready : Ready t r changes) {rest : List Splice}
    (after : ∀ s ∈ rest, s.span.On t ∧ r.startTag.stop ≤ s.span.start) :
    Splice.weave t r.startTag.start (tagSplices r changes ++ rest) =
      newTag t r changes ++ Splice.weave t r.startTag.stop rest := by
  have settled := ready.settled
  obtain ⟨boundary, low, high, last⟩ := Record.insertPoint_settled settled
  have tail : ∀ s ∈ insertions r changes ++ rest, s.span.On t ∧ r.insertPoint ≤ s.span.start := by
    intro s member
    rcases List.mem_append.mp member with new | further
    · rw [insertions_point s new]
      exact ⟨Span.point_on boundary, Nat.le_refl _⟩
    · exact ⟨(after s further).1, Nat.le_trans high (after s further).2⟩
  have inTag : ∀ a ∈ r.attributes, r.startTag.start ≤ a.span.start := fun a member =>
    (Span.encloses_iff.mp (settled.attributes a member).2).1
  have attributes := weave_attributes r changes settled.startTag.start
    (fun a member => (settled.attributes a member).1) inTag settled.ordered
    (fun s member => (tail s member).1)
    (fun a member s further => Nat.le_trans (last a member) (tail s further).2)
  have reached : t.Boundary ((r.attributes.getLast?.map (·.span.stop)).getD r.startTag.start) ∧
      (r.attributes.getLast?.map (·.span.stop)).getD r.startTag.start ≤ r.insertPoint := by
    cases found : r.attributes.getLast? with
    | none => exact ⟨settled.startTag.start, low⟩
    | some a =>
      have member := List.mem_of_getLast? found
      exact ⟨(settled.attributes a member).1.on.stop, last a member⟩
  rw [tagSplices, List.append_assoc, attributes, weave_insertions settled reached.1 reached.2 after, newTag]
  simp

/-- Changes in several tags change each tag, however their splices are listed. -/
theorem applyAll?_tags {xs : List (Record × List (Text × Text))} {ss : List Splice}
    (ready : ∀ x ∈ xs, Ready t x.1 x.2)
    (ordered : xs.Pairwise fun x y => x.1.startTag.stop ≤ y.1.startTag.start)
    (same : (xs.flatMap fun x => setAttributes x.1 x.2).Perm ss) :
    Splice.applyAll? t ss =
      some (Splice.weave t 0 (xs.map fun x => ⟨x.1.startTag, newTag t x.1 x.2⟩)) := by
  have perm : (xs.flatMap fun x => tagSplices x.1 x.2).Perm ss :=
    (List.Perm.flatMap_left xs fun x member => tagSplices_perm (ready x member)).trans same
  have inside := fun x member => tagSplices_inside (ready x member)
  have on : ∀ s ∈ xs.flatMap fun x => tagSplices x.1 x.2, s.span.On t := by
    intro s member
    obtain ⟨x, listed, part⟩ := List.mem_flatMap.mp member
    exact (inside x listed s part).1
  have precede : (xs.flatMap fun x => tagSplices x.1 x.2).Pairwise Splice.Precedes := by
    refine List.pairwise_flatMap.mpr ⟨fun x member => tagSplices_ordered (ready x member), ?_⟩
    refine ordered.imp_of_mem ?_
    intro x y memberX memberY before s partS u partU
    obtain ⟨-, -, stop, start⟩ := inside x memberX s partS
    obtain ⟨onU, low, -, -⟩ := inside y memberY u partU
    have range := onU.range
    unfold Splice.Precedes
    omega
  have woven : Splice.weave t 0 (xs.flatMap fun x => tagSplices x.1 x.2) =
      Splice.weave t 0 (xs.map fun x => ⟨x.1.startTag, newTag t x.1 x.2⟩) := by
    refine Splice.weave_groups ⟨[], t, rfl, rfl⟩ ?_ ordered (fun _ _ => Nat.zero_le _) ?_ ?_
    · intro x member
      exact (ready x member).settled.startTag
    · intro x member s part
      exact ⟨(inside x member s part).1, (inside x member s part).2.1⟩
    · intro x member rest after
      exact weave_tagSplices (ready x member) after
  rw [Splice.applyAll?_weave perm on precede, woven]

theorem update_tag {e : Edit} (ready : Ready t r changes) (kind : e.kind = .update)
    (attributes : e.attributes = some changes) (payload : e.payload = none)
    (found : e.target (Document.read t) = .ok r) :
    e.apply t = .done (Splice.weave t 0 [⟨r.startTag, newTag t r changes⟩]) := by
  have splices : e.splices t = .ok (setAttributes r changes) := by
    simp only [Edit.splices, found, kind, updateSplices_attributes attributes payload, bind, Except.bind,
      pure, Except.pure]
  have single : ∀ x ∈ [(r, changes)], Ready t x.1 x.2 := by simpa using ready
  have same : ([(r, changes)].flatMap fun x => setAttributes x.1 x.2).Perm (setAttributes r changes) := by
    simp
  have applied := applyAll?_tags single (List.pairwise_singleton _ _) same
  simp only [Edit.apply, splices, applied]
  rfl

end Edit

namespace MergeOptions

variable {o : MergeOptions} {design : Document} {r d : Record}

/-- The element has an id that is not empty, and an element of the design has the same. -/
def shared (o : MergeOptions) (design : Document) (r : Record) : Bool :=
  (r.attributeValue? o.idAttribute).any fun id =>
    !id.isEmpty && design.records.any fun d => d.attributeValue? o.idAttribute == some id

/-- The second element is the last one of the design with the id of the first, which is not empty. -/
def Supplies (o : MergeOptions) (design : Document) (r d : Record) : Prop :=
  ∃ id before after, r.attributeValue? o.idAttribute = some id ∧ id ≠ [] ∧
    design.records = before ++ d :: after ∧ d.attributeValue? o.idAttribute = some id ∧
    ∀ x ∈ after, x.attributeValue? o.idAttribute ≠ some id

/-- The element of the design that passes its looks on to an element. -/
def supplier? (o : MergeOptions) (design : Document) (r : Record) : Option Record :=
  (r.attributeValue? o.idAttribute).bind (o.findDesign? design)

theorem supplies_of_supplier? (found : o.supplier? design r = some d) : o.Supplies design r d := by
  obtain ⟨id, own, found⟩ := Option.bind_eq_some_iff.mp found
  unfold findDesign? at found
  split at found
  · cases found
  · rename_i filled
    obtain ⟨has, after, before, parts, others⟩ := List.find?_eq_some_iff_append.mp found
    refine ⟨id, before.reverse, after.reverse, own, by simpa using filled, ?_, by simpa using has, ?_⟩
    · rw [← List.reverse_reverse design.records, parts]
      simp
    · intro x member
      simpa using others x (List.mem_reverse.mp member)

theorem supplier?_isSome (o : MergeOptions) (design : Document) (r : Record) :
    (o.supplier? design r).isSome = o.shared design r := by
  unfold supplier? shared
  cases r.attributeValue? o.idAttribute with
  | none => rfl
  | some id =>
    simp only [Option.bind_some, Option.any_some, findDesign?]
    cases id.isEmpty with
    | true => rfl
    | false =>
      rw [Bool.eq_iff_iff, if_neg Bool.false_ne_true, List.find?_isSome]
      simp

theorem splices?_eq (o : MergeOptions) (design : Document) (r : Record) :
    o.splices? design r = (o.supplier? design r).map fun d => Edit.setAttributes r (o.changes d) := by
  unfold splices? supplier?
  cases r.attributeValue? o.idAttribute <;> rfl

/-- The elements with a match, each with the element that supplies it. -/
def pairs (o : MergeOptions) (design : Document) (rs : List Record) : List (Record × Record) :=
  rs.filterMap fun r => (o.supplier? design r).map fun d => (r, d)

theorem pairs_fst (o : MergeOptions) (design : Document) (rs : List Record) :
    (o.pairs design rs).map (·.1) = rs.filter (o.shared design) := by
  induction rs with
  | nil => rfl
  | cons r rs ih =>
    have matched := supplier?_isSome o design r
    unfold pairs at ih ⊢
    cases found : o.supplier? design r with
    | none =>
      rw [found] at matched
      rw [List.filterMap_cons_none (by rw [found]; rfl), List.filter_cons_of_neg (by simp [← matched]), ih]
    | some d =>
      rw [found] at matched
      rw [List.filterMap_cons_some (by rw [found]; rfl), List.filter_cons_of_pos (by rw [← matched]; rfl),
        List.map_cons, ih]

theorem mem_pairs {rs : List Record} {p : Record × Record} (member : p ∈ o.pairs design rs) :
    p.1 ∈ rs ∧ o.supplier? design p.1 = some p.2 := by
  obtain ⟨r, listed, found⟩ := List.mem_filterMap.mp member
  obtain ⟨d, supplied, rfl⟩ := Option.map_eq_some_iff.mp found
  exact ⟨listed, supplied⟩

theorem splices_eq (o : MergeOptions) (design : Document) (rs : List Record) :
    rs.filterMap (o.splices? design) =
      (o.pairs design rs).map fun p => Edit.setAttributes p.1 (o.changes p.2) := by
  unfold pairs
  rw [List.map_filterMap]
  simp only [splices?_eq, Option.map_map, Function.comp_def]

theorem changes_spec (o : MergeOptions) (d : Record) :
    ((o.changes d).Pairwise fun b c => Text.lt b.1 c.1) ∧
      ∀ c, c ∈ o.changes d ↔ c.1 ∈ o.attributes ∧ d.attributeValue? c.1 = some c.2 := by
  have listed : ∀ c,
      c ∈ (o.attributes.filterMap fun name => (d.attributeValue? name).map fun v => (name, v)) ↔
        c.1 ∈ o.attributes ∧ d.attributeValue? c.1 = some c.2 := by
    rintro ⟨name, value⟩
    simp
  obtain ⟨ordered, members⟩ := ofNamed_spec fun b memberB c memberC same => by
    have valueB := ((listed b).mp memberB).2
    have valueC := ((listed c).mp memberC).2
    rw [same, valueC] at valueB
    exact Prod.ext same (Option.some.inj valueB).symm
  exact ⟨ordered, fun c => (members c).trans (listed c)⟩

theorem changes_distinct (distinct : o.attributes.Pairwise fun m n => m = n ∨ ¬equalsFold m n)
    (d : Record) : (o.changes d).Pairwise fun b c => ¬equalsFold b.1 c.1 := by
  obtain ⟨ordered, members⟩ := changes_spec o d
  have backward : o.attributes.Pairwise fun m n => n = m ∨ ¬equalsFold n m := by
    refine distinct.imp ?_
    rintro m n (same | differs)
    · exact Or.inl same.symm
    · exact Or.inr (by rwa [equalsFold, BEq.comm])
  refine ordered.imp_of_mem ?_
  intro b c memberB memberC less
  have reflexive : ∀ m ∈ o.attributes, m = m ∨ ¬equalsFold m m := fun _ _ => Or.inl rfl
  rcases List.Pairwise.forall_of_forall_of_flip reflexive distinct backward
    ((members b).mp memberB).1 ((members c).mp memberC).1 with same | differs
  · rw [same, lt_order.irrefl] at less
    cases less
  · exact differs

/-- The elements with a match from left to right. -/
theorem exists_placed (o : MergeOptions) (design : Document) (t : Text) :
    ∃ placed : List (Record × Record), placed.Perm (o.pairs design (Document.read t).records) ∧
      placed.Pairwise fun p q => p.1.startTag.stop ≤ q.1.startTag.start := by
  have on : ∀ p ∈ o.pairs design (Document.read t).records, p.1.startTag.On t := fun p member =>
    (Document.settled_of_mem (mem_pairs member).1).startTag
  refine Splice.exists_ascending (fun p : Record × Record => p.1.startTag) on ?_
  refine List.pairwise_filterMap.mpr ((Document.read_tags_apart t).imp ?_)
  intro r s apart p foundP q foundQ
  obtain ⟨d, -, rfl⟩ := Option.map_eq_some_iff.mp foundP
  obtain ⟨e, -, rfl⟩ := Option.map_eq_some_iff.mp foundQ
  exact apart

theorem applyAll?_pairs {t : Text} {placed pairs : List (Record × Record)} (same : placed.Perm pairs)
    (ordered : placed.Pairwise fun p q => p.1.startTag.stop ≤ q.1.startTag.start)
    (ready : ∀ p ∈ placed, Edit.Ready t p.1 (o.changes p.2)) :
    Splice.applyAll? t (pairs.map fun p => Edit.setAttributes p.1 (o.changes p.2)).flatten =
      some (Splice.weave t 0
        (placed.map fun p => ⟨p.1.startTag, Edit.newTag t p.1 (o.changes p.2)⟩)) := by
  have tags : ∀ x ∈ placed.map fun p => (p.1, o.changes p.2), Edit.Ready t x.1 x.2 := by
    intro x member
    obtain ⟨p, listed, rfl⟩ := List.mem_map.mp member
    exact ready p listed
  have pooled : ((placed.map fun p => (p.1, o.changes p.2)).flatMap fun x =>
      Edit.setAttributes x.1 x.2).Perm
        (pairs.map fun p => Edit.setAttributes p.1 (o.changes p.2)).flatten := by
    rw [List.flatMap_map, ← List.flatMap_def]
    exact same.flatMap_right _
  rw [Edit.applyAll?_tags tags (List.pairwise_map.mpr ordered) pooled, List.map_map]
  rfl

/-- What a merge does to a text that lacks nothing, if the attribute for ids is not blank and no two of the
attributes to merge are the same up to case only: each element with an id that the design has as well gets a
new opening tag, the one that an update makes with the values of the last such element of the design; the
result tells how many there are; and the rest of the text stays. -/
theorem merge_exact (o : MergeOptions) (logic design : Text)
    (named : (trim o.idAttribute).isEmpty = false)
    (distinct : o.attributes.Pairwise fun m n => m = n ∨ ¬equalsFold m n)
    (present : (Node.read logic).Present) :
    ∃ placed : List (Record × Record),
      (placed.map (·.1)).Perm
          ((Document.read logic).records.filter (o.shared (Document.read design))) ∧
        (placed.Pairwise fun p q => p.1.startTag.stop ≤ q.1.startTag.start) ∧
        (∀ p ∈ placed, p.1.startTag.On logic ∧ o.Supplies (Document.read design) p.1 p.2 ∧
          ((o.changes p.2).Pairwise fun b c => Text.lt b.1 c.1) ∧
          (∀ c, c ∈ o.changes p.2 ↔ c.1 ∈ o.attributes ∧ p.2.attributeValue? c.1 = some c.2) ∧
          ∀ e : Edit, e.kind = .update → e.attributes = some (o.changes p.2) → e.payload = none →
            e.target (Document.read logic) = .ok p.1 →
            e.apply logic = .done (Splice.weave logic 0
              [⟨p.1.startTag, Edit.newTag logic p.1 (o.changes p.2)⟩])) ∧
        o.merge logic design = .done
          { content := Splice.weave logic 0
              (placed.map fun p => ⟨p.1.startTag, Edit.newTag logic p.1 (o.changes p.2)⟩)
            merged :=
              ((Document.read logic).records.filter (o.shared (Document.read design))).length } := by
  obtain ⟨placed, same, ordered⟩ := exists_placed o (Document.read design) logic
  have listed : ∀ p ∈ placed, p.1 ∈ (Document.read logic).records ∧
      o.supplier? (Document.read design) p.1 = some p.2 :=
    fun p member => mem_pairs (same.mem_iff.mp member)
  have ready : ∀ p ∈ placed, Edit.Ready logic p.1 (o.changes p.2) := fun p member =>
    ⟨Document.settled_of_mem (listed p member).1, Document.read_solid present (listed p member).1,
      changes_distinct distinct p.2⟩
  have elements : (placed.map (·.1)).Perm
      ((Document.read logic).records.filter (o.shared (Document.read design))) := by
    rw [← pairs_fst]
    exact same.map _
  refine ⟨placed, elements, ordered, ?_, ?_⟩
  · intro p member
    obtain ⟨sorted, members⟩ := changes_spec o p.2
    exact ⟨(ready p member).settled.startTag, supplies_of_supplier? (listed p member).2, sorted, members,
      fun e => Edit.update_tag (ready p member)⟩
  · have count : (o.pairs (Document.read design) (Document.read logic).records).length =
        ((Document.read logic).records.filter (o.shared (Document.read design))).length := by
      rw [← pairs_fst, List.length_map]
    simp only [merge, named, splices_eq, applyAll?_pairs same ordered ready, List.length_map, count]
    rfl

def cardOptions : MergeOptions := { idAttribute := "i", attributes := ["c", "s"] }

/-- A card whose looks come from the second element of its design. -/
def card : Text := "<p i='a' s='s' c=\"x\">t</p>"

def cardDesign : Text := "<b i='a' c='y'/><b i='a' c='z' s='w'/>"

theorem card_merge : cardOptions.merge card cardDesign = .done ⟨"<p i='a' s='w' c=\"z\">t</p>", 1⟩ := by
  have splices : (Document.read card).records.filterMap
      (cardOptions.splices? (Document.read cardDesign)) = [[⟨⟨18, 19⟩, "z"⟩, ⟨⟨12, 13⟩, "w"⟩]] := by
    decide +kernel
  have sorted : [⟨⟨18, 19⟩, "z"⟩, ⟨⟨12, 13⟩, "w"⟩].mergeSort Splice.goesFirst =
      [⟨⟨18, 19⟩, "z"⟩, ⟨⟨12, 13⟩, "w"⟩] := List.mergeSort_of_pairwise (by decide)
  have applied : Splice.applyAll? card [⟨⟨18, 19⟩, "z"⟩, ⟨⟨12, 13⟩, "w"⟩] =
      some "<p i='a' s='w' c=\"z\">t</p>" := by
    rw [Splice.applyAll?, sorted]
    decide
  have named : (trim cardOptions.idAttribute).isEmpty = false := by decide
  rw [merge, if_neg (by simp [named])]
  simp only [splices, List.flatten_singleton, applied]
  rfl

theorem card_merge_exact :
    (trim cardOptions.idAttribute).isEmpty = false ∧ (Node.read card).Present ∧
      ∃ placed : List (Record × Record), placed.length = 1 ∧
        (∀ p ∈ placed, cardOptions.Supplies (Document.read cardDesign) p.1 p.2) ∧
        Splice.weave card 0
            (placed.map fun p => ⟨p.1.startTag, Edit.newTag card p.1 (cardOptions.changes p.2)⟩) =
          "<p i='a' s='w' c=\"z\">t</p>".toList := by
  have named : (trim cardOptions.idAttribute).isEmpty = false := by decide
  have present : (Node.read card).Present := by decide +kernel
  obtain ⟨placed, elements, -, each, merged⟩ :=
    merge_exact cardOptions card cardDesign named (by decide) present
  obtain ⟨content, count⟩ := MergeResult.mk.inj (Outcome.done.inj (merged.symm.trans card_merge))
  refine ⟨named, present, placed, ?_, fun p member => (each p member).2.1, content⟩
  rw [← count, ← elements.length_eq, List.length_map]

end MergeOptions

end TemplateMarkup
