import TemplateMarkup.Proofs.Edit.Update
import TemplateMarkup.Proofs.Edit.Weave

/-!
The text after an update, written out: the tag with its attributes, those that are new, and the content.
The splices of an update come in the order of the changes, and not of their places; in a complete tag, and
with no attribute named twice, they can be put in order, and what they leave is that text.
-/
namespace TemplateMarkup

open Text

namespace Record

variable {t : Text} {r : Record} {name : Text} {a b : Attribute}

/-- The attribute is the first one with the name as written; or none has it, and it is the first one with
the name up to case. -/
def Names (r : Record) (name : Text) (a : Attribute) : Prop :=
  ∃ before after, r.attributes = before ++ a :: after ∧
    (a.name = name ∧ (∀ b ∈ before, b.name ≠ name) ∨
      (∀ b ∈ r.attributes, b.name ≠ name) ∧ equalsFold a.name name ∧
        ∀ b ∈ before, ¬equalsFold b.name name)

theorem attribute?_eq_some_iff : r.attribute? name = some a ↔ r.Names name a := by
  have exact : ∀ b : Attribute, (b.name == name) = true ↔ b.name = name := fun b => beq_iff_eq
  unfold attribute? Attribute.find? Names
  simp only [Option.orElse_eq_orElse, Option.orElse_eq_or, Option.or_eq_some_iff, List.find?_eq_none,
    List.find?_eq_some_iff_append, Bool.not_eq_true', ← Bool.not_eq_true, exact]
  constructor
  · rintro (⟨named, before, after, parts, others⟩ | ⟨none, folded, before, after, parts, others⟩)
    · exact ⟨before, after, parts, Or.inl ⟨named, others⟩⟩
    · exact ⟨before, after, parts, Or.inr ⟨none, folded, others⟩⟩
  · rintro ⟨before, after, parts, ⟨named, others⟩ | ⟨none, folded, others⟩⟩
    · exact Or.inl ⟨named, before, after, parts, others⟩
    · exact Or.inr ⟨none, folded, before, after, parts, others⟩

theorem lowerAscii_attribute? (found : r.attribute? name = some a) :
    lowerAscii a.name = lowerAscii name := by
  obtain ⟨_, _, _, ⟨named, -⟩ | ⟨-, folded, -⟩⟩ := attribute?_eq_some_iff.mp found
  · rw [named]
  · simpa [equalsFold] using folded

/-- The opening tag is complete: its attributes come after its name and take up space, values in quotes
have both of them, and only blanks stand between the attributes and what closes the tag. -/
structure Complete (t : Text) (r : Record) : Prop where
  placed : ∀ a ∈ r.attributes, r.tagName.stop ≤ a.span.start ∧ a.span.start < a.span.stop
  quoted : ∀ a ∈ r.attributes, ∀ s ∈ a.valueSpan, ∀ q ∈ a.quote,
    (∃ lead, slice t a.span.start s.start = lead ++ [q]) ∧ slice t s.stop a.span.stop = [q]
  closed : ∃ blanks mark, slice t r.insertPoint r.startTag.stop = blanks ++ mark ∧
    (∀ c ∈ blanks, isBlank c) ∧ (mark = "/>".toList ∨ mark = ">".toList ∧ r.inner.isSome)

/-- New values start before the ends of their attributes, and new attributes before the end of the tag. -/
structure Solid (r : Record) : Prop where
  filled : ∀ a ∈ r.attributes, ∀ value, (Edit.assign a value).span.start < a.span.stop
  closed : r.insertPoint < r.startTag.stop

end Record

namespace Edit

variable {t : Text} {r : Record} {changes : List (Text × Text)} {a b : Attribute}

def newValue? (r : Record) (changes : List (Text × Text)) (a : Attribute) : Option Text :=
  (changes.find? fun c => r.attribute? c.1 == some a).map (·.2)

def fresh (r : Record) (changes : List (Text × Text)) : List (Text × Text) :=
  changes.filter fun c => (r.attribute? c.1).isNone

/-- An attribute with a new value: between its quotes, or in double quotes if it had none. -/
def rewritten (t : Text) (a : Attribute) (value : Text) : Text :=
  match a.valueSpan, a.quote with
  | some s, some q => slice t a.span.start s.start ++ escapeValue value q ++ slice t s.stop a.span.stop
  | _, _ => a.name ++ "=\"".toList ++ escapeValue value '\x22' ++ ['\x22']

/-- Attributes in a row with the text before each of them, from an offset on. -/
def attributesText (t : Text) (r : Record) (changes : List (Text × Text)) (n : Nat) :
    List Attribute → Text
  | [] => []
  | a :: as =>
    slice t n a.span.start ++ ((newValue? r changes a).map (rewritten t a)).getD (a.span.slice t) ++
      attributesText t r changes a.span.stop as

def freshText (r : Record) (changes : List (Text × Text)) : Text :=
  (fresh r changes).flatMap fun c => ' ' :: c.1 ++ "=\"".toList ++ escapeValue c.2 '\x22' ++ ['\x22']

/-- What follows the attributes: the end of the tag, the content and the text after it. -/
def contentText (t : Text) (r : Record) : Option Text → Text
  | none => slice t r.insertPoint (bytes t)
  | some content =>
    match r.inner with
    | some inner => slice t r.insertPoint inner.start ++ content ++ slice t inner.stop (bytes t)
    | none => '>' :: content ++ "</".toList ++ r.tag ++ ['>'] ++ slice t r.startTag.stop (bytes t)

def updated (t : Text) (r : Record) (e : Edit) : Text :=
  slice t 0 r.tagName.stop ++ attributesText t r (e.attributes.getD []) r.tagName.stop r.attributes ++
    freshText r (e.attributes.getD []) ++ contentText t r e.payload

theorem change_unique (distinct : changes.Pairwise fun c d => ¬equalsFold c.1 d.1) {c d : Text × Text}
    (memberC : c ∈ changes) (memberD : d ∈ changes) (foundC : r.attribute? c.1 = some a)
    (foundD : r.attribute? d.1 = some a) : c = d := by
  have once : changes.Pairwise fun c d => lowerAscii c.1 ≠ lowerAscii d.1 :=
    distinct.imp fun differs same => differs (by simp [equalsFold, same])
  have forward : changes.Pairwise fun c d => lowerAscii c.1 = lowerAscii d.1 → c = d :=
    once.imp fun differs same => absurd same differs
  have backward : changes.Pairwise fun c d => lowerAscii d.1 = lowerAscii c.1 → d = c :=
    once.imp fun differs same => absurd same.symm differs
  have folded := (Record.lowerAscii_attribute? foundC).symm.trans (Record.lowerAscii_attribute? foundD)
  exact List.Pairwise.forall_of_forall_of_flip (fun _ _ _ => rfl) forward backward memberC memberD folded

theorem newValue?_eq_some_iff (distinct : changes.Pairwise fun c d => ¬equalsFold c.1 d.1) {v : Text} :
    newValue? r changes a = some v ↔ ∃ name, (name, v) ∈ changes ∧ r.attribute? name = some a := by
  unfold newValue?
  rw [Option.map_eq_some_iff]
  constructor
  · rintro ⟨c, found, rfl⟩
    exact ⟨c.1, List.mem_of_find?_eq_some found, by simpa using List.find?_some found⟩
  · rintro ⟨name, member, named⟩
    cases found : changes.find? fun c => r.attribute? c.1 == some a with
    | none =>
      have refused := List.find?_eq_none.mp found (name, v) member
      simp [named] at refused
    | some c =>
      have same := change_unique distinct (List.mem_of_find?_eq_some found) member
        (by simpa using List.find?_some found) named
      exact ⟨c, rfl, by rw [same]⟩

theorem mem_fresh {c : Text × Text} : c ∈ fresh r changes ↔ c ∈ changes ∧ ∀ a, ¬r.Names c.1 a := by
  simp only [fresh, List.mem_filter, Option.isNone_iff_eq_none, Option.eq_none_iff_forall_ne_some, ne_eq,
    Record.attribute?_eq_some_iff]

theorem freshText_eq : (changes.flatMap fun c =>
    if (r.attribute? c.1).isNone then ' ' :: assignment c.1 c.2 else []) = freshText r changes := by
  induction changes with
  | nil => rfl
  | cons c changes ih =>
    rw [List.flatMap_cons, ih, freshText, freshText, fresh, fresh, List.filter_cons]
    by_cases new : (r.attribute? c.1).isNone
    · rw [if_pos new, if_pos new, List.flatMap_cons, assignment]
      rfl
    · rw [if_neg new, if_neg new]
      rfl

/-- The attributes that change, in the order of the tag, with their new values. -/
def changed (r : Record) (changes : List (Text × Text)) (as : List Attribute) : List (Attribute × Text) :=
  as.filterMap fun a => (newValue? r changes a).map fun v => (a, v)

/-- The changes of attributes are the same in the order of the tag and of their names. -/
theorem changed_perm (nodup : r.attributes.Nodup)
    (distinct : changes.Pairwise fun c d => ¬equalsFold c.1 d.1) :
    (changed r changes r.attributes).Perm
      (changes.filterMap fun c => (r.attribute? c.1).map fun a => (a, c.2)) := by
  have left : (changed r changes r.attributes).Nodup := by
    refine List.pairwise_filterMap.mpr (nodup.imp ?_)
    intro a b differs p foundA q foundB same
    obtain ⟨_, -, rfl⟩ := Option.map_eq_some_iff.mp foundA
    obtain ⟨_, -, rfl⟩ := Option.map_eq_some_iff.mp foundB
    exact differs (Prod.mk.inj same).1
  have right : (changes.filterMap fun c => (r.attribute? c.1).map fun a => (a, c.2)).Nodup := by
    refine List.pairwise_filterMap.mpr (distinct.imp ?_)
    intro c d differs p foundC q foundD same
    obtain ⟨a, namedC, rfl⟩ := Option.map_eq_some_iff.mp foundC
    obtain ⟨b, namedD, rfl⟩ := Option.map_eq_some_iff.mp foundD
    obtain ⟨rfl, -⟩ := Prod.mk.inj same
    have folded := (Record.lowerAscii_attribute? namedC).symm.trans (Record.lowerAscii_attribute? namedD)
    exact differs (by simp [equalsFold, folded])
  rw [List.perm_ext_iff_of_nodup left right]
  rintro ⟨a, v⟩
  have placed : (a, v) ∈ changed r changes r.attributes ↔
      a ∈ r.attributes ∧ newValue? r changes a = some v := by
    simp [changed]
  have listed : (a, v) ∈ (changes.filterMap fun c => (r.attribute? c.1).map fun a => (a, c.2)) ↔
      ∃ name, (name, v) ∈ changes ∧ r.attribute? name = some a := by
    simp only [List.mem_filterMap, Option.map_eq_some_iff, Prod.mk.injEq]
    constructor
    · rintro ⟨c, member, b, named, rfl, rfl⟩
      exact ⟨c.1, member, named⟩
    · rintro ⟨name, member, named⟩
      exact ⟨(name, v), member, a, named, rfl, rfl⟩
  rw [placed, listed, newValue?_eq_some_iff distinct]
  refine and_iff_right_of_imp ?_
  rintro ⟨name, -, named⟩
  exact Record.attribute?_mem named

theorem rewritten_eq (settled : a.Settled t) (value : Text) :
    rewritten t a value = slice t a.span.start (assign a value).span.start ++
      (assign a value).replacement ++ slice t (assign a value).span.stop a.span.stop := by
  have unquoted : rewritten t a value = assignment a.name value →
      assign a value = ⟨a.span, assignment a.name value⟩ → rewritten t a value =
        slice t a.span.start (assign a value).span.start ++ (assign a value).replacement ++
          slice t (assign a value).span.stop a.span.stop := by
    intro written assigned
    rw [written, assigned, slice_self settled.on.start, slice_self settled.on.stop]
    simp
  cases span : a.valueSpan with
  | none => exact unquoted (by simp [rewritten, span, assignment]) (by simp [assign, span])
  | some s =>
    cases quote : a.quote with
    | none => exact unquoted (by simp [rewritten, span, quote, assignment]) (by simp [assign, span, quote])
    | some q => simp [rewritten, assign, span, quote]

/-- Attributes with new values are woven into the tag one after the other. -/
theorem weave_attributes (r : Record) (changes : List (Text × Text)) {n : Nat} {as : List Attribute}
    {rest : List Splice} (boundary : t.Boundary n) (settled : ∀ a ∈ as, a.Settled t)
    (lower : ∀ a ∈ as, n ≤ a.span.start)
    (ordered : as.Pairwise fun a b => a.span.stop ≤ b.span.start) (on : ∀ s ∈ rest, s.span.On t)
    (upper : ∀ a ∈ as, ∀ s ∈ rest, a.span.stop ≤ s.span.start) :
    Splice.weave t n ((changed r changes as).map (fun p => assign p.1 p.2) ++ rest) =
      attributesText t r changes n as ++
        Splice.weave t ((as.getLast?.map (·.span.stop)).getD n) rest := by
  induction as generalizing n with
  | nil => rfl
  | cons a as ih =>
    obtain ⟨here, later⟩ := List.forall_mem_cons.mp settled
    obtain ⟨first, ordered⟩ := List.pairwise_cons.mp ordered
    obtain ⟨above, uppers⟩ := List.forall_mem_cons.mp upper
    have low := lower a (List.mem_cons_self ..)
    have last : ((a :: as).getLast?.map (·.span.stop)).getD n =
        (as.getLast?.map (·.span.stop)).getD a.span.stop := by
      rw [List.getLast?_cons]
      cases as.getLast? <;> rfl
    have tail := ih here.on.stop later (fun b member => first b member) ordered uppers
    -- all later splices start where this attribute has ended
    have splices : ∀ s ∈ (changed r changes as).map (fun p => assign p.1 p.2) ++ rest,
        s.span.On t ∧ a.span.stop ≤ s.span.start := by
      intro s member
      rcases List.mem_append.mp member with changes | further
      · obtain ⟨p, inside, rfl⟩ := List.mem_map.mp changes
        obtain ⟨b, memberB, found⟩ := List.mem_filterMap.mp inside
        obtain ⟨v, -, rfl⟩ := Option.map_eq_some_iff.mp found
        obtain ⟨onB, enclosed⟩ := assign_settled (later b memberB) v
        rw [Span.encloses_iff] at enclosed
        have beyond := first b memberB
        exact ⟨onB, by dsimp only; omega⟩
      · exact ⟨on s further, above s further⟩
    have onLater := fun s member => (splices s member).1
    have highLater := fun s member => (splices s member).2
    rw [last, attributesText, List.append_assoc, ← tail]
    cases value : newValue? r changes a with
    | none =>
      have same : changed r changes (a :: as) = changed r changes as := by
        simp [changed, value]
      have range := here.on.range
      rw [same, Splice.weave_advance boundary here.on.stop (by omega) onLater highLater,
        slice_split boundary here.on.start here.on.stop low range]
      rfl
    | some v =>
      have same : changed r changes (a :: as) = (a, v) :: changed r changes as := by
        simp [changed, value]
      obtain ⟨onA, enclosed⟩ := assign_settled here v
      rw [Span.encloses_iff] at enclosed
      have range := onA.range
      rw [same, List.map_cons, List.cons_append, Splice.weave,
        Splice.weave_advance onA.stop here.on.stop enclosed.2 onLater highLater,
        slice_split boundary here.on.start onA.start low enclosed.1, Option.map_some, Option.getD_some,
        rewritten_eq here v]
      simp

theorem lastOffset?_end (x : Text) : lastOffset? "/>".toList (x ++ "/>".toList) = some (bytes x) := by
  induction x with
  | nil => rfl
  | cons c x ih => rw [List.cons_append, lastOffset?, ih, bytes_cons, Nat.add_comm]

theorem bytes_trimEnd_le (x : Text) {blanks : Text} (blank : ∀ c ∈ blanks, isBlank c) :
    bytes (trimEnd (x ++ blanks)) ≤ bytes x := by
  have dropped : trimEnd (x ++ blanks) = trimEnd x := by
    rw [trimEnd, List.reverse_append, List.dropWhile_append_of_pos (by simpa using blank), trimEnd]
  have parts : trimEnd x ++ (x.reverse.takeWhile isBlank).reverse = x := by
    rw [trimEnd, ← List.reverse_append, List.takeWhile_append_dropWhile, List.reverse_reverse]
  have sizes := congrArg bytes parts
  rw [bytes_append] at sizes
  rw [dropped]
  omega

/-- The end of a complete tag that closes itself is what comes after its attributes. -/
theorem selfClosingEnd_complete (settled : r.Settled t) (complete : r.Complete t) (none : r.inner = none) :
    selfClosingEnd t r = ⟨r.insertPoint, r.startTag.stop⟩ := by
  obtain ⟨boundary, low, high, -⟩ := Record.insertPoint_settled settled
  obtain ⟨blanks, mark, ends, blank, closing⟩ := complete.closed
  have slash : mark = "/>".toList := by
    rcases closing with slash | ⟨-, some⟩
    · exact slash
    · rw [none] at some
      cases some
  subst slash
  obtain ⟨a, b, rest, split, start, point⟩ := boundary_split settled.startTag.start boundary low
  obtain ⟨lead, after, same, stop⟩ := settled.startTag.stop
  obtain ⟨c, rfl, rfl⟩ := append_inj_of_bytes (split.symm.trans same) (by omega)
  have closed := slice_parts (a ++ b) c after
  rw [← same, point, stop, ends] at closed
  subst closed
  have tag : r.startTag.slice t = b ++ blanks ++ "/>".toList := by
    have part := slice_parts a (b ++ blanks ++ "/>".toList) after
    have whole : a ++ (b ++ blanks ++ "/>".toList) = a ++ b ++ (blanks ++ "/>".toList) := by simp
    rwa [whole, ← same, start, stop] at part
  have before : slice t 0 (r.startTag.start + bytes (b ++ blanks)) = a ++ b ++ blanks := by
    have part := slice_parts [] (a ++ b ++ blanks) ("/>".toList ++ after)
    have whole : [] ++ (a ++ b ++ blanks) ++ ("/>".toList ++ after) = t := by rw [same]; simp
    have size : bytes ([] ++ (a ++ b ++ blanks)) = r.startTag.start + bytes (b ++ blanks) := by
      rw [← start]
      simp
    rwa [whole, size] at part
  have trimmed := bytes_trimEnd_le (a ++ b) blank
  rw [selfClosingEnd, tag, lastOffset?_end]
  dsimp only [Option.map_some, Option.getD_some]
  rw [before, Nat.max_eq_right (by omega)]

theorem insertPoint_lt (settled : r.Settled t) (complete : r.Complete t) :
    r.insertPoint < r.startTag.stop := by
  obtain ⟨boundary, -, high, -⟩ := Record.insertPoint_settled settled
  obtain ⟨blanks, mark, ends, -, closing⟩ := complete.closed
  rcases Nat.lt_or_eq_of_le high with less | same
  · exact less
  · rw [← same, slice_self boundary] at ends
    obtain ⟨-, empty⟩ := List.append_eq_nil_iff.mp ends.symm
    rcases closing with slash | ⟨bracket, -⟩
    · exact absurd (slash.symm.trans empty) (by decide)
    · exact absurd (bracket.symm.trans empty) (by decide)

/-- New attributes as one splice, if there are any. -/
def insertions (r : Record) (changes : List (Text × Text)) : List Splice :=
  if (freshText r changes).isEmpty then [] else [Splice.insertion r.insertPoint (freshText r changes)]

def placedSplices (t : Text) (r : Record) (e : Edit) : List Splice :=
  (changed r (e.attributes.getD []) r.attributes).map (fun p => assign p.1 p.2) ++
    (insertions r (e.attributes.getD []) ++ (e.payload.map (setContent t r)).toList)

theorem placedSplices_perm (t : Text) (e : Edit) (nodup : r.attributes.Nodup)
    (distinct : (e.attributes.getD []).Pairwise fun c d => ¬equalsFold c.1 d.1) :
    (placedSplices t r e).Perm (updateSplices t r e) := by
  have listed : updateSplices t r e =
      ((e.attributes.getD []).filterMap fun c => (r.attribute? c.1).map fun a => (a, c.2)).map
          (fun p => assign p.1 p.2) ++
        (insertions r (e.attributes.getD []) ++ (e.payload.map (setContent t r)).toList) := by
    rw [updateSplices, setAttributes, freshText_eq, insertions, List.map_filterMap]
    simp only [Option.map_map]
    split
    · rfl
    · rw [List.append_assoc]
      rfl
  rw [listed]
  exact ((changed_perm nodup distinct).map _).append_right _

theorem insertions_point : ∀ s ∈ insertions r changes, s.span = Span.point r.insertPoint := by
  intro s member
  unfold insertions at member
  split at member
  · cases member
  · rw [List.mem_singleton.mp member]
    rfl

/-- New attributes and new content come after the attributes that are there. -/
theorem insertions_content_after (changes : List (Text × Text)) (settled : r.Settled t)
    (payload : Option Text) :
    ∀ s ∈ insertions r changes ++ (payload.map (setContent t r)).toList,
      s.span.On t ∧ r.insertPoint ≤ s.span.start := by
  intro s member
  rcases List.mem_append.mp member with new | content
  · rw [insertions_point s new]
    exact ⟨Span.point_on (Record.insertPoint_settled settled).1, Nat.le_refl _⟩
  · obtain ⟨payload, -, rfl⟩ := Option.map_eq_some_iff.mp (Option.mem_toList.mp content)
    obtain ⟨on, start, -⟩ := setContent_settled settled payload
    exact ⟨on, start⟩

theorem setContent_stop (settled : r.Settled t) (solid : r.Solid) (content : Text) :
    r.insertPoint < (setContent t r content).span.stop := by
  have less := solid.closed
  unfold setContent
  split
  · rename_i inner found
    obtain ⟨on, start, -⟩ := settled.inner inner found
    have range := on.range
    dsimp only
    omega
  · rw [openUp, (selfClosingEnd_settled settled).2.2]
    exact less

theorem assign_start_lt (complete : r.Complete t) (settled : r.Settled t) (member : a ∈ r.attributes)
    (value : Text) : (assign a value).span.start < a.span.stop := by
  have filled := (complete.placed a member).2
  have settledA := (settled.attributes a member).1
  unfold assign
  split
  · rename_i s q found quote
    obtain ⟨on, enclosed⟩ := settledA.value s found
    rw [Span.encloses_iff] at enclosed
    have range := on.range
    have closed := (complete.quoted a member s found q quote).2
    -- the closing quote stands between the value and the end of the attribute
    rcases Nat.lt_or_eq_of_le enclosed.2 with less | same
    · dsimp only
      omega
    · rw [same, slice_self settledA.on.stop] at closed
      cases closed
  · exact filled

theorem complete_solid (settled : r.Settled t) (complete : r.Complete t) : r.Solid :=
  ⟨fun _ => assign_start_lt complete settled, insertPoint_lt settled complete⟩

theorem changed_mem {as : List Attribute} {p : Attribute × Text} (member : p ∈ changed r changes as) :
    p.1 ∈ as := by
  obtain ⟨a, listed, found⟩ := List.mem_filterMap.mp member
  obtain ⟨v, -, rfl⟩ := Option.map_eq_some_iff.mp found
  exact listed

theorem tagName_le_insertPoint (complete : r.Complete t) : r.tagName.stop ≤ r.insertPoint := by
  unfold Record.insertPoint
  cases last : r.attributes.getLast? with
  | none => exact Nat.le_refl _
  | some a =>
    obtain ⟨low, filled⟩ := complete.placed a (List.mem_of_getLast? last)
    show r.tagName.stop ≤ a.span.stop
    omega

theorem placedSplices_on (settled : r.Settled t) (complete : r.Complete t) (e : Edit) :
    ∀ s ∈ placedSplices t r e, s.span.On t ∧ r.tagName.stop ≤ s.span.start := by
  intro s member
  rcases List.mem_append.mp member with changes | further
  · obtain ⟨p, inside, rfl⟩ := List.mem_map.mp changes
    have listed := changed_mem inside
    obtain ⟨on, enclosed⟩ := assign_settled (settled.attributes p.1 listed).1 p.2
    rw [Span.encloses_iff] at enclosed
    have low := (complete.placed p.1 listed).1
    exact ⟨on, by omega⟩
  · obtain ⟨on, after⟩ := insertions_content_after _ settled e.payload s further
    have low := tagName_le_insertPoint complete
    exact ⟨on, by omega⟩

theorem solid_ordered (settled : r.Settled t) (solid : r.Solid) (e : Edit) :
    (placedSplices t r e).Pairwise Splice.Precedes := by
  obtain ⟨-, -, -, last⟩ := Record.insertPoint_settled settled
  refine List.pairwise_append.mpr ⟨?_, List.pairwise_append.mpr ⟨?_, ?_, ?_⟩, ?_⟩
  · refine List.pairwise_map.mpr (List.pairwise_filterMap.mpr (settled.ordered.imp_of_mem ?_))
    intro a b memberA memberB before p foundA q foundB
    obtain ⟨v, -, rfl⟩ := Option.map_eq_some_iff.mp foundA
    obtain ⟨w, -, rfl⟩ := Option.map_eq_some_iff.mp foundB
    obtain ⟨-, enclosedA⟩ := assign_settled (settled.attributes a memberA).1 v
    obtain ⟨onB, enclosedB⟩ := assign_settled (settled.attributes b memberB).1 w
    rw [Span.encloses_iff] at enclosedA enclosedB
    have starts := solid.filled a memberA v
    have range := onB.range
    unfold Splice.Precedes
    dsimp only
    omega
  · unfold insertions
    split
    · exact List.Pairwise.nil
    · exact List.pairwise_singleton _ _
  · cases e.payload with
    | none => exact List.Pairwise.nil
    | some payload => exact List.pairwise_singleton _ _
  · intro s new u content
    obtain ⟨payload, -, rfl⟩ := Option.map_eq_some_iff.mp (Option.mem_toList.mp content)
    rw [Splice.Precedes, insertions_point s new]
    exact ⟨(setContent_settled settled payload).2.1, setContent_stop settled solid payload⟩
  · intro s member u further
    obtain ⟨p, inside, rfl⟩ := List.mem_map.mp member
    have listed := changed_mem inside
    obtain ⟨-, enclosed⟩ := assign_settled (settled.attributes p.1 listed).1 p.2
    rw [Span.encloses_iff] at enclosed
    have starts := solid.filled p.1 listed p.2
    obtain ⟨on, after⟩ := insertions_content_after _ settled e.payload u further
    have range := on.range
    have high := last p.1 listed
    unfold Splice.Precedes
    omega

theorem placedSplices_ordered (settled : r.Settled t) (complete : r.Complete t) (e : Edit) :
    (placedSplices t r e).Pairwise Splice.Precedes :=
  solid_ordered settled (complete_solid settled complete) e

theorem weave_content (changes : List (Text × Text)) (settled : r.Settled t) (complete : r.Complete t)
    (payload : Option Text) :
    Splice.weave t r.insertPoint (insertions r changes ++ (payload.map (setContent t r)).toList) =
      freshText r changes ++ contentText t r payload := by
  have boundary := (Record.insertPoint_settled settled).1
  have content : Splice.weave t r.insertPoint (payload.map (setContent t r)).toList =
      contentText t r payload := by
    cases payload with
    | none => rfl
    | some content =>
      rw [Option.map_some, Option.toList_some, Splice.weave, Splice.weave, contentText, setContent]
      cases inner : r.inner with
      | some inner => rfl
      | none =>
        dsimp only [openUp]
        rw [selfClosingEnd_complete settled complete inner, slice_self boundary]
        rfl
  unfold insertions
  split
  · rename_i empty
    rw [List.isEmpty_iff.mp empty, List.nil_append, List.nil_append, content]
  · rw [List.singleton_append, Splice.weave, ← content]
    show slice t r.insertPoint r.insertPoint ++ _ ++ _ = _
    rw [slice_self boundary]
    rfl

theorem weave_placedSplices (settled : r.Settled t) (complete : r.Complete t) (e : Edit) :
    Splice.weave t 0 (placedSplices t r e) = updated t r e := by
  have on := placedSplices_on settled complete e
  have tail := insertions_content_after (e.attributes.getD []) settled e.payload
  obtain ⟨-, -, -, last⟩ := Record.insertPoint_settled settled
  have upper : ∀ a ∈ r.attributes, ∀ s ∈ insertions r (e.attributes.getD []) ++
      (e.payload.map (setContent t r)).toList, a.span.stop ≤ s.span.start := by
    intro a listed s member
    exact Nat.le_trans (last a listed) (tail s member).2
  have attributes := weave_attributes r (e.attributes.getD []) settled.tagName.stop
    (fun a member => (settled.attributes a member).1) (fun a member => (complete.placed a member).1)
    settled.ordered (fun s member => (tail s member).1) upper
  have content := weave_content (e.attributes.getD []) settled complete e.payload
  calc Splice.weave t 0 (placedSplices t r e)
      = slice t 0 r.tagName.stop ++ Splice.weave t r.tagName.stop (placedSplices t r e) :=
        Splice.weave_advance ⟨[], t, rfl, rfl⟩ settled.tagName.stop (Nat.zero_le _)
          (fun s member => (on s member).1) (fun s member => (on s member).2)
    _ = slice t 0 r.tagName.stop ++
          (attributesText t r (e.attributes.getD []) r.tagName.stop r.attributes ++
            Splice.weave t r.insertPoint (insertions r (e.attributes.getD []) ++
              (e.payload.map (setContent t r)).toList)) := by
        rw [placedSplices, attributes]
        rfl
    _ = updated t r e := by
        rw [content, updated]
        simp

theorem solid_nodup (settled : r.Settled t) (solid : r.Solid) : r.attributes.Nodup := by
  refine settled.ordered.imp_of_mem ?_
  intro a b member _ before same
  subst same
  obtain ⟨-, enclosed⟩ := assign_settled (settled.attributes a member).1 []
  rw [Span.encloses_iff] at enclosed
  have filled := solid.filled a member []
  omega

theorem attributes_nodup (settled : r.Settled t) (complete : r.Complete t) : r.attributes.Nodup :=
  solid_nodup settled (complete_solid settled complete)

/-- What an update does to an element with a complete tag, if no two of its changes name one attribute up
to case: each change gives its value to the attribute it names, in the quotes that are there or in new ones;
the other changes become attributes, in the order of their names, after all others; the content replaces
what is between the tags or opens up a tag that closes itself; and the rest of the text stays. -/
theorem update_exact (t : Text) (e : Edit) (r : Record) (kind : e.kind = .update)
    (found : e.target (Document.read t) = .ok r) (complete : r.Complete t)
    (ordered : (e.attributes.getD []).Pairwise fun c d => Text.lt c.1 d.1)
    (distinct : (e.attributes.getD []).Pairwise fun c d => ¬equalsFold c.1 d.1) :
    (∀ a v, newValue? r (e.attributes.getD []) a = some v ↔
        ∃ name, (name, v) ∈ e.attributes.getD [] ∧ r.Names name a) ∧
      (∀ c, c ∈ fresh r (e.attributes.getD []) ↔
        c ∈ e.attributes.getD [] ∧ ∀ a, ¬r.Names c.1 a) ∧
      ((fresh r (e.attributes.getD [])).Pairwise fun c d => Text.lt c.1 d.1) ∧
      e.apply t = .done (updated t r e) := by
  have settled := target_settled found
  have perm := placedSplices_perm t e (attributes_nodup settled complete) distinct
  have applied := Splice.applyAll?_weave perm (fun s member => (placedSplices_on settled complete e s member).1)
    (placedSplices_ordered settled complete e)
  have splices : e.splices t = .ok (updateSplices t r e) := by
    simp only [Edit.splices, found, kind, bind, Except.bind, pure, Except.pure]
  refine ⟨?_, fun c => mem_fresh, ordered.filter _, ?_⟩
  · intro a v
    simp only [newValue?_eq_some_iff distinct, Record.attribute?_eq_some_iff]
  · rw [weave_placedSplices settled complete e] at applied
    simp only [Edit.apply, splices, applied]
    rfl

theorem link_complete : link.Complete "<a x='1'/> b" := by
  refine ⟨by decide, ?_, [], "/>".toList, by decide, by simp, Or.inl rfl⟩
  intro a member s span q quote
  rw [List.mem_singleton.mp member] at span quote ⊢
  obtain rfl := Option.some.inj span
  obtain rfl := Option.some.inj quote
  exact ⟨⟨"x=".toList, by decide⟩, by decide⟩

theorem link_update_exact :
    linkUpdate.target (Document.read "<a x='1'/> b") = .ok link ∧ link.Complete "<a x='1'/> b" ∧
      linkUpdate.apply "<a x='1'/> b" = .done (updated "<a x='1'/> b" link linkUpdate) ∧
      updated "<a x='1'/> b" link linkUpdate = "<a x='v' c=\"w\">z</a> b".toList := by
  have found : linkUpdate.target (Document.read "<a x='1'/> b") = .ok link :=
    ok_of_toOption (by decide +kernel)
  obtain ⟨-, -, -, applied⟩ :=
    update_exact _ linkUpdate link rfl found link_complete (by decide) (by decide)
  exact ⟨found, link_complete, applied, by decide +kernel⟩

end Edit

end TemplateMarkup
