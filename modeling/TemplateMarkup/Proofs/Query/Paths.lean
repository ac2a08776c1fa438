import TemplateMarkup.Proofs.Blanks
import TemplateMarkup.Proofs.Query.Meaning

/-!
The path of an element, read as a query, finds this element and no other. A path has a part for each
ancestor and one for the element: a tag and the number of the element among its siblings with the same
tag. The text of a part is a step of the grammar, and in the scope of the parent this step keeps the
element alone.
-/
namespace TemplateMarkup

namespace Query

open Grammar

/-- A part of a path: a tag, and a number among the siblings with this tag. -/
structure PathPart where
  tag : Text
  ordinal : Nat

namespace PathPart

def text (p : PathPart) : Text := Record.pathBelow [] p.tag p.ordinal

def texts (parts : List PathPart) : Text := parts.flatMap text

def step (p : PathPart) : Step := ⟨.child, .name p.tag, [.position p.ordinal]⟩

/-- The tag is one that queries can name, and the number is a position. -/
structure Legible (p : PathPart) : Prop where
  nonempty : p.tag ≠ []
  inside : ∀ c ∈ p.tag, isTagChar c
  least : 1 ≤ p.ordinal
  most : p.ordinal ≤ 2 ^ 64 - 1

variable {p : PathPart} {parts : List PathPart}

theorem text_append (p : PathPart) (rest : Text) :
    p.text ++ rest = '/' :: (p.tag ++ '[' :: (Text.decimal p.ordinal ++ ']' :: rest)) := by
  simp [text, Record.pathBelow]

theorem texts_concat (parts : List PathPart) (p : PathPart) :
    texts (parts ++ [p]) = Record.pathBelow (texts parts) p.tag p.ordinal := by
  simp [texts, text, Record.pathBelow]

theorem ordinal_isPredicate (legible : p.Legible) (rest : Text) :
    IsPredicate (Text.decimal p.ordinal ++ ']' :: rest) (.position p.ordinal) (']' :: rest) := by
  refine .position ⟨rfl, Nat.toDigits_ne_nil, ?_, ?_⟩ ?_ legible.least legible.most
  · intro c member
    exact Nat.isDigit_of_mem_toDigits (by decide) (by decide) member
  · rintro c ⟨⟩
    decide
  · exact Nat.ofDigitChars_ten_toDigits.symm

theorem text_isStep (legible : p.Legible) (first : Bool) (rest : Text) :
    IsStep first (p.text ++ rest) p.step rest := by
  rw [text_append]
  refine .mk .child (.name ⟨rfl, legible.nonempty, legible.inside, ?_⟩) ?_
  · rintro c ⟨⟩
    decide
  · exact .more (blanks_refl _) (ordinal_isPredicate legible rest) (blanks_refl _) .none

theorem texts_areSteps (legible : ∀ p ∈ parts, p.Legible) (nonempty : parts ≠ []) (first : Bool) :
    AreSteps first (texts parts) (parts.map step) := by
  induction parts generalizing first with
  | nil => exact absurd rfl nonempty
  | cons p parts ih =>
    have head := text_isStep (legible p (by simp)) first (texts parts)
    cases parts with
    | nil => exact .one head
    | cons q parts =>
      have others := ih (fun r member => legible r (List.mem_cons_of_mem p member)) (by simp) false
      exact .more head others

theorem texts_trim (nonempty : parts ≠ []) : (texts parts).trim = texts parts := by
  apply Text.trim_solid (a := '/') (b := ']')
  · obtain ⟨p, rest, rfl⟩ := List.exists_cons_of_ne_nil nonempty
    rw [texts, List.flatMap_cons, text_append]
    rfl
  · obtain ⟨front, p, rfl⟩ := (List.eq_nil_or_concat parts).resolve_left nonempty
    rw [List.concat_eq_append, texts_concat, Record.pathBelow, List.getLast?_concat]
  · decide

theorem texts_read (legible : ∀ p ∈ parts, p.Legible) (nonempty : parts ≠ []) :
    readQuery (texts parts) = .ok ⟨texts parts, parts.map step⟩ := by
  rw [readQuery_ok_iff, texts_trim nonempty]
  exact ⟨rfl, texts_areSteps legible nonempty true⟩

end PathPart

theorem evaluateFrom_append (d : Document) (ignoreCase : Bool) (contexts : List (Option Nat))
    (front back : List Step) :
    evaluateFrom d ignoreCase contexts (front ++ back) =
      evaluateFrom d ignoreCase (evaluateFrom d ignoreCase contexts front) back := by
  induction front generalizing contexts with
  | nil => rfl
  | cons step front ih => exact ih _

/-- A step to children leads from a scope to the only child that it keeps there. -/
theorem evaluateFrom_alone {d : Document} {ignoreCase : Bool} {step : Step} {scope : Option Nat}
    {i : Nat} (axis : step.axis = .child) (kept : matchesIn d ignoreCase step scope = [i]) :
    evaluateFrom d ignoreCase [scope] [step] = [some i] := by
  have alone : scopes d step.axis [scope] = [scope] := by
    rw [axis, scopes, List.mergeSort_singleton]
    rfl
  rw [evaluateFrom, alone, List.flatMap_singleton, kept, List.mergeSort_singleton]
  rfl

end Query

namespace Document

open Query Markup.Node

def tagged (d : Document) (tag : Text) (i : Nat) : Bool := (d.record? i).any fun r => tag == r.tag

/-- The number in a path counts the siblings before it with the same tag. -/
theorem stretch_ordinal {d : Document} {s : Site} {row : List Outline} {c : Nat} {r : Record}
    (stretch : d.Stretch s row) (member : c ∈ Record.indicesFrom s.index row)
    (found : d.record? c = some r) :
    ∃ front back, Record.indicesFrom s.index row = front ++ c :: back ∧
      s.index + front.length ≤ c ∧
      r.path = Record.pathBelow s.path r.tag
        (s.before.count r.tag + front.countP (d.tagged r.tag) + 1) := by
  induction row generalizing s with
  | nil => simp [Record.indicesFrom] at member
  | cons o row ih =>
    have first := stretch_record stretch
    rcases List.mem_cons.mp member with same | later
    · subst same
      obtain rfl := Option.some.inj (first.symm.trans found)
      exact ⟨[], _, rfl, by simp, rfl⟩
    · obtain ⟨front, back, split, length, path⟩ := ih (stretch_tail stretch) later
      refine ⟨s.index :: front, back, congrArg (s.index :: ·) split, ?_, ?_⟩
      · rw [Site.after_index, Outline.size_eq] at length
        rw [List.length_cons]
        omega
      · have head : d.tagged r.tag s.index = (Site.label d.source o == r.tag) := by
          rw [tagged, first, Option.any_some, Bool.beq_comm]
          rfl
        have counted : (s.after d.source o).before.count r.tag + front.countP (d.tagged r.tag) =
            s.before.count r.tag + (s.index :: front).countP (d.tagged r.tag) := by
          rw [List.countP_cons, head, Site.after, List.count_cons]
          omega
        rw [path, counted]
        rfl

/-- The position of an element among those with its tag finds it in its row. -/
theorem matchesIn_ordinal {d : Document} {scope : Option Nat} {front back : List Nat} {c : Nat}
    {r : Record} (children : d.childrenOf scope = front ++ c :: back)
    (found : d.record? c = some r) :
    matchesIn d false (PathPart.step ⟨r.tag, front.countP (d.tagged r.tag) + 1⟩) scope = [c] := by
  have itself : d.tagged r.tag c := by simp [tagged, found]
  have row : (d.childrenOf scope).filter (d.tagged r.tag) =
      front.filter (d.tagged r.tag) ++ c :: back.filter (d.tagged r.tag) := by
    rw [children, List.filter_append, List.filter_cons_of_pos itself]
  have narrows : Predicate.Narrows d (.position (front.countP (d.tagged r.tag) + 1))
      ((d.childrenOf scope).filter (d.tagged r.tag)) [c] := by
    rw [row]
    exact .position (by rw [List.countP_eq_length_filter])
  exact Predicate.narrows_apply narrows

variable {t : Text} {root : Markup.Node}

/-- Every tag name of the tree is one that queries can name. -/
def NamesLegible (t : Text) (root : Markup.Node) : Prop :=
  ∀ n, root.Within n → n.kind.isTagName →
    n.span.slice t ≠ [] ∧ ∀ c ∈ n.span.slice t, isTagChar c

instance (t : Text) (root : Markup.Node) : Decidable (NamesLegible t root) :=
  decidable_of_iff (∀ n, root.Within n → n.kind.isTagName →
    n.span.slice t ≠ [] ∧ (n.span.slice t).all isTagChar) (by simp only [List.all_eq_true]; rfl)

theorem found_tag_legible (legible : NamesLegible t root) {i : Nat} {r : Record}
    (found : (ofNode t root).record? i = some r) : r.tag ≠ [] ∧ ∀ c ∈ r.tag, isTagChar c := by
  obtain ⟨site, outline, occurs, _, rfl, _⟩ := ofNode_found found
  obtain ⟨within, faithful⟩ := Outline.occurs_faithful occurs
  exact legible outline.name (within_trans within (Outline.faithful_name_within faithful))
    (Outline.faithful_name faithful).2

/-- Below the path of its parent, an element has a part that finds it among its siblings. -/
theorem found_part (legible : NamesLegible t root) (small : (ofNode t root).size < 2 ^ 64) {i : Nat}
    {r : Record} (found : (ofNode t root).record? i = some r) :
    ∃ p : PathPart, p.Legible ∧
      r.path = Record.pathBelow ((ofNode t root).pathAt r.parent) p.tag p.ordinal ∧
      matchesIn (ofNode t root) false p.step r.parent = [i] := by
  obtain ⟨site, row, stretch, children, _, path, before, _⟩ := ofNode_scope t root r.parent
  have member := (ofNode_arena t root).found_is_child found
  rw [children] at member
  obtain ⟨front, back, split, length, same⟩ := stretch_ordinal stretch member found
  rw [path, before, List.count_nil, Nat.zero_add] at same
  have bound := found_lt_size found
  have count := front.countP_le_length (p := (ofNode t root).tagged r.tag)
  obtain ⟨nonempty, inside⟩ := found_tag_legible legible found
  refine ⟨⟨r.tag, _⟩, ⟨nonempty, inside, ?_, ?_⟩, same, ?_⟩
  · exact Nat.le_add_left 1 _
  · simp only
    omega
  · exact matchesIn_ordinal (children.trans split) found

/-- The path of an element has parts that lead to it from the whole document. -/
theorem found_parts (legible : NamesLegible t root) (small : (ofNode t root).size < 2 ^ 64) {i : Nat}
    {r : Record} (found : (ofNode t root).record? i = some r) :
    ∃ parts : List PathPart, parts ≠ [] ∧ (∀ p ∈ parts, p.Legible) ∧
      r.path = PathPart.texts parts ∧
      evaluateFrom (ofNode t root) false [none] (parts.map PathPart.step) = [some i] := by
  induction i using Nat.strongRecOn generalizing r with
  | ind i ih =>
    obtain ⟨p, legibleP, path, kept⟩ := found_part legible small found
    have above : ∃ parts : List PathPart, (∀ p ∈ parts, p.Legible) ∧
        (ofNode t root).pathAt r.parent = PathPart.texts parts ∧
        evaluateFrom (ofNode t root) false [none] (parts.map PathPart.step) = [r.parent] := by
      cases parent : r.parent with
      | none => exact ⟨[], by simp, rfl, rfl⟩
      | some j =>
        obtain ⟨a, foundA⟩ := (ofNode_arena t root).parent_found found parent
        obtain ⟨parts, _, legibleA, pathA, leads⟩ :=
          ih j ((ofNode_arena t root).parent_lt found parent) foundA
        exact ⟨parts, legibleA, by simp [pathAt, foundA, pathA], leads⟩
    obtain ⟨parts, legibleA, pathA, leads⟩ := above
    refine ⟨parts ++ [p], by simp, ?_, ?_, ?_⟩
    · intro q member
      rcases List.mem_append.mp member with inner | last
      · exact legibleA q inner
      · exact List.mem_singleton.mp last ▸ legibleP
    · rw [path, pathA, PathPart.texts_concat]
    · rw [List.map_append, evaluateFrom_append, leads]
      exact evaluateFrom_alone rfl kept

/-- A path is accepted as a query and finds the element that has it. -/
theorem found_selected (legible : NamesLegible t root) (small : (ofNode t root).size < 2 ^ 64)
    {i : Nat} {r : Record} (found : (ofNode t root).record? i = some r) :
    ∃ q, readQuery r.path = .ok q ∧ (ofNode t root).select q = [i] := by
  obtain ⟨parts, nonempty, legibleParts, path, leads⟩ := found_parts legible small found
  refine ⟨_, path ▸ PathPart.texts_read legibleParts nonempty, ?_⟩
  simp [select, evaluate, leads]

/-- Paths are queries that find their own element and nothing else, so no two elements have the same
path. -/
theorem paths_identify (t : Text) (root : Markup.Node) (legible : NamesLegible t root)
    (small : (ofNode t root).size < 2 ^ 64) :
    (∀ i r, (ofNode t root).record? i = some r →
      (∃ q, readQuery r.path = .ok q) ∧ (ofNode t root).selectText r.path = .ok [i]) ∧
    ∀ i j a b, (ofNode t root).record? i = some a → (ofNode t root).record? j = some b →
      a.path = b.path → i = j := by
  have selected : ∀ i r, (ofNode t root).record? i = some r →
      (∃ q, readQuery r.path = .ok q) ∧ (ofNode t root).selectText r.path = .ok [i] := by
    intro i r found
    obtain ⟨q, accepted, select⟩ := found_selected legible small found
    exact ⟨⟨q, accepted⟩, by rw [selectText, accepted, Except.map, select]⟩
  refine ⟨selected, ?_⟩
  intro i j a b foundA foundB same
  have first := (selected i a foundA).2
  rw [same, (selected j b foundB).2] at first
  cases first
  rfl

/-- Tags that differ in case alone are numbered apart. -/
theorem strayTagTree_paths :
    NamesLegible "<p a><b/></p><P>" strayTagTree ∧
    (ofNode "<p a><b/></p><P>" strayTagTree).size < 2 ^ 64 ∧
    (ofNode "<p a><b/></p><P>" strayTagTree).selectText "/p[1]/b[1]" = .ok [1] ∧
    (ofNode "<p a><b/></p><P>" strayTagTree).selectText "/P[1]" = .ok [2] := by
  have legible : NamesLegible "<p a><b/></p><P>" strayTagTree := by decide
  have small : (ofNode "<p a><b/></p><P>" strayTagTree).size < 2 ^ 64 := by decide
  obtain ⟨selected, _⟩ := paths_identify _ strayTagTree legible small
  exact ⟨legible, small, (selected 1 _ rfl).2, (selected 2 _ rfl).2⟩

end Document

end TemplateMarkup
