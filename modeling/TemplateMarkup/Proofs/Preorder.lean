import Mathlib.Data.List.Basic
import TemplateMarkup.Proofs.Outline

/-!
The records of a document against the positions of its syntax tree. A position says which child to go
to at each level, so the order of positions is preorder. Which nodes are elements, and what content is
closed to the outline, is said here about positions alone, without the traversal that builds outlines.
-/
namespace TemplateMarkup

open Markup

abbrev Position := List Nat

namespace Markup.Node

def at? : Node → Position → Option Node
  | n, [] => some n
  | n, i :: p => n.children[i]?.bind (at? · p)

theorem at?_append (root : Node) (p q : Position) :
    root.at? (p ++ q) = (root.at? p).bind (at? · q) := by
  induction p generalizing root with
  | nil => rfl
  | cons i p ih =>
    rw [List.cons_append, at?, at?, Option.bind_assoc]
    exact congrArg _ (funext fun c => ih c)

theorem at?_concat {root n : Node} {p : Position} (here : root.at? p = some n) (i : Nat) :
    root.at? (p ++ [i]) = n.children[i]? := by
  rw [at?_append, here, Option.bind_some, at?]
  exact Option.bind_fun_some _

def InElement (root : Node) (p : Position) : Prop :=
  ∃ q i m, p = q ++ [i] ∧ root.at? q = some m ∧ m.kind.isElement

theorem inElement_concat {root n : Node} {p : Position} (here : root.at? p = some n) (i : Nat) :
    root.InElement (p ++ [i]) ↔ n.kind.isElement := by
  constructor
  · rintro ⟨q, j, m, same, found, kind⟩
    obtain ⟨rfl, _⟩ := List.append_inj' same rfl
    obtain rfl := Option.some.inj (here.symm.trans found)
    exact kind
  · intro kind
    exact ⟨p, i, n, rfl, here, kind⟩

/-- The element that begins at a position: its node, its tag and the name in the tag. -/
inductive Heads (root : Node) (p : Position) : Node → Node → Node → Prop where
  | element {n tag name : Node} (here : root.at? p = some n) (kind : n.kind.isElement)
      (opening : n.child? Kind.isStartTag = some tag ∨
        n.child? Kind.isStartTag = none ∧ n.child? Kind.isSelfClosingTag = some tag)
      (named : tag.child? Kind.isTagName = some name) : Heads root p n tag name
  | stray {n name : Node} (here : root.at? p = some n)
      (kind : n.kind.isStartTag ∨ n.kind.isSelfClosingTag) (outside : ¬ root.InElement p)
      (named : n.child? Kind.isTagName = some name) : Heads root p n n name

def Qualifies (root : Node) (p : Position) : Prop := ∃ n tag name, root.Heads p n tag name

/-- What lies inside the node is no element: it is a tag of an element, or a named tag of its own. -/
def Sealed (root : Node) (p : Position) : Prop :=
  ∃ n, root.at? p = some n ∧
    (n.kind.isTag ∧ root.InElement p ∨ ¬ n.kind.isElement ∧ root.Qualifies p)

/-- The second position lies strictly inside the first. -/
def Inside (q p : Position) : Prop := q <+: p ∧ q ≠ p

def Hidden (root : Node) (p : Position) : Prop := ∃ q, Inside q p ∧ root.Sealed q

def Encloses (root : Node) (p : Position) : Option Position → Prop
  | some q => Inside q p ∧ root.Qualifies q ∧ ∀ s, Inside s p → root.Qualifies s → s <+: q
  | none => ∀ s, Inside s p → ¬ root.Qualifies s

theorem inside_concat {q p : Position} {i : Nat} : Inside q (p ++ [i]) ↔ q <+: p := by
  constructor
  · rintro ⟨before, differs⟩
    exact (List.prefix_concat_iff.mp before).resolve_left differs
  · intro before
    refine ⟨before.trans (List.prefix_append p [i]), ?_⟩
    intro same
    have short := before.length_le
    rw [same, List.length_append, List.length_singleton] at short
    omega

theorem prefix_split {p q : Position} (before : p <+: q) : q = p ∨ ∃ i, p ++ [i] <+: q := by
  obtain ⟨rest, rfl⟩ := before
  cases rest with
  | nil => exact Or.inl (List.append_nil p)
  | cons i rest => exact Or.inr ⟨i, rest, by simp⟩

theorem encloses_concat_qualified {root : Node} {p : Position} (qualified : root.Qualifies p)
    (i : Nat) : root.Encloses (p ++ [i]) (some p) := by
  refine ⟨inside_concat.mpr (List.prefix_refl p), qualified, ?_⟩
  intro s inside _
  exact inside_concat.mp inside

theorem encloses_concat_other {root : Node} {p : Position} {scope : Option Position}
    (encloses : root.Encloses p scope) (other : ¬ root.Qualifies p) (i : Nat) :
    root.Encloses (p ++ [i]) scope := by
  have proper : ∀ s, Inside s (p ++ [i]) → root.Qualifies s → Inside s p := by
    intro s inside qualified
    refine ⟨inside_concat.mp inside, ?_⟩
    rintro rfl
    exact other qualified
  cases scope with
  | none => exact fun s inside qualified => encloses s (proper s inside qualified) qualified
  | some q =>
    obtain ⟨inside, qualified, nearest⟩ := encloses
    exact ⟨inside_concat.mpr inside.1, qualified,
      fun s inner named => nearest s (proper s inner named) named⟩

theorem heads_at {root n tag name : Node} {p : Position} (heads : root.Heads p n tag name) :
    root.at? p = some n := by
  cases heads with
  | element here _ _ _ => exact here
  | stray here _ _ _ => exact here

variable {root n : Node} {p : Position} {inElement : Bool}

theorem head?_iff (here : root.at? p = some n) (within : inElement = true ↔ root.InElement p)
    (tag name : Node) :
    Outline.head? inElement n = some (tag, name) ↔ root.Heads p n tag name := by
  constructor
  · intro head
    obtain ⟨opening, tagged, rest⟩ := Option.bind_eq_some_iff.mp head
    obtain ⟨found, named, pair⟩ := Option.map_eq_some_iff.mp rest
    obtain ⟨rfl, rfl⟩ := Prod.mk.inj pair
    unfold Outline.tagOf? at tagged
    split at tagged
    · rename_i kind
      rw [Option.orElse_eq_orElse, Option.orElse_eq_or] at tagged
      exact .element here kind (Option.or_eq_some_iff.mp tagged) named
    · split at tagged
      · rename_i kind
        obtain rfl := Option.some.inj tagged
        rw [Bool.and_eq_true, Bool.or_eq_true, Bool.not_eq_true', ← Bool.not_eq_true, within] at kind
        exact .stray here kind.1 kind.2 named
      · simp at tagged
  · intro heads
    cases heads with
    | element _ kind opening named =>
      have tagged : Outline.tagOf? inElement n = some tag := by
        rw [Outline.tagOf?, if_pos kind, Option.orElse_eq_orElse, Option.orElse_eq_or]
        exact Option.or_eq_some_iff.mpr opening
      simp [Outline.head?, tagged, named]
    | stray _ kind outside named =>
      have plain : n.kind.isElement = false := by
        cases shape : n.kind with
        | terminal s => rfl
        | fault => rfl
        | nonterminal s => cases s <;> simp_all [Kind.isStartTag, Kind.isSelfClosingTag, Kind.isElement]
      have free : inElement = false := by
        rw [← Bool.not_eq_true, within]
        exact outside
      have tagged : Outline.tagOf? inElement n = some n := by
        have opening : (n.kind.isStartTag || n.kind.isSelfClosingTag) = true := by simpa using kind
        rw [Outline.tagOf?, plain, free, opening]
        rfl
      simp [Outline.head?, tagged, named]

theorem head?_isSome_iff (here : root.at? p = some n)
    (within : inElement = true ↔ root.InElement p) :
    (Outline.head? inElement n).isSome ↔ root.Qualifies p := by
  rw [Option.isSome_iff_exists]
  constructor
  · rintro ⟨⟨tag, name⟩, head⟩
    exact ⟨n, tag, name, (head?_iff here within tag name).mp head⟩
  · rintro ⟨m, tag, name, heads⟩
    obtain rfl := Option.some.inj (here.symm.trans (heads_at heads))
    exact ⟨(tag, name), (head?_iff here within tag name).mpr heads⟩

/-- The element at the second position is found by looking from the first one on. -/
def Exposed (root : Node) (p q : Position) : Prop :=
  p <+: q ∧ root.Qualifies q ∧ ∀ s, p <+: s → Inside s q → ¬ root.Sealed s

theorem exposed_of_sealed (closed : root.Sealed p) {q : Position} :
    root.Exposed p q ↔ q = p ∧ root.Qualifies p := by
  constructor
  · rintro ⟨before, qualified, open'⟩
    have same : q = p := by
      by_contra differs
      exact open' p (List.prefix_refl p) ⟨before, fun same => differs same.symm⟩ closed
    exact ⟨same, same ▸ qualified⟩
  · rintro ⟨rfl, qualified⟩
    refine ⟨List.prefix_refl q, qualified, ?_⟩
    intro s before inside
    exact absurd (inside.1.eq_of_length_le before.length_le) inside.2

theorem exposed_of_open (free : ¬ root.Sealed p) {q : Position} :
    root.Exposed p q ↔ q = p ∧ root.Qualifies p ∨ ∃ i, root.Exposed (p ++ [i]) q := by
  constructor
  · rintro ⟨before, qualified, free⟩
    rcases prefix_split before with rfl | ⟨i, deeper⟩
    · exact Or.inl ⟨rfl, qualified⟩
    · refine Or.inr ⟨i, deeper, qualified, ?_⟩
      intro s inner inside
      exact free s ((List.prefix_append p [i]).trans inner) inside
  · rintro (⟨rfl, qualified⟩ | ⟨i, before, qualified, open'⟩)
    · refine ⟨List.prefix_refl q, qualified, ?_⟩
      intro s before inside
      exact absurd (inside.1.eq_of_length_le before.length_le) inside.2
    · refine ⟨(List.prefix_append p [i]).trans before, qualified, ?_⟩
      intro s above inside
      rcases prefix_split above with rfl | ⟨j, deeper⟩
      · exact free
      · -- both `i` and `j` come after `p` on the way to `q`
        have same : p ++ [j] = p ++ [i] :=
          (List.prefix_of_prefix_length_le (deeper.trans inside.1) before (by simp)).eq_of_length
            (by simp)
        exact open' s (same ▸ deeper) inside

theorem prefix_lt {a b : Position} {i j : Nat} (first : p ++ [i] <+: a) (second : p ++ [j] <+: b)
    (less : i < j) : a < b := by
  obtain ⟨u, rfl⟩ := first
  obtain ⟨v, rfl⟩ := second
  induction p with
  | nil => exact List.cons_lt_cons_iff.mpr (Or.inl less)
  | cons k p ih => exact List.cons_lt_cons_iff.mpr (Or.inr ⟨rfl, ih⟩)

theorem lt_of_inside {q : Position} (inside : Inside p q) : p < q := by
  obtain ⟨⟨rest, rfl⟩, differs⟩ := inside
  induction p with
  | nil =>
    cases rest with
    | nil => exact absurd rfl differs
    | cons i rest => exact List.nil_lt_cons i rest
  | cons k p ih =>
    refine List.cons_lt_cons_iff.mpr (Or.inr ⟨rfl, ih ?_⟩)
    intro same
    exact differs (congrArg (k :: ·) same)

mutual

def sites (inElement : Bool) (p : Position) : Node → List Position
  | ⟨kind, span, line, missing, children⟩ =>
    if (Outline.head? inElement ⟨kind, span, line, missing, children⟩).isSome then
      p :: if kind.isElement then sitesOfAll true p 0 children else []
    else if kind.isTag && inElement then []
    else sitesOfAll kind.isElement p 0 children

def sitesOfAll (inElement : Bool) (p : Position) (i : Nat) : List Node → List Position
  | [] => []
  | n :: ns => sites inElement (p ++ [i]) n ++ sitesOfAll inElement p (i + 1) ns

end

mutual

theorem mem_sites_iff (root : Node) : ∀ (n : Node) (inElement : Bool) (p : Position),
    root.at? p = some n → (inElement = true ↔ root.InElement p) → ∀ q,
    q ∈ sites inElement p n ↔ root.Exposed p q
  | ⟨kind, span, line, missing, children⟩, inElement, p, here, within, q => by
    have below := mem_sitesOfAll_iff root children kind.isElement p 0
      ⟨kind, span, line, missing, children⟩ here rfl rfl q
    simp only [Nat.zero_le, true_and] at below
    have qualified := head?_isSome_iff here within
    rw [sites]
    split
    · rename_i head
      have itself := qualified.mp head
      by_cases element : kind.isElement = true
      · have free : ¬ root.Sealed p := by
          rintro ⟨m, found, closed⟩
          obtain rfl := Option.some.inj (here.symm.trans found)
          simp [element, isTag_of_isElement element] at closed
        rw [if_pos element, exposed_of_open free, List.mem_cons, ← below, element]
        simp [itself]
      · have closed : root.Sealed p := ⟨_, here, Or.inr ⟨element, itself⟩⟩
        rw [if_neg element, exposed_of_sealed closed]
        simp [itself]
    · rename_i head
      have other : ¬ root.Qualifies p := fun itself => head (qualified.mpr itself)
      split
      · rename_i tag
        rw [Bool.and_eq_true] at tag
        have closed : root.Sealed p := ⟨_, here, Or.inl ⟨tag.1, within.mp tag.2⟩⟩
        rw [exposed_of_sealed closed]
        simp [other]
      · rename_i tag
        have free : ¬ root.Sealed p := by
          rintro ⟨m, found, closed⟩
          obtain rfl := Option.some.inj (here.symm.trans found)
          rcases closed with ⟨isTag, inner⟩ | ⟨_, itself⟩
          · exact tag (by simp [show kind.isTag = true from isTag, within.mpr inner])
          · exact other itself
        rw [exposed_of_open free, below]
        simp [other]

theorem mem_sitesOfAll_iff (root : Node) : ∀ (ns : List Node) (inElement : Bool) (p : Position)
    (i : Nat) (m : Node), root.at? p = some m → m.kind.isElement = inElement →
    m.children.drop i = ns → ∀ q,
    q ∈ sitesOfAll inElement p i ns ↔ ∃ j, i ≤ j ∧ root.Exposed (p ++ [j]) q
  | [], inElement, p, i, m, here, _, rest, q => by
    have beyond : m.children.length ≤ i := List.drop_eq_nil_iff.mp rest
    rw [sitesOfAll]
    constructor
    · simp
    · rintro ⟨j, later, ⟨more, rfl⟩, ⟨n, tag, name, heads⟩, _⟩
      have found := heads_at heads
      rw [at?_append, at?_concat here, List.getElem?_eq_none (by omega)] at found
      simp at found
  | n :: ns, inElement, p, i, m, here, kind, rest, q => by
    have child : m.children[i]? = some n := by
      rw [← List.head?_drop, rest]
      rfl
    have first := mem_sites_iff root n inElement (p ++ [i]) ((at?_concat here i).trans child)
      (by rw [inElement_concat here, kind]) q
    have later := mem_sitesOfAll_iff root ns inElement p (i + 1) m here kind
      (by rw [← List.tail_drop, rest, List.tail_cons]) q
    rw [sitesOfAll, List.mem_append, first, later]
    constructor
    · rintro (exposed | ⟨j, lower, exposed⟩)
      · exact ⟨i, Nat.le_refl i, exposed⟩
      · exact ⟨j, by omega, exposed⟩
    · rintro ⟨j, lower, exposed⟩
      by_cases same : j = i
      · exact Or.inl (same ▸ exposed)
      · exact Or.inr ⟨j, by omega, exposed⟩

end

mutual

theorem sites_below : ∀ (n : Node) (inElement : Bool) (p q : Position),
    q ∈ sites inElement p n → p <+: q
  | ⟨kind, span, line, missing, children⟩, inElement, p, q, member => by
    have deeper : ∀ inElement, q ∈ sitesOfAll inElement p 0 children → p <+: q := by
      intro inElement member
      obtain ⟨j, _, before⟩ := sitesOfAll_below children inElement p 0 q member
      exact (List.prefix_append p [j]).trans before
    rw [sites] at member
    split at member
    · rcases List.mem_cons.mp member with rfl | rest
      · exact List.prefix_refl q
      · split at rest
        · exact deeper true rest
        · simp at rest
    · split at member
      · simp at member
      · exact deeper _ member

theorem sitesOfAll_below : ∀ (ns : List Node) (inElement : Bool) (p : Position) (i : Nat)
    (q : Position), q ∈ sitesOfAll inElement p i ns → ∃ j, i ≤ j ∧ p ++ [j] <+: q
  | [], _, _, _, q, member => by simp [sitesOfAll] at member
  | n :: ns, inElement, p, i, q, member => by
    rw [sitesOfAll, List.mem_append] at member
    rcases member with first | later
    · exact ⟨i, Nat.le_refl i, sites_below n inElement (p ++ [i]) q first⟩
    · obtain ⟨j, lower, before⟩ := sitesOfAll_below ns inElement p (i + 1) q later
      exact ⟨j, by omega, before⟩

end

mutual

theorem sites_ascending : ∀ (n : Node) (inElement : Bool) (p : Position),
    (sites inElement p n).Pairwise (· < ·)
  | ⟨kind, span, line, missing, children⟩, inElement, p => by
    rw [sites]
    split
    · refine List.pairwise_cons.mpr ⟨?_, ?_⟩
      · intro q member
        split at member
        · obtain ⟨j, _, before⟩ := sitesOfAll_below children true p 0 q member
          have inside : Inside p (p ++ [j]) := inside_concat.mpr (List.prefix_refl p)
          refine lt_of_inside ⟨inside.1.trans before, ?_⟩
          rintro rfl
          exact inside.2 (inside.1.eq_of_length_le before.length_le)
        · simp at member
      · split
        · exact sitesOfAll_ascending children true p 0
        · exact List.Pairwise.nil
    · split
      · exact List.Pairwise.nil
      · exact sitesOfAll_ascending children _ p 0

theorem sitesOfAll_ascending : ∀ (ns : List Node) (inElement : Bool) (p : Position) (i : Nat),
    (sitesOfAll inElement p i ns).Pairwise (· < ·)
  | [], _, _, _ => by
    rw [sitesOfAll]
    exact List.Pairwise.nil
  | n :: ns, inElement, p, i => by
    rw [sitesOfAll]
    refine List.pairwise_append.mpr ⟨sites_ascending n inElement (p ++ [i]),
      sitesOfAll_ascending ns inElement p (i + 1), ?_⟩
    intro a memberA b memberB
    have first := sites_below n inElement (p ++ [i]) a memberA
    obtain ⟨j, later, second⟩ := sitesOfAll_below ns inElement p (i + 1) b memberB
    exact prefix_lt first second (by omega)

end

end Markup.Node

open Node

namespace Site

def afterAll (t : Text) (s : Site) (row : List Outline) : Site := row.foldl (after t) s

theorem afterAll_parent (t : Text) (s : Site) (row : List Outline) :
    (s.afterAll t row).parent = s.parent := by
  induction row generalizing s with
  | nil => rfl
  | cons o row ih => exact ih (s.after t o)

theorem afterAll_index (t : Text) (s : Site) (row : List Outline) :
    (s.afterAll t row).index = s.index + Outline.sizeAll row := by
  induction row generalizing s with
  | nil => rfl
  | cons o row ih =>
    have rest := ih (s.after t o)
    rw [after_index] at rest
    rw [Outline.sizeAll, ← Nat.add_assoc]
    exact rest

theorem records_append (t : Text) (s : Site) (row more : List Outline) :
    s.records t (row ++ more) = s.records t row ++ (s.afterAll t row).records t more := by
  induction row generalizing s with
  | nil => rfl
  | cons o row ih =>
    have rest := ih (s.after t o)
    rw [List.cons_append, records_cons, records_cons, rest, List.cons_append, List.append_assoc]
    rfl

end Site

/-- What a record says of its element, apart from where the element stands among the others. -/
structure Record.Describes (t : Text) (n tag name : Node) (r : Record) : Prop where
  label : r.tag = name.span.slice t
  line : r.line = n.line
  attributes : r.attributes = Attribute.ofTag t tag
  outer : r.outer = n.span
  startTag : r.startTag = tag.span
  tagName : r.tagName = name.span
  selfClosing : r.selfClosing = tag.kind.isSelfClosingTag
  innerText : r.innerText = innerTextOf t n

/-- Records that belong to positions, one by one. The first record has the index of the site, and a
record has the parent of the site exactly where `scope` is the nearest element around it. -/
structure Listed (t : Text) (root : Node) (s : Site) (scope : Option Position)
    (records : List Record) (sites : List Position) : Prop where
  length : records.length = sites.length
  described : ∀ {k : Nat} {r : Record} {p : Position}, records[k]? = some r → sites[k]? = some p →
    ∃ n tag name, root.Heads p n tag name ∧ r.Describes t n tag name
  parent : ∀ {k : Nat} {r : Record} {p : Position}, records[k]? = some r → sites[k]? = some p →
    r.parent = s.parent ∧ root.Encloses p scope ∨
      ∃ j q, r.parent = some (s.index + j) ∧ sites[j]? = some q ∧ root.Encloses p (some q)

namespace Listed

variable {t : Text} {root : Node} {s : Site} {scope : Option Position}

theorem nil : Listed t root s scope [] [] where
  length := rfl
  described := by simp
  parent := by simp

theorem append {later : Site} {records more : List Record} {sites others : List Position}
    (first : Listed t root s scope records sites) (second : Listed t root later scope more others)
    (parent : later.parent = s.parent) (index : later.index = s.index + records.length) :
    Listed t root s scope (records ++ more) (sites ++ others) where
  length := by simp [first.length, second.length]
  described := by
    intro k r p record site
    by_cases early : k < records.length
    · rw [List.getElem?_append_left early] at record
      rw [List.getElem?_append_left (first.length ▸ early)] at site
      exact first.described record site
    · rw [List.getElem?_append_right (by omega)] at record
      rw [List.getElem?_append_right (by rw [← first.length]; omega), ← first.length] at site
      exact second.described record site
  parent := by
    intro k r p record site
    by_cases early : k < records.length
    · rw [List.getElem?_append_left early] at record
      rw [List.getElem?_append_left (first.length ▸ early)] at site
      rcases first.parent record site with outer | ⟨j, q, same, found, encloses⟩
      · exact Or.inl outer
      · have bound := (List.getElem?_eq_some_iff.mp found).1
        exact Or.inr ⟨j, q, same, by rw [List.getElem?_append_left bound, found], encloses⟩
    · rw [List.getElem?_append_right (by omega)] at record
      rw [List.getElem?_append_right (by rw [← first.length]; omega), ← first.length] at site
      rcases second.parent record site with ⟨same, encloses⟩ | ⟨j, q, same, found, encloses⟩
      · exact Or.inl ⟨same.trans parent, encloses⟩
      · refine Or.inr ⟨records.length + j, q, ?_, ?_, encloses⟩
        · rw [same, index, Nat.add_assoc]
        · rw [first.length, List.getElem?_append_right (by omega), Nat.add_sub_cancel_left, found]

theorem cons {o : Outline} {p : Position} {records : List Record} {sites : List Position}
    (heads : root.Heads p o.node o.tag o.name) (encloses : root.Encloses p scope)
    (children : Listed t root (s.inside t o) (some p) records sites) :
    Listed t root s scope (s.record t o :: records) (p :: sites) where
  length := by simp [children.length]
  described := by
    intro k r q record site
    cases k with
    | zero =>
      obtain rfl := Option.some.inj record
      obtain rfl := Option.some.inj site
      exact ⟨o.node, o.tag, o.name, heads, ⟨rfl, rfl, rfl, rfl, rfl, rfl, rfl, rfl⟩⟩
    | succ k => exact children.described record site
  parent := by
    intro k r q record site
    cases k with
    | zero =>
      obtain rfl := Option.some.inj record
      obtain rfl := Option.some.inj site
      exact Or.inl ⟨rfl, encloses⟩
    | succ k =>
      right
      rcases children.parent record site with ⟨same, inner⟩ | ⟨j, q, same, found, inner⟩
      · exact ⟨0, p, same, rfl, inner⟩
      · refine ⟨j + 1, q, ?_, found, inner⟩
        rw [same, Site.inside_index, Nat.add_assoc, Nat.add_comm 1]

end Listed

namespace Outline

-- The induction follows the tree; a node that is looked through leaves site and scope as they are.
mutual

theorem ofNode_listed (t : Text) (root : Node) : ∀ (n : Node) (inElement : Bool) (p : Position)
    (scope : Option Position) (s : Site), root.at? p = some n →
    (inElement = true ↔ root.InElement p) → root.Encloses p scope →
    Listed t root s scope (s.records t (ofNode inElement n)) (sites inElement p n)
  | ⟨kind, span, line, missing, children⟩, inElement, p, scope, s, here, within, encloses => by
    have qualified := head?_isSome_iff here within
    rw [ofNode, sites]
    cases head : head? inElement ⟨kind, span, line, missing, children⟩ with
    | some pair =>
      obtain ⟨tag, name⟩ := pair
      have itself : root.Qualifies p := qualified.mp (by rw [head]; rfl)
      have heads := (head?_iff here within tag name).mp head
      simp only [Option.isSome_some, if_true]
      rw [Site.records_cons, show Site.records t _ [] = [] from rfl, List.append_nil]
      refine Listed.cons heads encloses ?_
      dsimp only
      split
      · rename_i element
        exact ofNodes_listed t root children true p 0 _ (some p) _ here element rfl
          (fun i => encloses_concat_qualified itself i)
      · exact Listed.nil
    | none =>
      have other : ¬ root.Qualifies p := by
        rw [← qualified, head]
        simp
      simp only [Option.isSome_none, Bool.false_eq_true, if_false]
      split
      · exact Listed.nil
      · exact ofNodes_listed t root children kind.isElement p 0 _ scope s here rfl rfl
          (fun i => encloses_concat_other encloses other i)

theorem ofNodes_listed (t : Text) (root : Node) : ∀ (ns : List Node) (inElement : Bool)
    (p : Position) (i : Nat) (m : Node) (scope : Option Position) (s : Site),
    root.at? p = some m → m.kind.isElement = inElement → m.children.drop i = ns →
    (∀ j, root.Encloses (p ++ [j]) scope) →
    Listed t root s scope (s.records t (ofNodes inElement ns)) (sitesOfAll inElement p i ns)
  | [], _, _, _, _, _, _, _, _, _, _ => by
    rw [ofNodes, sitesOfAll]
    exact Listed.nil
  | n :: ns, inElement, p, i, m, scope, s, here, kind, rest, encloses => by
    have child : m.children[i]? = some n := by
      rw [← List.head?_drop, rest]
      rfl
    have first := ofNode_listed t root n inElement (p ++ [i]) scope s
      ((at?_concat here i).trans child) (by rw [inElement_concat here, kind]) (encloses i)
    have later := ofNodes_listed t root ns inElement p (i + 1) m scope
      (s.afterAll t (ofNode inElement n)) here kind
      (by rw [← List.tail_drop, rest, List.tail_cons]) encloses
    rw [ofNodes, sitesOfAll, Site.records_append]
    refine first.append later (Site.afterAll_parent t s _) ?_
    rw [Site.afterAll_index, Site.records_length]

end

end Outline

namespace Document

/-- The positions are those of the elements of the tree, in preorder; each has the record of its
element, whose parent is the record of the nearest element around it. -/
structure InPreorder (t : Text) (root : Node) (sites : List Position) : Prop where
  ascending : sites.Pairwise (· < ·)
  exact : ∀ p, p ∈ sites ↔ root.Qualifies p ∧ ¬ root.Hidden p
  length : (ofNode t root).size = sites.length
  described : ∀ {i : Nat} {r : Record} {p : Position}, (ofNode t root).record? i = some r →
    sites[i]? = some p → ∃ n tag name, root.Heads p n tag name ∧ r.Describes t n tag name
  parent : ∀ {i : Nat} {r : Record} {p : Position}, (ofNode t root).record? i = some r →
    sites[i]? = some p → r.parent = none ∧ root.Encloses p none ∨
      ∃ j q, r.parent = some j ∧ sites[j]? = some q ∧ root.Encloses p (some q)

theorem records_in_preorder (t : Text) (root : Node)
    (plain : ¬ root.kind.isTag ∧ ¬ root.kind.isElement) : ∃ sites, InPreorder t root sites := by
  have top : root.at? [] = some root := rfl
  have within : ¬ root.InElement [] := by
    rintro ⟨q, i, m, same, _⟩
    simp at same
  have other : ¬ root.Qualifies [] := by
    rintro ⟨n, tag, name, heads⟩
    obtain rfl := Option.some.inj (top.symm.trans (heads_at heads))
    cases heads with
    | element _ kind _ _ => exact plain.2 kind
    | stray _ kind _ _ =>
      apply plain.1
      rcases kind with start | closing
      · simp [Kind.isTag, start]
      · simp [Kind.isTag, closing]
  have free : ¬ root.Sealed [] := by
    rintro ⟨n, _, ⟨_, inner⟩ | ⟨_, itself⟩⟩
    · exact within inner
    · exact other itself
  have outside : root.Encloses [] none := by
    intro s inside
    exact absurd (List.prefix_nil.mp inside.1) inside.2
  have outermost : ∀ i, root.Encloses ([] ++ [i]) none := encloses_concat_other outside other
  have listed := Outline.ofNodes_listed t root root.children root.kind.isElement [] 0 root none
    origin top rfl rfl outermost
  refine ⟨sitesOfAll root.kind.isElement [] 0 root.children, ?_, ?_, listed.length,
    listed.described, ?_⟩
  · exact sitesOfAll_ascending root.children _ [] 0
  · intro p
    rw [mem_sitesOfAll_iff root root.children _ [] 0 root top rfl rfl p]
    simp only [Nat.zero_le, true_and]
    have split := exposed_of_open free (q := p)
    simp only [other, and_false, false_or] at split
    rw [← split]
    constructor
    · rintro ⟨_, qualified, open'⟩
      refine ⟨qualified, ?_⟩
      rintro ⟨q, inside, closed⟩
      exact open' q List.nil_prefix inside closed
    · rintro ⟨qualified, seen⟩
      exact ⟨List.nil_prefix, qualified, fun q _ inside closed => seen ⟨q, inside, closed⟩⟩
  · intro i r p record site
    rcases listed.parent record site with outer | ⟨j, q, same, found, encloses⟩
    · exact Or.inl outer
    · rw [origin, Nat.zero_add] at same
      exact Or.inr ⟨j, q, same, found, encloses⟩

theorem strayTagTree_in_preorder :
    (¬ strayTagTree.kind.isTag ∧ ¬ strayTagTree.kind.isElement) ∧
      ∃ sites, InPreorder "<p a><b/></p><i>" strayTagTree sites :=
  ⟨by decide, records_in_preorder _ strayTagTree (by decide)⟩

end Document

end TemplateMarkup
