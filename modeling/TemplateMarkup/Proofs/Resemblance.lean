import TemplateMarkup.Document.Basic
import TemplateMarkup.Proofs.Markup.Likeness
import TemplateMarkup.Proofs.Markup.Shapes

/-!
What alike trees show. Their nodes are of the same kinds and nested in the same way, so the elements of
the two documents have the same tags and paths, and their attributes stand in the same order. What the
tokens have in common, the names and values of attributes have in common.
-/
namespace TemplateMarkup

open Markup

/-- What two tokens have in common, by their bytes. -/
abbrev Bond := Terminal → Span → Span → Prop

def Names (t t' : Text) (bond : Bond) : Prop :=
  ∀ a s s', (Kind.terminal a).isTagName ∨ a = .attributeName → bond a s s' → s'.slice t' = s.slice t

namespace Markup.Node

open Cursor

inductive Alike (bond : Bond) : Node → Node → Prop where
  | intro (n n' : Node) (kind : n'.kind = n.kind)
      (bound : ∀ a, n.kind = .terminal a → bond a n.span n'.span)
      (quoted : n.kind.isQuotedValue → ∀ c ∈ n.children, c.kind ≠ .terminal .attributeValue)
      (length : n.children.length = n'.children.length)
      (below : ∀ m m', (m, m') ∈ n.children.zip n'.children → Alike bond m m') : Alike bond n n'

variable {bond : Bond} {n n' : Node}

namespace Alike

theorem kind (alike : Alike bond n n') : n'.kind = n.kind := by
  cases alike
  assumption

theorem bound {a : Terminal} (alike : Alike bond n n') (kind : n.kind = .terminal a) :
    bond a n.span n'.span := by
  cases alike with
  | intro _ _ _ bound => exact bound a kind

/-- A value between quotation marks is not one that stands without them. -/
theorem quoted (alike : Alike bond n n') (kind : n.kind.isQuotedValue) :
    ∀ c ∈ n.children, c.kind ≠ .terminal .attributeValue := by
  cases alike with
  | intro _ _ _ _ quoted => exact quoted kind

theorem children (alike : Alike bond n n') : List.Forall₂ (Alike bond) n.children n'.children := by
  cases alike with
  | intro _ _ _ _ _ length below => exact List.forall₂_iff_zip.mpr ⟨length, fun pair => below _ _ pair⟩

end Alike

theorem alike_of (kind : n'.kind = n.kind) (bound : ∀ a, n.kind = .terminal a → bond a n.span n'.span)
    (quoted : n.kind.isQuotedValue → ∀ c ∈ n.children, c.kind ≠ .terminal .attributeValue)
    (children : List.Forall₂ (Alike bond) n.children n'.children) : Alike bond n n' :=
  .intro n n' kind bound quoted children.length_eq fun _ _ pair => List.forall₂_zip children pair

theorem alike_child? (p : Kind → Bool) (alike : Alike bond n n') :
    n.child? p = none ∧ n'.child? p = none ∨ ∃ c c', n.child? p = some c ∧ n'.child? p = some c' ∧
      Alike bond c c' ∧ p c.kind = true := by
  have children := alike.children
  unfold child?
  generalize n.children = ns, n'.children = ns' at children
  induction children with
  | nil => exact Or.inl ⟨rfl, rfl⟩
  | @cons c c' _ _ head _ ih =>
    rw [List.find?_cons, List.find?_cons, head.kind]
    cases found : p c.kind with
    | true => exact Or.inr ⟨c, c', rfl, rfl, head, found⟩
    | false => exact ih

theorem shown_hidden {x : Tree} (hidden : x.label.isShown = false) : shown x = shownAll x.children := by
  obtain ⟨label, info, children⟩ := x
  cases label with
  | terminal s =>
    rw [shown]
    exact if_neg (Bool.eq_false_iff.mp hidden)
  | nonterminal s =>
    rw [shown]
    exact if_neg (Bool.eq_false_iff.mp hidden)
  | fault => cases hidden
  | skipped => rw [shown]

/-- Tokens that are tied are bound by their bytes. -/
def Binds (t' : Text) (tie : Tie) (bond : Bond) : Prop :=
  ∀ a s c d, tie a s c d → c.In t' → c.Reaches d → bond a s ⟨c.offset, d.offset⟩

section Shown

variable {tie : Tie} {t t' : Text}

theorem shownAll_tokens {xs : List Tree} (inside : ∀ x ∈ xs, x.Inside t)
    (tokens : ∀ x ∈ xs, ∃ a : Terminal, x.label = .terminal a ∧ a.isShown = true ∧ a ≠ .attributeValue) :
    ∀ c ∈ shownAll xs, c.kind ≠ .terminal .attributeValue := by
  induction xs with
  | nil => simp [shownAll]
  | cons x xs ih =>
    obtain ⟨here, later⟩ := List.forall_mem_cons.mp inside
    obtain ⟨⟨a, label, visible, other⟩, tokens⟩ := List.forall_mem_cons.mp tokens
    obtain ⟨n, single, shows⟩ := shown_single here (label ▸ visible)
    rw [shownAll, single]
    refine List.forall_mem_cons.mpr ⟨fun kind => ?_, ih later tokens⟩
    have same := shows.label
    rw [kind, label] at same
    exact other (Label.terminal.inj same).symm

theorem alike_shows {x x' : Tree} (ruled : x.Ruled) (binds : Binds t' tie bond)
    (alike : Tree.Alike tie x x') (shows : n.Shows t x)
    (shows' : n'.Shows t' x') (below : List.Forall₂ (Alike bond) n.children n'.children) :
    Alike bond n n' := by
  have kinds : n'.kind = n.kind :=
    Kind.label_injective (shows'.label.trans (alike.label.trans shows.label.symm))
  refine alike_of kinds (fun a kind => ?_) (fun kind => ?_) below
  swap
  · have label : x.label = .nonterminal .quotedValue := by rw [← shows.label, beq_iff_eq.mp kind]; rfl
    rw [shows.children]
    exact shownAll_tokens (fun _ => shows.inside.child) fun _ => ruled.quoted label
  have label : x.label = .terminal a := by rw [← shows.label, kind]; rfl
  have sound' := shows'.inside.sound.here
  have start' := in_reaches shows'.inside.origin sound'.lead
  rw [shows.span, shows'.span]
  exact binds a _ _ _ (alike.tied (shows.inside.sound.here.leaf a label) label) start' sound'.body

mutual

theorem alike_shown (binds : Binds t' tie bond) : ∀ x x' : Tree, Tree.Alike tie x x' → x.Ruled →
    x.Inside t → x'.Inside t' → List.Forall₂ (Alike bond) (shown x) (shown x')
  | ⟨label, info, children⟩, x', alike, ruled, inside, inside' => by
    have below := alike_shownAll binds children x'.children alike.children (fun _ => ruled.child)
      (fun _ => inside.child) (fun _ => inside'.child)
    have labels : x'.label = label := alike.label
    cases visible : label.isShown with
    | true =>
      obtain ⟨n, single, shows⟩ := shown_single inside visible
      obtain ⟨n', single', shows'⟩ := shown_single inside' (labels ▸ visible)
      rw [single, single']
      refine .cons (alike_shows ruled binds alike shows shows' ?_) .nil
      rw [shows.children, shows'.children]
      exact below
    | false =>
      rw [shown_hidden visible, shown_hidden (labels ▸ visible)]
      exact below

theorem alike_shownAll (binds : Binds t' tie bond) : ∀ xs xs' : List Tree,
    List.Forall₂ (Tree.Alike tie) xs xs' →
    (∀ x ∈ xs, x.Ruled) → (∀ x ∈ xs, x.Inside t) → (∀ x ∈ xs', x.Inside t') →
    List.Forall₂ (Alike bond) (shownAll xs) (shownAll xs')
  | [], _, alike, _, _, _ => by
    cases alike
    exact .nil
  | x :: xs, _, alike, ruled, inside, inside' => by
    cases alike with
    | cons head tail =>
      obtain ⟨rule, rules⟩ := List.forall_mem_cons.mp ruled
      obtain ⟨here, later⟩ := List.forall_mem_cons.mp inside
      obtain ⟨here', later'⟩ := List.forall_mem_cons.mp inside'
      rw [shownAll, shownAll]
      exact List.rel_append (alike_shown binds x _ head rule here here')
        (alike_shownAll binds xs _ tail rules later later')

end

theorem alike_read (binds : Binds t' tie bond) (alike : Tree.Alike tie (Reader.read t) (Reader.read t'))
    (ruled : (Reader.read t).Ruled) : Alike bond (read t) (read t') := by
  have whole := Reader.read_whole t
  have whole' := Reader.read_whole t'
  have shown := alike_shown binds _ _ alike ruled ⟨whole.sound, whole.inside⟩ ⟨whole'.sound, whole'.inside⟩
  unfold read
  generalize Node.shown (Reader.read t) = ns, Node.shown (Reader.read t') = ns' at shown
  cases shown with
  | nil => exact alike_of rfl nofun nofun .nil
  | cons head _ => exact head

end Shown

end Markup.Node

namespace Attribute

open Node

/-- The values of attributes are tokens that are bound; one that may only stand without quotation marks
has none. -/
def BoundValue (bond : Bond) (quote : Option Char) (s s' : Span) : Prop :=
  ∃ b : Terminal, (Kind.terminal b).isAttributeValue ∧ (b = .attributeValue → quote = none) ∧ bond b s s'

/-- Attributes with the same name whose values are bound, or empty between the quotation marks. -/
structure Alike (bond : Bond) (a a' : Attribute) : Prop where
  name : a'.name = a.name
  value : Option.Rel (fun s s' => BoundValue bond a.quote s s' ∨ a.value = some [] ∧ a'.value = some [])
    a.valueSpan a'.valueSpan

variable {bond : Bond} {t t' : Text} {n n' : Node}

theorem bound_value {quote : Option Char} (alike : Node.Alike bond n n') (kind : n.kind.isAttributeValue)
    (bare : n.kind = .terminal .attributeValue → quote = none) : BoundValue bond quote n.span n'.span := by
  cases same : n.kind with
  | terminal b =>
    refine ⟨b, same ▸ kind, ?_, alike.bound same⟩
    rintro rfl
    exact bare same
  | nonterminal m =>
    rw [same] at kind
    cases kind
  | fault =>
    rw [same] at kind
    cases kind

theorem alike_readValue (alike : Node.Alike bond n n') :
    Option.Rel (fun s s' => BoundValue bond (readValue t n).2.2 s s' ∨
        (readValue t n).1 = some [] ∧ (readValue t' n').1 = some [])
      (readValue t n).2.1 (readValue t' n').2.1 := by
  unfold readValue
  rcases alike_child? Kind.isQuotedValue alike with ⟨none, none'⟩ | ⟨q, q', some, some', quoted, marks⟩
  · rw [none, none']
    rcases alike_child? Kind.isAttributeValue alike with ⟨none, none'⟩ | ⟨v, v', some, some', value, kind⟩
    · rw [none, none']
      exact .none
    · rw [some, some']
      exact .some (Or.inl (bound_value value kind fun _ => rfl))
  · rw [some, some']
    dsimp only
    rcases alike_child? Kind.isAttributeValue quoted with ⟨none, none'⟩ | ⟨v, v', some, some', value, kind⟩
    · rw [none, none']
      exact .some (Or.inr ⟨rfl, rfl⟩)
    · rw [some, some']
      refine .some (Or.inl (bound_value value kind fun bare => ?_))
      exact absurd bare (quoted.quoted marks v (child?_mem some).1)

theorem alike_ofNode? (names : Names t t' bond) (alike : Node.Alike bond n n') :
    Option.Rel (Alike bond) (ofNode? t n) (ofNode? t' n') := by
  unfold ofNode?
  rw [alike.kind]
  split
  · rcases alike_child? Kind.isAttributeName alike with ⟨none, none'⟩ | ⟨c, c', some, some', name, kind⟩
    · rw [none, none']
      exact .none
    · rw [some, some']
      exact .some ⟨names _ _ _ (Or.inr rfl) (name.bound (beq_iff_eq.mp kind)), alike_readValue alike⟩
  · exact .none

theorem alike_ofTag (names : Names t t' bond) (alike : Node.Alike bond n n') :
    List.Forall₂ (Alike bond) (ofTag t n) (ofTag t' n') :=
  List.rel_filterMap (fun _ _ both => alike_ofNode? names both) alike.children

end Attribute

namespace Outline

open Node

inductive Alike (bond : Bond) : Outline → Outline → Prop where
  | intro (o o' : Outline) (tag : Node.Alike bond o.tag o'.tag) (name : Node.Alike bond o.name o'.name)
      (named : o.name.kind.isTagName) (length : o.children.length = o'.children.length)
      (below : ∀ u u', (u, u') ∈ o.children.zip o'.children → Alike bond u u') : Alike bond o o'

variable {bond : Bond} {n n' : Node} {o o' : Outline}

namespace Alike

theorem tag (alike : Alike bond o o') : Node.Alike bond o.tag o'.tag := by
  cases alike
  assumption

theorem name (alike : Alike bond o o') : Node.Alike bond o.name o'.name := by
  cases alike
  assumption

theorem named (alike : Alike bond o o') : o.name.kind.isTagName := by
  cases alike
  assumption

theorem children (alike : Alike bond o o') : List.Forall₂ (Alike bond) o.children o'.children := by
  cases alike with
  | intro _ _ _ _ _ length below => exact List.forall₂_iff_zip.mpr ⟨length, fun pair => below _ _ pair⟩

end Alike

theorem alike_of (tag : Node.Alike bond o.tag o'.tag) (name : Node.Alike bond o.name o'.name)
    (named : o.name.kind.isTagName) (children : List.Forall₂ (Alike bond) o.children o'.children) :
    Alike bond o o' :=
  .intro o o' tag name named children.length_eq fun _ _ pair => List.forall₂_zip children pair

theorem alike_head? (inElement : Bool) (alike : Node.Alike bond n n') :
    head? inElement n = none ∧ head? inElement n' = none ∨ ∃ tag tag' name name',
      head? inElement n = some (tag, name) ∧ head? inElement n' = some (tag', name') ∧
        Node.Alike bond tag tag' ∧ Node.Alike bond name name' ∧ name.kind.isTagName := by
  have tags : tagOf? inElement n = none ∧ tagOf? inElement n' = none ∨ ∃ tag tag',
      tagOf? inElement n = some tag ∧ tagOf? inElement n' = some tag' ∧ Node.Alike bond tag tag' := by
    unfold tagOf?
    rw [alike.kind]
    split
    · rcases alike_child? Kind.isStartTag alike with ⟨none, none'⟩ | ⟨c, c', some, some', tag, -⟩
      · rw [none, none']
        rcases alike_child? Kind.isSelfClosingTag alike with ⟨none, none'⟩ | ⟨c, c', some, some', tag, -⟩
        · exact Or.inl ⟨none, none'⟩
        · exact Or.inr ⟨c, c', some, some', tag⟩
      · rw [some, some']
        exact Or.inr ⟨c, c', rfl, rfl, tag⟩
    · split
      · exact Or.inr ⟨n, n', rfl, rfl, alike⟩
      · exact Or.inl ⟨rfl, rfl⟩
  unfold head?
  rcases tags with ⟨none, none'⟩ | ⟨tag, tag', some, some', both⟩
  · rw [none, none']
    exact Or.inl ⟨rfl, rfl⟩
  · rw [some, some', Option.bind_some, Option.bind_some]
    rcases alike_child? Kind.isTagName both with ⟨none, none'⟩ | ⟨c, c', some, some', name, kind⟩
    · rw [none, none']
      exact Or.inl ⟨rfl, rfl⟩
    · rw [some, some']
      exact Or.inr ⟨tag, tag', c, c', rfl, rfl, both, name, kind⟩

mutual

theorem alike_ofNode (inElement : Bool) : ∀ n n' : Node, Node.Alike bond n n' →
    List.Forall₂ (Alike bond) (ofNode inElement n) (ofNode inElement n')
  | ⟨kind, span, line, missing, children⟩, ⟨kind', span', line', missing', children'⟩, alike => by
    have kinds : kind' = kind := alike.kind
    have below := fun inside => alike_ofNodes inside children children' alike.children
    rw [ofNode, ofNode]
    rcases alike_head? inElement alike with
      ⟨none, none'⟩ | ⟨tag, tag', name, name', some, some', both, names, named⟩
    · rw [none, none', kinds]
      dsimp only
      split
      · exact .nil
      · exact below _
    · rw [some, some', kinds]
      refine .cons (alike_of both names named ?_) .nil
      dsimp only
      split
      · exact below true
      · exact .nil

theorem alike_ofNodes (inElement : Bool) : ∀ ns ns' : List Node, List.Forall₂ (Node.Alike bond) ns ns' →
    List.Forall₂ (Alike bond) (ofNodes inElement ns) (ofNodes inElement ns')
  | [], _, alike => by
    cases alike
    exact .nil
  | n :: ns, _, alike => by
    cases alike with
    | cons head tail =>
      rw [ofNodes, ofNodes]
      exact List.rel_append (alike_ofNode inElement n _ head) (alike_ofNodes inElement ns _ tail)

end

theorem alike_ofRoot (alike : Node.Alike bond n n') :
    List.Forall₂ (Alike bond) (ofRoot n) (ofRoot n') := by
  rw [ofRoot, ofRoot, alike.kind]
  exact alike_ofNodes _ _ _ alike.children

mutual

theorem alike_size : ∀ o o' : Outline, Alike bond o o' → o'.size = o.size
  | ⟨_, _, _, children⟩, ⟨_, _, _, children'⟩, alike => by
    rw [size, size, alike_sizeAll children children' alike.children]

theorem alike_sizeAll : ∀ os os' : List Outline, List.Forall₂ (Alike bond) os os' →
    sizeAll os' = sizeAll os
  | [], _, alike => by
    cases alike
    rfl
  | o :: os, _, alike => by
    cases alike with
    | cons head tail => rw [sizeAll, sizeAll, alike_size o _ head, alike_sizeAll os _ tail]

end

end Outline

namespace Record

open Outline

/-- Elements that agree in all but the places in their texts, and in attributes that are alike. -/
structure Alike (bond : Bond) (r r' : Record) : Prop where
  tag : r'.tag = r.tag
  path : r'.path = r.path
  parent : r'.parent = r.parent
  children : r'.children = r.children
  subtreeEnd : r'.subtreeEnd = r.subtreeEnd
  selfClosing : r'.selfClosing = r.selfClosing
  attributes : List.Forall₂ (Attribute.Alike bond) r.attributes r'.attributes

variable {bond : Bond} {t t' : Text}

theorem alike_indicesFrom (index : Nat) {os os' : List Outline}
    (alike : List.Forall₂ (Outline.Alike bond) os os') : indicesFrom index os' = indicesFrom index os := by
  induction alike generalizing index with
  | nil => rfl
  | cons head _ ih => rw [indicesFrom, indicesFrom, alike_size _ _ head, ih]

theorem alike_label (names : Names t t' bond) {o o' : Outline} (alike : Outline.Alike bond o o') :
    o'.name.span.slice t' = o.name.span.slice t := by
  obtain ⟨a, kind, -⟩ := isTagName_cases alike.named
  exact names a _ _ (Or.inl (kind ▸ alike.named)) (alike.name.bound kind)

mutual

theorem alike_ofOutline (names : Names t t' bond) (parent : Option Nat) (path : Text) (before : List Text)
    (index : Nat) : ∀ o o' : Outline, Outline.Alike bond o o' →
    List.Forall₂ (Alike bond) (ofOutline t parent path before index o)
      (ofOutline t' parent path before index o')
  | ⟨node, tag, name, children⟩, ⟨node', tag', name', children'⟩, alike => by
    have label : name'.span.slice t' = name.span.slice t := alike_label names alike
    have kind : tag'.kind = tag.kind := alike.tag.kind
    have below : List.Forall₂ (Outline.Alike bond) children children' := alike.children
    rw [ofOutline, ofOutline]
    refine .cons ⟨label, ?_, rfl, ?_, ?_, ?_, Attribute.alike_ofTag names alike.tag⟩ ?_
    · rw [label]
    · exact alike_indicesFrom _ below
    · rw [alike_sizeAll _ _ below]
    · rw [kind]
    · rw [label]
      exact alike_ofOutlines names _ _ _ _ children children' below

theorem alike_ofOutlines (names : Names t t' bond) (parent : Option Nat) (path : Text)
    (before : List Text) (index : Nat) : ∀ os os' : List Outline,
    List.Forall₂ (Outline.Alike bond) os os' →
    List.Forall₂ (Alike bond) (ofOutlines t parent path before index os)
      (ofOutlines t' parent path before index os')
  | [], _, alike => by
    cases alike
    exact .nil
  | o :: os, _, alike => by
    cases alike with
    | cons head tail =>
      rw [ofOutlines, ofOutlines, alike_label names head, alike_size _ _ head]
      exact List.rel_append (alike_ofOutline names parent path before index o _ head)
        (alike_ofOutlines names parent path _ _ os _ tail)

end

end Record

namespace Document

variable {t t' : Text} {tie : Tie} {bond : Bond}

theorem alike_ofNode {root root' : Node} (names : Names t t' bond) (alike : Node.Alike bond root root') :
    (ofNode t' root').roots = (ofNode t root).roots ∧
      List.Forall₂ (Record.Alike bond) (ofNode t root).records (ofNode t' root').records := by
  have outlines := Outline.alike_ofRoot alike
  exact ⟨Record.alike_indicesFrom 0 outlines, Record.alike_ofOutlines names none [] [] 0 _ _ outlines⟩

theorem alike_read (binds : Node.Binds t' tie bond) (names : Names t t' bond)
    (alike : Tree.Alike tie (Reader.read t) (Reader.read t')) (ruled : (Reader.read t).Ruled) :
    (Document.read t').roots = (Document.read t).roots ∧
      List.Forall₂ (Record.Alike bond) (Document.read t).records (Document.read t').records :=
  alike_ofNode names (Node.alike_read binds alike ruled)

end Document

end TemplateMarkup
