import Mathlib.Data.List.Forall2
import TemplateMarkup.Diagnostic
import TemplateMarkup.Proofs.Json.Inline
import TemplateMarkup.Proofs.Lines
import TemplateMarkup.Proofs.Markup.Shapes
import TemplateMarkup.Proofs.Preorder

/-!
Diagnostics against the positions of a syntax tree. There is one for each node at fault that lies in no
other one, in preorder, and each is one line of text. So much is true of every tree whose lines do not
decrease and whose stray names are single lines, and the tree of every text is such a tree.
-/
namespace TemplateMarkup

open Markup

namespace Markup.Node

/-- The node is missing, fits no rule, or is an end tag that ends nothing. -/
def Faulty (n : Node) : Prop := n.missing ∨ n.kind = .fault ∨ n.kind.isStrayEndTag

instance (n : Node) : Decidable n.Faulty := inferInstanceAs (Decidable (_ ∨ _ ∨ _))

structure OuterFault (root : Node) (p : Position) (n : Node) : Prop where
  here : root.at? p = some n
  faulty : n.Faulty
  outer : ∀ q m, Inside q p → root.at? q = some m → ¬ m.Faulty

/-- No node starts on a line before that of a node that precedes it in preorder. -/
def Rising (root : Node) : Prop := root.nodes.Pairwise fun m n => m.line ≤ n.line

/-- The names of stray end tags have no line ends. -/
def PlainNames (t : Text) (root : Node) : Prop :=
  ∀ n, root.Within n → n.kind.isStrayEndName → '\n' ∉ n.span.slice t

instance (root : Node) : Decidable root.Rising :=
  inferInstanceAs (Decidable (root.nodes.Pairwise fun m n => m.line ≤ n.line))

instance (t : Text) (root : Node) : Decidable (root.PlainNames t) :=
  inferInstanceAs (Decidable (∀ n, root.Within n → n.kind.isStrayEndName → '\n' ∉ n.span.slice t))

variable {root n m : Node} {p q : Position} {i : Nat}

theorem inside_cons : Inside q (i :: p) ↔ q = [] ∨ ∃ r, q = i :: r ∧ Inside r p := by
  cases q with
  | nil => simp [Inside]
  | cons j q =>
    rw [Inside, List.cons_prefix_cons]
    constructor
    · rintro ⟨⟨rfl, before⟩, differs⟩
      exact Or.inr ⟨q, rfl, before, fun same => differs (same ▸ rfl)⟩
    · rintro (none | ⟨r, same, before, differs⟩)
      · cases none
      · obtain ⟨rfl, rfl⟩ := List.cons.inj same
        exact ⟨⟨rfl, before⟩, fun same => differs (List.cons.inj same).2⟩

theorem within_of_at? (here : root.at? p = some n) : root.Within n := by
  induction p generalizing root with
  | nil =>
    obtain rfl := Option.some.inj here
    exact Within.root
  | cons i p ih =>
    obtain ⟨c, child, below⟩ := Option.bind_eq_some_iff.mp here
    exact within_child (List.mem_of_getElem? child) (ih below)

theorem outerFault_nil : root.OuterFault [] n ↔ n = root ∧ root.Faulty := by
  constructor
  · rintro ⟨here, faulty, _⟩
    obtain rfl := Option.some.inj here
    exact ⟨rfl, faulty⟩
  · rintro ⟨rfl, faulty⟩
    exact ⟨rfl, faulty, fun q m inside _ => absurd (List.prefix_nil.mp inside.1) inside.2⟩

theorem outerFault_cons : root.OuterFault (i :: p) n ↔
    ¬ root.Faulty ∧ ∃ c, root.children[i]? = some c ∧ c.OuterFault p n := by
  constructor
  · rintro ⟨here, faulty, outer⟩
    obtain ⟨c, child, below⟩ := Option.bind_eq_some_iff.mp here
    refine ⟨outer [] root (inside_cons.mpr (Or.inl rfl)) rfl, c, child, below, faulty, ?_⟩
    intro q m inside found
    refine outer (i :: q) m (inside_cons.mpr (Or.inr ⟨q, rfl, inside⟩)) ?_
    rw [at?, child, Option.bind_some, found]
  · rintro ⟨sound, c, child, below, faulty, outer⟩
    refine ⟨by rw [at?, child, Option.bind_some, below], faulty, ?_⟩
    intro q m inside found
    rcases inside_cons.mp inside with rfl | ⟨r, rfl, deeper⟩
    · obtain rfl := Option.some.inj found
      exact sound
    · rw [at?, child, Option.bind_some] at found
      exact outer r m deeper found

mutual

def outerFaults : Node → List (Position × Node)
  | ⟨kind, span, line, missing, children⟩ =>
    if Faulty ⟨kind, span, line, missing, children⟩ then [([], ⟨kind, span, line, missing, children⟩)]
    else outerFaultsFrom 0 children

def outerFaultsFrom (i : Nat) : List Node → List (Position × Node)
  | [] => []
  | n :: ns => (outerFaults n).map (fun x => (i :: x.1, x.2)) ++ outerFaultsFrom (i + 1) ns

end

mutual

theorem mem_outerFaults : ∀ (root : Node) (p : Position) (n : Node),
    (p, n) ∈ outerFaults root ↔ root.OuterFault p n
  | ⟨kind, span, line, missing, children⟩, p, n => by
    have below := mem_outerFaultsFrom children 0 p n
    rw [outerFaults]
    split
    · rename_i faulty
      cases p with
      | nil => simp [outerFault_nil, faulty]
      | cons i p => simp [outerFault_cons, faulty]
    · rename_i sound
      rw [below]
      cases p with
      | nil => simp [outerFault_nil, sound]
      | cons i p => simp [outerFault_cons, sound]

theorem mem_outerFaultsFrom : ∀ (ns : List Node) (i : Nat) (p : Position) (n : Node),
    (p, n) ∈ outerFaultsFrom i ns ↔ ∃ j q c, p = (i + j) :: q ∧ ns[j]? = some c ∧ c.OuterFault q n
  | [], i, p, n => by simp [outerFaultsFrom]
  | c :: ns, i, p, n => by
    have later := mem_outerFaultsFrom ns (i + 1) p n
    rw [outerFaultsFrom, List.mem_append, later, List.mem_map]
    constructor
    · rintro (⟨⟨q, m⟩, member, same⟩ | ⟨j, q, d, same, child, outer⟩)
      · obtain ⟨rfl, rfl⟩ := Prod.mk.inj same
        exact ⟨0, q, c, rfl, rfl, (mem_outerFaults c q m).mp member⟩
      · exact ⟨j + 1, q, d, by rw [same, Nat.add_assoc, Nat.add_comm 1], child, outer⟩
    · rintro ⟨j, q, d, rfl, child, outer⟩
      cases j with
      | zero =>
        obtain rfl := Option.some.inj child
        exact Or.inl ⟨(q, n), (mem_outerFaults c q n).mpr outer, rfl⟩
      | succ j => exact Or.inr ⟨j, q, d, by rw [Nat.add_assoc, Nat.add_comm 1], child, outer⟩

end

mutual

theorem outerFaults_ascending : ∀ root : Node, (outerFaults root).Pairwise fun x y => x.1 < y.1
  | ⟨kind, span, line, missing, children⟩ => by
    rw [outerFaults]
    split
    · exact List.pairwise_singleton _ _
    · exact outerFaultsFrom_ascending children 0

theorem outerFaultsFrom_ascending : ∀ (ns : List Node) (i : Nat),
    (outerFaultsFrom i ns).Pairwise fun x y => x.1 < y.1
  | [], _ => by
    rw [outerFaultsFrom]
    exact List.Pairwise.nil
  | n :: ns, i => by
    rw [outerFaultsFrom]
    refine List.pairwise_append.mpr ⟨List.pairwise_map.mpr ((outerFaults_ascending n).imp ?_),
      outerFaultsFrom_ascending ns (i + 1), ?_⟩
    · intro x y less
      exact List.cons_lt_cons_iff.mpr (Or.inr ⟨rfl, less⟩)
    · intro x first y second
      obtain ⟨z, _, rfl⟩ := List.mem_map.mp first
      obtain ⟨j, q, c, same, _⟩ := (mem_outerFaultsFrom ns (i + 1) y.1 y.2).mp second
      rw [same]
      exact List.cons_lt_cons_iff.mpr (Or.inl (by omega))

end

mutual

theorem outerFaults_eq_nil_iff : ∀ root : Node, outerFaults root = [] ↔ ∀ n, root.Within n → ¬ n.Faulty
  | ⟨kind, span, line, missing, children⟩ => by
    have below := outerFaultsFrom_eq_nil_iff children 0
    rw [outerFaults]
    split
    · rename_i faulty
      simp only [List.cons_ne_nil, false_iff]
      exact fun sound => sound _ Within.root faulty
    · rename_i sound
      rw [below]
      constructor
      · intro free n within
        rcases within_mk_iff.mp within with rfl | ⟨c, member, deeper⟩
        · exact sound
        · exact free c member n deeper
      · intro free c member n deeper
        exact free n (within_mk_iff.mpr (Or.inr ⟨c, member, deeper⟩))

theorem outerFaultsFrom_eq_nil_iff : ∀ (ns : List Node) (i : Nat),
    outerFaultsFrom i ns = [] ↔ ∀ c ∈ ns, ∀ n, c.Within n → ¬ n.Faulty
  | [], i => by simp [outerFaultsFrom]
  | c :: ns, i => by
    rw [outerFaultsFrom, List.append_eq_nil_iff, List.map_eq_nil_iff, outerFaults_eq_nil_iff c,
      outerFaultsFrom_eq_nil_iff ns (i + 1), List.forall_mem_cons]

end

end Markup.Node

namespace Diagnostic

open Node

variable {t : Text} {root n : Node}

theorem faultOf?_isSome_iff : (faultOf? t n).isSome ↔ n.Faulty := by
  unfold faultOf? Faulty
  by_cases lacks : n.missing
  · simp [lacks]
  · by_cases kind : n.kind = .fault
    · simp [lacks, kind]
    · by_cases stray : n.kind.isStrayEndTag
      · simp [lacks, kind, stray]
      · simp [lacks, kind, stray]

def IsOf (t : Text) (n : Node) (d : Diagnostic) : Prop := d.line = n.line ∧ faultOf? t n = some d.fault

mutual

theorem ofNode_each (t : Text) : ∀ root : Node,
    List.Forall₂ (fun x d => IsOf t x.2 d) (outerFaults root) (ofNode t root)
  | ⟨kind, span, line, missing, children⟩ => by
    have faulty := faultOf?_isSome_iff (t := t) (n := ⟨kind, span, line, missing, children⟩)
    rw [outerFaults, ofNode]
    cases found : faultOf? t ⟨kind, span, line, missing, children⟩ with
    | some fault =>
      rw [if_pos (faulty.mp (by rw [found]; rfl))]
      exact .cons ⟨rfl, found⟩ .nil
    | none =>
      rw [if_neg (by rw [← faulty, found]; simp)]
      exact ofNodes_each t children 0

theorem ofNodes_each (t : Text) : ∀ (ns : List Node) (i : Nat),
    List.Forall₂ (fun x d => IsOf t x.2 d) (outerFaultsFrom i ns) (ofNodes t ns)
  | [], _ => by
    rw [outerFaultsFrom, ofNodes]
    exact .nil
  | n :: ns, i => by
    have first : List.Forall₂ (fun x d => IsOf t x.2 d)
        ((outerFaults n).map fun x => (i :: x.1, x.2)) (ofNode t n) :=
      List.forall₂_map_left_iff.mpr (ofNode_each t n)
    rw [outerFaultsFrom, ofNodes]
    exact List.rel_append first (ofNodes_each t ns (i + 1))

end

mutual

theorem ofNode_lines (t : Text) : ∀ root : Node,
    ((ofNode t root).map (·.line)).Sublist (root.nodes.map (·.line))
  | ⟨kind, span, line, missing, children⟩ => by
    rw [ofNode, nodes, List.map_cons]
    split
    · exact (List.nil_sublist _).cons_cons line
    · exact (ofNodes_lines t children).cons line

theorem ofNodes_lines (t : Text) : ∀ ns : List Node,
    ((ofNodes t ns).map (·.line)).Sublist ((nodesOfAll ns).map (·.line))
  | [] => by
    rw [ofNodes, nodesOfAll]
    exact .slnil
  | n :: ns => by
    rw [ofNodes, nodesOfAll, List.map_append, List.map_append]
    exact (ofNode_lines t n).append (ofNodes_lines t ns)

end

/-! ### One line of text -/

theorem newline_notMem_snippet (t : Text) : '\n' ∉ snippet t := by
  have first : '\n' ∉ (Text.lines (Text.trim t)).headD [] := by
    cases whole : Text.lines (Text.trim t) with
    | nil => exact List.not_mem_nil
    | cons line rest => exact Text.newline_notMem_lines (t := Text.trim t) (by simp [whole])
  unfold snippet
  dsimp only
  split
  · intro member
    rcases List.mem_append.mp member with shown | dots
    · exact first (List.mem_of_mem_take shown)
    · exact absurd dots (by decide)
  · exact first

theorem newline_notMem_kindName (k : Kind) : '\n' ∉ kindName k := by
  cases k with
  | terminal s => cases s <;> decide
  | nonterminal s => cases s <;> decide
  | fault => decide

theorem newline_notMem_message (plain : root.PlainNames t) (within : root.Within n) {d : Diagnostic}
    (isOf : d.IsOf t n) : '\n' ∉ d.message := by
  have number := (Text.inline_decimal d.line).newline_notMem
  have found := isOf.2
  unfold faultOf? at found
  split at found
  · have kind := newline_notMem_kindName n.kind
    simp [message, ← Option.some.inj found, number, kind]
  · split at found
    · have shown := newline_notMem_snippet (n.span.slice t)
      simp [message, ← Option.some.inj found, number, shown]
    · split at found
      · have name : '\n' ∉ ((n.child? Kind.isStrayEndName).map fun c => c.span.slice t).getD "?".toList := by
          cases child : n.child? Kind.isStrayEndName with
          | none => simp
          | some c =>
            obtain ⟨member, kind⟩ := child?_mem child
            exact plain c (within.child member) kind
        simpa [message, ← Option.some.inj found, number] using name
      · cases found

/-! ### Whole trees -/

/-- The diagnostics are those of the nodes at fault that lie in no other one, each on a line of its own
that starts with the number of the line of its node. -/
structure Reports (t : Text) (root : Node) (found : List (Position × Node)) (ds : List Diagnostic) :
    Prop where
  ascending : found.Pairwise fun x y => x.1 < y.1
  exact : ∀ p n, (p, n) ∈ found ↔ root.OuterFault p n
  each : List.Forall₂ (fun x d => d.IsOf t x.2) found ds
  rising : ds.Pairwise fun d e => d.line ≤ e.line
  empty : ds = [] ↔ ∀ n, root.Within n → ¬ n.Faulty
  headed : ∀ d ∈ ds, "Line ".toList ++ Text.decimal d.line ++ ": ".toList <+: d.message
  single : ∀ d ∈ ds, '\n' ∉ d.message

theorem message_headed (d : Diagnostic) :
    "Line ".toList ++ Text.decimal d.line ++ ": ".toList <+: d.message := by
  unfold message
  cases d.fault <;> simp only [List.append_assoc, List.prefix_append_right_inj, List.prefix_append]

theorem ofNode_eq_nil_iff (t : Text) (root : Node) :
    ofNode t root = [] ↔ ∀ n, root.Within n → ¬ n.Faulty := by
  have lengths := (ofNode_each t root).length_eq
  rw [← outerFaults_eq_nil_iff, ← List.length_eq_zero_iff, ← List.length_eq_zero_iff, lengths]

theorem exists_isOf {d : Diagnostic} (member : d ∈ ofNode t root) : ∃ n, root.Within n ∧ d.IsOf t n := by
  obtain ⟨i, bound, rfl⟩ := List.getElem_of_mem member
  have each := ofNode_each t root
  have size : i < (outerFaults root).length := by rw [each.length_eq]; exact bound
  have outer := (mem_outerFaults root _ _).mp (List.getElem_mem size)
  exact ⟨_, within_of_at? outer.here, each.get size bound⟩

theorem ofNode_reports (rising : root.Rising) (plain : root.PlainNames t) :
    Reports t root (outerFaults root) (ofNode t root) where
  ascending := outerFaults_ascending root
  exact := mem_outerFaults root
  each := ofNode_each t root
  rising := List.pairwise_map.mp ((List.pairwise_map.mpr rising).sublist (ofNode_lines t root))
  empty := ofNode_eq_nil_iff t root
  headed := fun d _ => message_headed d
  single := by
    intro d member
    obtain ⟨n, within, isOf⟩ := exists_isOf member
    exact newline_notMem_message plain within isOf

end Diagnostic

/-! ### Trees of texts -/

namespace Markup.Node

open Cursor

mutual

theorem nodes_starts : ∀ root : Node, root.WellNested →
    root.nodes.Pairwise fun m n => m.span.start ≤ n.span.start
  | ⟨kind, span, line, missing, children⟩, nested => by
    have here := nested _ Within.root
    rw [nodes, List.pairwise_cons]
    constructor
    · intro n member
      obtain ⟨c, child, within⟩ := (exists_within_iff children n).mpr member
      exact (Span.encloses_iff.mp (wellNested_encloses nested (within_child child within))).1
    · refine nodesOfAll_starts children (fun c child => ?_) here.ordered
      exact wellNested_within nested (within_child child Within.root)

theorem nodesOfAll_starts : ∀ ns : List Node, (∀ n ∈ ns, n.WellNested) →
    (ns.Pairwise fun a b => a.span.stop ≤ b.span.start) →
    (nodesOfAll ns).Pairwise fun m n => m.span.start ≤ n.span.start
  | [], _, _ => by
    rw [nodesOfAll]
    exact List.Pairwise.nil
  | a :: ns, nested, ordered => by
    obtain ⟨nestedA, nested⟩ := List.forall_mem_cons.mp nested
    obtain ⟨before, ordered⟩ := List.pairwise_cons.mp ordered
    rw [nodesOfAll]
    refine List.pairwise_append.mpr ⟨nodes_starts a nestedA, nodesOfAll_starts ns nested ordered, ?_⟩
    intro m first n later
    have inner := (within_iff_mem_nodes a m).mpr first
    obtain ⟨b, member, within⟩ := (exists_within_iff ns n).mpr later
    have left := Span.encloses_iff.mp (wellNested_encloses nestedA inner)
    have right := Span.encloses_iff.mp (wellNested_encloses (nested b member) within)
    have range := (nestedA m inner).range
    have gap := before b member
    omega

end

theorem read_placed {t : Text} {n : Node} (within : (read t).Within n) :
    ∃ c : Cursor, c.In t ∧ n.span.start = c.offset ∧ n.line = c.line + 1 := by
  have whole := Reader.read_whole t
  have source := shown_source (Reader.read t) ⟨whole.sound, whole.inside⟩
  unfold read at within
  split at within
  · rename_i root rest shown
    obtain ⟨x, shows⟩ := source root (by simp [shown]) n within
    have lead := shows.inside.sound.here.lead
    exact ⟨x.info.start, in_reaches shows.inside.origin lead, by rw [shows.span], shows.line⟩
  · rcases within_cases within with rfl | ⟨c, member, _⟩
    · exact ⟨start t, in_start t, rfl, rfl⟩
    · simp at member

theorem read_rising (t : Text) : (read t).Rising := by
  refine (nodes_starts _ (settled_wellNested (read_settled t))).imp_of_mem ?_
  intro m n first second before
  obtain ⟨c, inC, startC, lineC⟩ := read_placed ((within_iff_mem_nodes _ m).mpr first)
  obtain ⟨d, inD, startD, lineD⟩ := read_placed ((within_iff_mem_nodes _ n).mpr second)
  have lines := in_line_le inC inD (by omega)
  omega

theorem read_plainNames (t : Text) : (read t).PlainNames t := by
  intro n within kind newline
  have graphic := read_named within (beq_iff_eq.mp kind) rfl '\n' newline
  exact absurd graphic.1 (by decide)

end Markup.Node

namespace Diagnostic

open Node

/-- Diagnostics are exact for every tree whose lines do not decrease and whose stray names have no line
ends, and so they are for every text. -/
theorem outermost_faults_reported :
    (∀ (t : Text) (root : Node), root.Rising → root.PlainNames t →
      ∃ found, Reports t root found (ofNode t root)) ∧
    ∀ t : Text, ∃ found, Reports t (Node.read t) found (diagnose t) := by
  have trees : ∀ (t : Text) (root : Node), root.Rising → root.PlainNames t →
      ∃ found, Reports t root found (ofNode t root) :=
    fun _ root rising plain => ⟨outerFaults root, ofNode_reports rising plain⟩
  exact ⟨trees, fun t => trees t (Node.read t) (read_rising t) (read_plainNames t)⟩

/-- A tree for `<p\n> </b><i>` with faults of all sorts, two of them inside of another one. -/
def nestedFaults : Node :=
  ⟨.nonterminal .document, ⟨0, 12⟩, 1, false,
    [⟨.fault, ⟨0, 4⟩, 1, false,
      [⟨.terminal .tagClose, ⟨2, 2⟩, 1, true, []⟩, ⟨.fault, ⟨3, 4⟩, 2, false, []⟩]⟩,
     ⟨.nonterminal .strayEndTag, ⟨5, 9⟩, 2, false,
      [⟨.terminal .endOpen, ⟨5, 7⟩, 2, false, []⟩, ⟨.terminal .strayEndName, ⟨7, 8⟩, 2, false, []⟩,
       ⟨.terminal .tagClose, ⟨8, 9⟩, 2, false, []⟩]⟩,
     ⟨.nonterminal .element, ⟨9, 12⟩, 2, false, [⟨.nonterminal .endTag, ⟨12, 12⟩, 2, true, []⟩]⟩]⟩

theorem nestedFaults_reported :
    (nestedFaults.Rising ∧ nestedFaults.PlainNames "<p\n> </b><i>") ∧
      ∃ found, Reports "<p\n> </b><i>" nestedFaults found (ofNode "<p\n> </b><i>" nestedFaults) :=
  ⟨by decide, outermost_faults_reported.1 _ nestedFaults (by decide) (by decide)⟩

example : (ofNode "<p\n> </b><i>" nestedFaults).map message =
    ["Line 1: Unexpected content '<p'".toList, "Line 2: End tag </b> has no matching start tag".toList,
      "Line 2: Missing end tag".toList] := by
  decide

end Diagnostic

end TemplateMarkup
