import TemplateMarkup.Path

/-!
The orders by which texts and paths are sorted. Both go by the first difference, so that both are strict
orders because characters and parts of paths are strictly ordered. Values with names are put in the
order of their names. Sorting is stable: what the order does not tell apart stays in the order it had,
for example in the order of first occurrence.
-/
namespace TemplateMarkup

/-- An order in which of two different things one comes first. -/
structure StrictOrder {α : Type} (lt : α → α → Bool) : Prop where
  irrefl : ∀ a, lt a a = false
  trans : ∀ {a b c}, lt a b = true → lt b c = true → lt a c = true
  total : ∀ a b, lt a b = true ∨ a = b ∨ lt b a = true

namespace StrictOrder

variable {α β : Type} {lt : α → α → Bool} (order : StrictOrder lt)
include order

theorem asymm {a b : α} (first : lt a b = true) : lt b a = false := by
  cases second : lt b a with
  | false => rfl
  | true =>
    have loop := order.trans first second
    rw [order.irrefl] at loop
    cases loop

theorem lt_or_eq {a b : α} (notAfter : lt b a = false) : lt a b = true ∨ a = b := by
  rcases order.total a b with first | same | second
  · exact Or.inl first
  · exact Or.inr same
  · rw [notAfter] at second
    cases second

theorem notAfter_trans {a b c : α} (first : lt b a = false) (second : lt c b = false) :
    lt c a = false := by
  rcases order.lt_or_eq first with less | rfl
  · rcases order.lt_or_eq second with less' | rfl
    · exact order.asymm (order.trans less less')
    · exact order.asymm less
  · exact second

theorem pairwise_sort (key : β → α) (l : List β) :
    (l.mergeSort fun x y => !lt (key y) (key x)).Pairwise fun x y => lt (key y) (key x) = false := by
  have sorted : (l.mergeSort fun x y => !lt (key y) (key x)).Pairwise
      fun x y => (!lt (key y) (key x)) = true := by
    refine List.pairwise_mergeSort ?_ ?_ l
    · intro x y z first second
      simp only [Bool.not_eq_true'] at first second ⊢
      exact order.notAfter_trans first second
    · intro x y
      cases first : lt (key x) (key y) with
      | false => simp
      | true => simp [order.asymm first]
  exact sorted.imp fun related => by simpa using related

end StrictOrder

section Stable

variable {α : Type} {le : α → α → Bool} {l : List α}
  (trans : ∀ a b c, le a b → le b c → le a c) (total : ∀ a b, le a b || le b a)
include trans total

/-- Sorting leaves things in their order among which it makes no difference. -/
theorem filter_mergeSort {p : α → Bool} (level : ∀ a b, p a → p b → le a b) :
    (l.mergeSort le).filter p = l.filter p := by
  have equal : (l.filter p).Pairwise fun a b => le a b := by
    refine List.pairwise_iff_forall_sublist.mpr ?_
    intro a b inside
    have holds : ∀ x ∈ [a, b], p x := fun x member => (List.mem_filter.mp (inside.subset member)).2
    exact level a b (holds a (by simp)) (holds b (by simp))
  have kept : (l.filter p).Sublist (l.mergeSort le) :=
    List.sublist_mergeSort trans total equal List.filter_sublist
  have inside : (l.filter p).Sublist ((l.mergeSort le).filter p) := by
    simpa using kept.filter p
  exact (inside.eq_of_length ((List.mergeSort_perm l le).filter p).length_eq.symm).symm

/-- In a sorted list, what the order does not tell apart stands as it stood before. -/
theorem mergeSort_stable {before : α → α → Prop} (ordered : l.Pairwise before) :
    (l.mergeSort le).Pairwise fun a b => le a b ∧ (le b a → before a b) := by
  rw [List.pairwise_iff_forall_sublist]
  intro a b inside
  have sorted := List.pairwise_iff_forall_sublist.mp (List.pairwise_mergeSort trans total l) inside
  refine ⟨sorted, ?_⟩
  intro back
  have itself : le a a := by simpa using total a a
  have level : ∀ x y, (le a x && le x a) → (le a y && le y a) → le x y := by
    intro x y first second
    rw [Bool.and_eq_true] at first second
    exact trans x a y first.2 second.1
  have pair : [a, b].filter (fun x => le a x && le x a) = [a, b] := by
    simp [itself, sorted, back]
  have kept := inside.filter fun x => le a x && le x a
  rw [pair, filter_mergeSort trans total level] at kept
  exact List.pairwise_iff_forall_sublist.mp ordered (kept.trans List.filter_sublist)

end Stable

structure FirstOccurrences {α : Type} [BEq α] (firsts l : List α) : Prop where
  mem_iff : ∀ a, a ∈ firsts ↔ a ∈ l
  ordered : firsts.Pairwise fun a b => l.idxOf a < l.idxOf b

namespace FirstOccurrences

variable {α : Type} [BEq α] {firsts l : List α} {a : α}

theorem nil : FirstOccurrences ([] : List α) [] := ⟨fun _ => Iff.rfl, List.Pairwise.nil⟩

theorem nodup (occur : FirstOccurrences firsts l) : firsts.Nodup :=
  occur.ordered.imp fun less same => by
    rw [same] at less
    exact Nat.lt_irrefl _ less

variable [LawfulBEq α]

/-- What comes after a list does not move what occurs in the list. -/
theorem ordered_append (occur : FirstOccurrences firsts l) (more : List α) :
    firsts.Pairwise fun a b => (l ++ more).idxOf a < (l ++ more).idxOf b := by
  refine occur.ordered.imp_of_mem ?_
  intro a b memberA memberB less
  rw [List.idxOf_append, List.idxOf_append, if_pos ((occur.mem_iff a).mp memberA),
    if_pos ((occur.mem_iff b).mp memberB)]
  exact less

theorem concat_known (occur : FirstOccurrences firsts l) (known : a ∈ firsts) :
    FirstOccurrences firsts (l ++ [a]) := by
  refine ⟨?_, occur.ordered_append [a]⟩
  intro b
  have member := (occur.mem_iff a).mp known
  rw [occur.mem_iff, List.mem_append, List.mem_singleton]
  exact ⟨Or.inl, fun either => either.elim id fun same => same ▸ member⟩

theorem concat_new (occur : FirstOccurrences firsts l) (new : a ∉ firsts) :
    FirstOccurrences (firsts ++ [a]) (l ++ [a]) := by
  constructor
  · intro b
    rw [List.mem_append, List.mem_append, occur.mem_iff]
  · refine List.pairwise_append.mpr ⟨occur.ordered_append [a], List.pairwise_singleton _ _, ?_⟩
    intro b member c last
    obtain rfl := List.mem_singleton.mp last
    have known := (occur.mem_iff b).mp member
    have absent : c ∉ l := fun inside => new ((occur.mem_iff c).mpr inside)
    have bound := List.idxOf_lt_length_of_mem known
    rw [List.idxOf_append, List.idxOf_append, if_pos known, if_neg absent]
    omega

end FirstOccurrences
/-- The order of lists that goes by the first difference; a list comes after its own beginnings. -/
def lexLt {α : Type} [BEq α] (lt : α → α → Bool) : List α → List α → Bool
  | _, [] => false
  | [], _ :: _ => true
  | a :: as, b :: bs => lt a b || (a == b && lexLt lt as bs)

theorem lexLt_cons_iff {α : Type} [BEq α] [LawfulBEq α] {lt : α → α → Bool} {a b : α} {as bs : List α} :
    lexLt lt (a :: as) (b :: bs) = true ↔ lt a b = true ∨ (a = b ∧ lexLt lt as bs = true) := by
  rw [lexLt, Bool.or_eq_true, Bool.and_eq_true, beq_iff_eq]

theorem StrictOrder.lex {α : Type} [BEq α] [LawfulBEq α] {lt : α → α → Bool} (order : StrictOrder lt) :
    StrictOrder (lexLt lt) where
  irrefl as := by
    induction as with
    | nil => rfl
    | cons a as ih => simp [lexLt, order.irrefl, ih]
  trans {as bs cs} first second := by
    induction as generalizing bs cs with
    | nil =>
      cases bs with
      | nil => cases first
      | cons b bs =>
        cases cs with
        | nil => cases second
        | cons c cs => rfl
    | cons a as ih =>
      cases bs with
      | nil => cases first
      | cons b bs =>
        cases cs with
        | nil => cases second
        | cons c cs =>
          rw [lexLt_cons_iff] at first second ⊢
          rcases first with less | ⟨rfl, first⟩
          · rcases second with less' | ⟨rfl, second⟩
            · exact Or.inl (order.trans less less')
            · exact Or.inl less
          · rcases second with less' | ⟨rfl, second⟩
            · exact Or.inl less'
            · exact Or.inr ⟨rfl, ih first second⟩
  total as bs := by
    induction as generalizing bs with
    | nil =>
      cases bs with
      | nil => exact Or.inr (Or.inl rfl)
      | cons b bs => exact Or.inl rfl
    | cons a as ih =>
      cases bs with
      | nil => exact Or.inr (Or.inr rfl)
      | cons b bs =>
        simp only [lexLt_cons_iff]
        rcases order.total a b with less | rfl | greater
        · exact Or.inl (Or.inl less)
        · rcases ih bs with first | rfl | second
          · exact Or.inl (Or.inr ⟨rfl, first⟩)
          · exact Or.inr (Or.inl rfl)
          · exact Or.inr (Or.inr (Or.inr ⟨rfl, second⟩))
        · exact Or.inr (Or.inr (Or.inl greater))

namespace Text

def charLt (c d : Char) : Bool := c.toNat < d.toNat

theorem charLt_order : StrictOrder charLt where
  irrefl c := by simp [charLt]
  trans {a b c} first second := by
    simp only [charLt, decide_eq_true_eq] at first second ⊢
    omega
  total c d := by
    simp only [charLt, decide_eq_true_eq]
    rcases Nat.lt_trichotomy c.toNat d.toNat with less | same | greater
    · exact Or.inl less
    · exact Or.inr (Or.inl (Char.toNat_inj.mp same))
    · exact Or.inr (Or.inr greater)

theorem lt_eq_lexLt (s t : Text) : lt s t = lexLt charLt s t := by
  induction s generalizing t with
  | nil => cases t <;> rfl
  | cons c s ih =>
    cases t with
    | nil => rfl
    | cons d t => rw [lt, lexLt, ih, charLt]

theorem lt_order : StrictOrder lt := by
  have same : lt = lexLt charLt := by
    funext s t
    exact lt_eq_lexLt s t
  rw [same]
  exact charLt_order.lex

/-- Repetitions are left out of a sorted list, and the rest ascends. -/
theorem distinct_of_sorted (ts : List Text) (sorted : ts.Pairwise fun s t => lt t s = false) :
    (ts.foldr (fun t acc => if acc.head? = some t then acc else t :: acc) []).Pairwise
        (fun s t => lt s t = true) ∧
      ∀ t, t ∈ ts.foldr (fun t acc => if acc.head? = some t then acc else t :: acc) [] ↔ t ∈ ts := by
  induction ts with
  | nil => exact ⟨List.Pairwise.nil, fun _ => Iff.rfl⟩
  | cons s ts ih =>
    obtain ⟨first, rest⟩ := List.pairwise_cons.mp sorted
    obtain ⟨ascends, members⟩ := ih rest
    rw [List.foldr_cons]
    generalize ts.foldr (fun t acc => if acc.head? = some t then acc else t :: acc) [] = kept
      at ascends members
    split
    · rename_i repeated
      refine ⟨ascends, fun t => ?_⟩
      have known : s ∈ ts := (members s).mp (List.mem_of_head? repeated)
      rw [members, List.mem_cons]
      exact ⟨Or.inr, fun member => member.elim (fun same => same ▸ known) id⟩
    · rename_i new
      refine ⟨List.pairwise_cons.mpr ⟨fun t member => ?_, ascends⟩, fun t => ?_⟩
      · -- if `s` came again, it would be the first of those kept
        rcases lt_order.lt_or_eq (first t ((members t).mp member)) with less | rfl
        · exact less
        · cases kept with
          | nil => cases member
          | cons head kept =>
            rcases List.mem_cons.mp member with same | later
            · exact absurd (congrArg some same.symm) new
            · have less := (List.pairwise_cons.mp ascends).1 s later
              rw [first head ((members head).mp (List.mem_cons_self ..))] at less
              cases less
      · rw [List.mem_cons, List.mem_cons, members]

theorem sort_sorted (ts : List Text) : (ts.mergeSort le).Pairwise fun s t => lt t s = false :=
  lt_order.pairwise_sort id ts

theorem sortDistinct_ascending (ts : List Text) :
    (sortDistinct ts).Pairwise fun s t => lt s t = true :=
  (distinct_of_sorted _ (sort_sorted ts)).1

@[simp] theorem mem_sortDistinct {ts : List Text} {t : Text} : t ∈ sortDistinct ts ↔ t ∈ ts := by
  rw [sortDistinct, (distinct_of_sorted _ (sort_sorted ts)).2, List.mem_mergeSort]

section Named

variable {α : Type} {name : Text} {value : α} {values : List (Text × α)}

/-- A named value takes the place of the one with its name, and the others stay. -/
theorem mem_insertNamed (ordered : values.Pairwise fun c d => lt c.1 d.1) {c : Text × α} :
    c ∈ insertNamed name value values ↔ c = (name, value) ∨ c ∈ values ∧ c.1 ≠ name := by
  induction values with
  | nil => simp [insertNamed]
  | cons d values ih =>
    obtain ⟨first, ordered⟩ := List.pairwise_cons.mp ordered
    have later : ∀ c ∈ values, c.1 ≠ d.1 := by
      intro c member same
      have less := first c member
      rw [same, lt_order.irrefl] at less
      cases less
    rw [insertNamed]
    split
    · rename_i same
      grind
    · split
      · rename_i other less
        have after : ∀ c ∈ values, c.1 ≠ name := by
          intro c member same
          have more := lt_order.trans less (first c member)
          rw [same, lt_order.irrefl] at more
          cases more
        grind
      · rename_i other _
        rw [List.mem_cons, ih ordered]
        grind

theorem insertNamed_ordered (ordered : values.Pairwise fun c d => lt c.1 d.1) :
    (insertNamed name value values).Pairwise fun c d => lt c.1 d.1 := by
  induction values with
  | nil => exact List.pairwise_singleton _ _
  | cons d values ih =>
    obtain ⟨first, rest⟩ := List.pairwise_cons.mp ordered
    rw [insertNamed]
    split
    · rename_i same
      exact List.pairwise_cons.mpr ⟨fun c member => same ▸ first c member, rest⟩
    · split
      · rename_i _ less
        refine List.pairwise_cons.mpr ⟨?_, ordered⟩
        intro c member
        rcases List.mem_cons.mp member with rfl | later
        · exact less
        · exact lt_order.trans less (first c later)
      · rename_i other notLess
        refine List.pairwise_cons.mpr ⟨?_, ih rest⟩
        intro c member
        rcases (mem_insertNamed rest).mp member with rfl | ⟨later, _⟩
        · rcases lt_order.total d.1 name with less | same | less
          · exact less
          · exact absurd same other
          · exact absurd less notLess
        · exact first c later

theorem foldl_insertNamed {sorted : List (Text × α)} (ordered : sorted.Pairwise fun c d => lt c.1 d.1)
    (single : ∀ c ∈ sorted ++ values, ∀ d ∈ sorted ++ values, c.1 = d.1 → c = d) :
    ((values.foldl (fun sorted v => insertNamed v.1 v.2 sorted) sorted).Pairwise
        fun c d => lt c.1 d.1) ∧
      ∀ c, c ∈ values.foldl (fun sorted v => insertNamed v.1 v.2 sorted) sorted ↔
        c ∈ sorted ++ values := by
  induction values generalizing sorted with
  | nil => exact ⟨ordered, by simp⟩
  | cons v values ih =>
    have inserted : ∀ c, c ∈ insertNamed v.1 v.2 sorted ↔ c = v ∨ c ∈ sorted := by
      intro c
      rw [mem_insertNamed ordered]
      grind
    have moved : ∀ c, c ∈ insertNamed v.1 v.2 sorted ++ values ↔ c ∈ sorted ++ v :: values := by
      intro c
      simp only [List.mem_append, List.mem_cons, inserted]
      grind
    obtain ⟨ascends, members⟩ := ih (insertNamed_ordered ordered) fun c memberC d memberD =>
      single c ((moved c).mp memberC) d ((moved d).mp memberD)
    exact ⟨ascends, fun c => (members c).trans (moved c)⟩

/-- Where no name has two values, ordering by name keeps all values. -/
theorem ofNamed_spec (single : ∀ c ∈ values, ∀ d ∈ values, c.1 = d.1 → c = d) :
    ((ofNamed values).Pairwise fun c d => lt c.1 d.1) ∧ ∀ c, c ∈ ofNamed values ↔ c ∈ values :=
  foldl_insertNamed List.Pairwise.nil single

end Named

end Text

namespace Path

theorem Part.lt_order : StrictOrder Part.lt where
  irrefl a := by cases a <;> simp [Part.lt, Part.rank, Text.lt_order.irrefl]
  trans {a b c} first second := by
    cases a <;> cases b <;> cases c <;> simp_all [Part.lt, Part.rank]
    exact Text.lt_order.trans first second
  total a b := by
    cases a <;> cases b <;> simp [Part.lt, Part.rank]
    exact Text.lt_order.total _ _

theorem ltParts_eq_lexLt (ps qs : List Part) : ltParts ps qs = lexLt Part.lt ps qs := by
  induction ps generalizing qs with
  | nil => cases qs <;> rfl
  | cons p ps ih =>
    cases qs with
    | nil => rfl
    | cons q qs => rw [ltParts, lexLt, ih]

theorem ltParts_order : StrictOrder ltParts := by
  have same : ltParts = lexLt Part.lt := by
    funext ps qs
    exact ltParts_eq_lexLt ps qs
  rw [same]
  exact Part.lt_order.lex

theorem sort_sorted (paths : List Text) :
    (sort paths).Pairwise fun p q => ltParts (parts q) (parts p) = false :=
  ltParts_order.pairwise_sort parts paths

theorem sort_perm (paths : List Text) : (sort paths).Perm paths := List.mergeSort_perm ..

theorem sort_ascending {paths : List Text} (distinct : paths.Pairwise fun p q => parts p ≠ parts q) :
    (sort paths).Pairwise fun p q => ltParts (parts p) (parts q) = true := by
  have apart : (sort paths).Pairwise fun p q => parts p ≠ parts q :=
    ((sort_perm paths).pairwise_iff fun {_ _} other => other.symm).mpr distinct
  refine (sort_sorted paths).imp₂ (fun p q notAfter other => ?_) apart
  rcases ltParts_order.lt_or_eq notAfter with less | same
  · exact less
  · exact absurd same other

/-- Paths can be put in ascending order in one way only. -/
theorem sort_eq {paths sorted : List Text} (same : sorted.Perm paths)
    (ascending : sorted.Pairwise fun p q => ltParts (parts p) (parts q) = true) :
    sort paths = sorted := by
  have apart : sorted.Pairwise fun p q => parts p ≠ parts q := by
    refine ascending.imp fun {p q} less equal => ?_
    rw [equal, ltParts_order.irrefl] at less
    cases less
  have distinct : paths.Pairwise fun p q => parts p ≠ parts q :=
    (same.pairwise_iff fun {_ _} other => other.symm).mp apart
  refine ((sort_perm paths).trans same.symm).eq_of_pairwise (fun p q _ _ first second => ?_)
    (sort_ascending distinct) ascending
  rw [ltParts_order.asymm first] at second
  cases second

/-- Leaving paths out before sorting or after it is the same. -/
theorem sort_filter {paths : List Text} (distinct : paths.Pairwise fun p q => parts p ≠ parts q)
    (keep : Text → Bool) : sort (paths.filter keep) = (sort paths).filter keep :=
  sort_eq ((sort_perm paths).filter keep) ((sort_ascending distinct).filter keep)

end Path

end TemplateMarkup
