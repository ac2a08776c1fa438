import TemplateMarkup.Error
import TemplateMarkup.Proofs.Markup.Shapes

/-!
The case of the tag names in a query. A query that finds nothing is tried again in small letters, with the
case of ASCII letters ignored. The tags of a document are of ASCII, and the only character beyond ASCII with
a small form of ASCII is the Kelvin sign; so the small letters make no difference but for that sign.
-/
namespace TemplateMarkup

open Markup

theorem Document.read_tag_ascii {t : Text} {r : Record} (member : r ∈ (Document.read t).records) :
    ∀ c ∈ r.tag, c.toNat < 128 := by
  obtain ⟨i, found⟩ := List.getElem?_of_mem member
  obtain ⟨site, o, occurs, _, rfl, _⟩ := ofNode_found (k := i) found
  obtain ⟨within, faithful⟩ := Outline.occurs_faithful occurs
  have inner := Node.within_trans within (Outline.faithful_name_within faithful)
  have kind := (Outline.faithful_name faithful).2
  obtain ⟨s, terminal, named⟩ := isTagName_cases kind
  exact fun c member => (Node.read_named inner terminal named c member).2

namespace Text

variable {c : Char} {n s t tag : Text}

theorem toLower_cases (c : Char) : c.toLower = c ∧ ¬(65 ≤ c.toNat ∧ c.toNat ≤ 90) ∨
    (65 ≤ c.toNat ∧ c.toNat ≤ 90) ∧ c.toLower.toNat = c.toNat + 32 := by
  delta Char.toLower
  split
  · rename_i capital
    simp only [ge_iff_le, UInt32.le_iff_toNat_le] at capital
    have low : 65 ≤ c.toNat := capital.1
    have high : c.toNat ≤ 90 := capital.2
    have sum : (c.toNat + 32) % 2 ^ 32 = c.toNat + 32 := by omega
    exact Or.inr ⟨⟨low, high⟩, (UInt32.toNat_add ..).trans sum⟩
  · rename_i other
    simp only [ge_iff_le, UInt32.le_iff_toNat_le] at other
    exact Or.inl ⟨rfl, other⟩

theorem toLower_ascii : c.toLower.toNat < 128 ↔ c.toNat < 128 := by
  rcases toLower_cases c with ⟨same, _⟩ | ⟨_, small⟩
  · rw [same]
  · omega

theorem toLower_beyond (beyond : 128 ≤ c.toNat) : c.toLower = c := by
  rcases toLower_cases c with ⟨same, _⟩ | ⟨_, _⟩
  · exact same
  · omega

theorem toLower_toLower (c : Char) : c.toLower.toLower = c.toLower := by
  rcases toLower_cases c with ⟨same, _⟩ | ⟨capital, small⟩
  · rw [same, same]
  · rcases toLower_cases c.toLower with ⟨same, _⟩ | ⟨_, _⟩
    · exact same
    · omega

theorem lowerAscii_lowerAscii (t : Text) : lowerAscii (lowerAscii t) = lowerAscii t := by
  rw [lowerAscii, lowerAscii, List.map_map]
  exact List.map_congr_left fun c _ => toLower_toLower c

theorem equalsFold_beyond (ascii : ∀ c ∈ tag, c.toNat < 128) (member : c ∈ s) (beyond : 128 ≤ c.toNat) :
    equalsFold s tag = false := by
  refine beq_false_of_ne ?_
  intro same
  have image : c.toLower ∈ lowerAscii tag := same ▸ List.mem_map_of_mem member
  obtain ⟨d, inTag, lower⟩ := List.mem_map.mp image
  have small := toLower_ascii.mpr (ascii d inTag)
  rw [lower, toLower_ascii] at small
  omega

def kelvinSign : Char := Char.ofNat 0x212A

def plainKelvin (t : Text) : Text := t.map fun c => if c = kelvinSign then 'k' else c

theorem plainKelvin_of_not_mem (none : kelvinSign ∉ t) : plainKelvin t = t := by
  have same : ∀ c ∈ t, (if c = kelvinSign then 'k' else c) = c := by
    intro c member
    refine if_neg ?_
    rintro rfl
    exact none member
  rw [plainKelvin, List.map_congr_left same, List.map_id']

theorem lowerOf_ascii (ascii : c.toNat < 128) : lowerOf c = [c.toLower] := by
  simp [lowerOf, ascii]

theorem lowerOf_toLower (c : Char) : lowerOf c.toLower = lowerOf c := by
  by_cases ascii : c.toNat < 128
  · rw [lowerOf_ascii ascii, lowerOf_ascii (toLower_ascii.mpr ascii), toLower_toLower]
  · rw [toLower_beyond (by omega)]

theorem lower_lowerAscii (t : Text) : lower (lowerAscii t) = lower t := by
  simp [lower, lowerAscii, List.flatMap_map, lowerOf_toLower]

theorem ofNat_beyond {k : Nat} (valid : k.isValidChar) (beyond : 128 ≤ k) :
    128 ≤ (Char.ofNat k).toNat := by
  have same : (Char.ofNat k).toNat = k := by
    rw [Char.ofNat, dif_pos valid]
    rfl
  rwa [same]

/-- Where the small letters of a run of capital letters lie, the Kelvin sign apart. -/
theorem capitalRuns_beyond : ∀ run ∈ capitalRuns, run.1 = 0x212A ∧ run.2.1 = 0x212A ∨
    128 ≤ run.1 + run.2.2.2 ∧
      (run.2.1 + run.2.2.2 < 0xD800 ∨ 0xE000 ≤ run.1 + run.2.2.2 ∧ run.2.1 + run.2.2.2 < 0x110000) := by
  decide +kernel

/-- Beyond ASCII only the Kelvin sign has a small form of ASCII. -/
theorem lowerOf_beyond (beyond : 128 ≤ c.toNat) (other : c ≠ kelvinSign) :
    ∃ d ∈ lowerOf c, 128 ≤ d.toNat := by
  unfold lowerOf
  dsimp only
  rw [if_neg (by omega)]
  split
  · exact ⟨Char.ofNat 0x307, by simp, by decide⟩
  · split
    · rename_i first last step shift found
      have inside := List.find?_some found
      simp only [Bool.and_eq_true, decide_eq_true_eq] at inside
      rcases capitalRuns_beyond _ (List.mem_of_find?_eq_some found) with ⟨low, high⟩ | ⟨low, range⟩
      · dsimp only at low high
        have sign : c = kelvinSign := by
          rw [← Char.ofNat_toNat c, show c.toNat = 0x212A by omega]
          rfl
        exact absurd sign other
      · dsimp only at low range
        refine ⟨_, List.mem_singleton_self _, ofNat_beyond ?_ (by omega)⟩
        unfold Nat.isValidChar
        omega
    · exact ⟨c, by simp, beyond⟩

theorem lower_eq (plain : ∀ c ∈ n, c.toNat < 128 ∨ c = kelvinSign) :
    lower n = lowerAscii (plainKelvin n) := by
  induction n with
  | nil => rfl
  | cons c n ih =>
    obtain ⟨here, later⟩ := List.forall_mem_cons.mp plain
    have first : lowerOf c = [(if c = kelvinSign then 'k' else c).toLower] := by
      rcases here with ascii | rfl
      · have other : c ≠ kelvinSign := by
          rintro rfl
          exact absurd ascii (by decide)
        rw [lowerOf_ascii ascii, if_neg other]
      · decide
    have rest := ih later
    rw [lower] at rest ⊢
    rw [List.flatMap_cons, rest, first]
    rfl

/-- Against a text of ASCII, small letters differ from the letters as written only by Kelvin signs. -/
theorem equalsFold_lower (n : Text) (ascii : ∀ c ∈ tag, c.toNat < 128) :
    equalsFold n.lower tag = equalsFold (plainKelvin n) tag := by
  by_cases plain : ∀ c ∈ n, c.toNat < 128 ∨ c = kelvinSign
  · rw [lower_eq plain, equalsFold, equalsFold, lowerAscii_lowerAscii]
  · simp only [Classical.not_forall, not_or, Nat.not_lt] at plain
    obtain ⟨c, member, beyond, other⟩ := plain
    obtain ⟨d, inside, beyondD⟩ := lowerOf_beyond beyond other
    have lowered : d ∈ n.lower := List.mem_flatMap.mpr ⟨c, member, inside⟩
    have kept : c ∈ plainKelvin n := List.mem_map.mpr ⟨c, member, if_neg other⟩
    rw [equalsFold_beyond ascii lowered beyondD, equalsFold_beyond ascii kept beyond]

end Text

def NodeTest.mapName (f : Text → Text) : NodeTest → NodeTest
  | any => any
  | name n => name (f n)

namespace Query

def mapNames (f : Text → Text) (q : Query) : Query :=
  { q with steps := q.steps.map fun s => { s with test := s.test.mapName f } }

/-- The tag names of the queries differ only in the case of ASCII letters, and nothing else differs. -/
def SameButCase (p q : Query) : Prop :=
  (p.mapNames Text.lowerAscii).steps = (q.mapNames Text.lowerAscii).steps

instance (p q : Query) : Decidable (p.SameButCase q) :=
  inferInstanceAs (Decidable ((p.mapNames Text.lowerAscii).steps = (q.mapNames Text.lowerAscii).steps))

theorem withLowerNames_eq (q : Query) : q.withLowerNames = q.mapNames Text.lower := by
  have same : NodeTest.lower = NodeTest.mapName Text.lower := by
    funext test
    cases test <;> rfl
  rw [withLowerNames, mapNames, same]

theorem mapNames_mapNames (f g : Text → Text) (q : Query) :
    (q.mapNames f).mapNames g = q.mapNames fun n => g (f n) := by
  have same : ∀ test : NodeTest, (test.mapName f).mapName g = test.mapName fun n => g (f n) := by
    intro test
    cases test <;> rfl
  simp [mapNames, same]

/-- Small letters leave no difference in case. -/
theorem lower_steps {p q : Query} (same : p.SameButCase q) :
    (p.mapNames Text.lower).steps = (q.mapNames Text.lower).steps := by
  have again : ∀ r : Query, (r.mapNames Text.lowerAscii).mapNames Text.lower = r.mapNames Text.lower := by
    intro r
    rw [mapNames_mapNames]
    simp only [Text.lower_lowerAscii]
  rw [← again p, ← again q, mapNames, mapNames]
  exact congrArg (List.map _) same

variable {d : Document} {f g : Text → Text}

theorem matchesIn_mapName (agree : ∀ n, ∀ r ∈ d.records, Text.equalsFold (f n) r.tag =
    Text.equalsFold (g n) r.tag) (step : Step) (scope : Option Nat) :
    matchesIn d true { step with test := step.test.mapName f } scope =
      matchesIn d true { step with test := step.test.mapName g } scope := by
  have same : ∀ i, ((d.record? i).any fun r => (step.test.mapName f).passes r.tag true) =
      (d.record? i).any fun r => (step.test.mapName g).passes r.tag true := by
    intro i
    cases found : d.record? i with
    | none => rfl
    | some r =>
      have member : r ∈ d.records := List.mem_of_getElem? found
      cases step.test with
      | any => rfl
      | name n => exact agree n r member
  unfold matchesIn
  simp only [same]

/-- Queries find the same elements if their names pass the same tags. -/
theorem evaluate_mapNames (agree : ∀ n, ∀ r ∈ d.records, Text.equalsFold (f n) r.tag =
    Text.equalsFold (g n) r.tag) (q : Query) :
    (q.mapNames f).evaluate d true = (q.mapNames g).evaluate d true := by
  suffices all : ∀ (steps : List Step) (contexts : List (Option Nat)),
      evaluateFrom d true contexts (steps.map fun s => { s with test := s.test.mapName f }) =
        evaluateFrom d true contexts (steps.map fun s => { s with test := s.test.mapName g }) by
    rw [evaluate, evaluate, mapNames, mapNames, all]
  intro steps
  induction steps with
  | nil => exact fun contexts => rfl
  | cons step steps ih =>
    intro contexts
    have here : matchesIn d true { step with test := step.test.mapName f } =
        matchesIn d true { step with test := step.test.mapName g } := by
      funext scope
      exact matchesIn_mapName agree step scope
    simp only [List.map_cons, evaluateFrom, here]
    exact ih _

end Query

namespace Document

variable {d : Document} {q : Query}

theorem select_found (found : q.evaluate d false ≠ []) : d.select q = q.evaluate d false := by
  unfold select
  split
  · contradiction
  · rfl

theorem select_again (none : q.evaluate d false = []) : d.select q = (q.mapNames Text.lower).evaluate d true := by
  rw [select, none, Query.withLowerNames_eq]

def rootQuery (name : Text) : Query := ⟨'/' :: name, [⟨.child, .name name, []⟩]⟩

end Document

end TemplateMarkup
