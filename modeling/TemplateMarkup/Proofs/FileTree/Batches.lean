import TemplateMarkup.Proofs.FileTree.Writes
import TemplateMarkup.Scan.Classes

/-!
Batches of actions on templates. Each action writes its template and files beside it, whose names are
that of the template with some suffix; so the actions on two templates never meet. Whether an action
succeeds is settled before the batch starts, and one that fails might as well be left out.
-/
namespace TemplateMarkup

namespace Path

def isTemplate (path : Text) : Bool := (extension? path).any (Text.equalsFold templateExtension)

def EndsLikeTemplate (name : Text) : Prop := ∃ c, name.getLast? = some c ∧ c.toLower = 'r'

theorem extension_ends {path name extension : Text} (given : extension ≠ [])
    (has : (extension? path).any (Text.equalsFold extension) = true)
    (file : fileName? path = some name) :
    name.getLast?.map Char.toLower = extension.getLast?.map Char.toLower := by
  rw [extension?, file, Option.bind_some, splitName] at has
  split at has
  · rw [Option.any_some, Text.equalsFold, beq_iff_eq] at has
    have last := congrArg List.head? (congrArg List.reverse has)
    simp only [Text.lowerAscii, ← List.map_reverse, List.reverse_reverse, List.head?_map] at last
    rw [← List.getLast?_eq_head?_reverse] at last
    cases head : (name.reverse.takeWhile (· != '.')).head? with
    | none =>
      rw [head, List.getLast?_eq_some_getLast given] at last
      cases last
    | some c =>
      rw [last, head]
      rw [List.head?_takeWhile, Option.filter_eq_some_iff, ← List.getLast?_eq_head?_reverse] at head
      rw [head.1]
  · cases has

theorem isTemplate_ends {path name : Text} (template : isTemplate path = true)
    (file : fileName? path = some name) : EndsLikeTemplate name := by
  have ends := extension_ends (by decide) template file
  obtain ⟨c, last, lower⟩ := Option.map_eq_some_iff.mp ends
  exact ⟨c, last, lower⟩

end Path

/-- The suffixes of files beside templates: no file has two of them, and no template has one. -/
structure Suffixes (suffixes : List Text) : Prop where
  plain : ∀ s ∈ suffixes, '/' ∉ s ∧ '\x00' ∉ s
  given : ∀ s ∈ suffixes, s ≠ []
  apart : ∀ s ∈ suffixes, ∀ s' ∈ suffixes, s <:+ s' → s = s'
  ends : ∀ s ∈ suffixes, s.getLast?.map Char.toLower ≠ some 'r'

def companions (suffixes : List Text) (path : Text) : List Text :=
  path :: suffixes.map (path ++ ·)

namespace Suffixes

variable {suffixes : List Text} (proper : Suffixes suffixes) {m n s s' : Text}
include proper

theorem not_template (member : s ∈ suffixes) : ¬Path.EndsLikeTemplate (m ++ s) := by
  rintro ⟨c, last, lower⟩
  have own := List.getLast?_eq_some_getLast (proper.given s member)
  rw [List.getLast?_append, own, Option.some_or] at last
  refine proper.ends s member ?_
  rw [own, last, Option.map_some, lower]

/-- Names of different templates stay different with their suffixes. -/
theorem name_eq (one : Path.EndsLikeTemplate m) (two : Path.EndsLikeTemplate n)
    (member : s = [] ∨ s ∈ suffixes) (member' : s' = [] ∨ s' ∈ suffixes) (same : m ++ s = n ++ s') :
    m = n := by
  rcases member with rfl | member <;> rcases member' with rfl | member'
  · rwa [List.append_nil, List.append_nil] at same
  · rw [List.append_nil] at same
    exact absurd (same ▸ one) (proper.not_template member')
  · rw [List.append_nil] at same
    exact absurd (same ▸ two) (proper.not_template member)
  · have equal : s = s' := by
      rcases List.suffix_or_suffix_of_suffix (List.suffix_append m s)
        (same ▸ List.suffix_append n s') with short | short
      · exact proper.apart s member s' member' short
      · exact (proper.apart s' member' s member short).symm
    rw [equal] at same
    exact List.append_cancel_right same

end Suffixes

namespace FileTree

variable {t u : FileTree} {f g : Text} {suffixes : List Text}

theorem Leads.target_companion {dir place : Place} {name x : Text} (proper : Suffixes suffixes)
    (leads : t.Leads f dir name) (member : x ∈ companions suffixes f)
    (target : t.target? x = some place) :
    ∃ s, (s = [] ∨ s ∈ suffixes) ∧ place = dir ++ [name ++ s] := by
  rcases List.mem_cons.mp member with rfl | member
  · refine ⟨[], Or.inl rfl, leads.target_beside List.not_mem_nil List.not_mem_nil ?_⟩
    rwa [List.append_nil]
  · obtain ⟨s, listed, rfl⟩ := List.mem_map.mp member
    exact ⟨s, Or.inr listed, leads.target_beside (proper.plain s listed).1 (proper.plain s listed).2 target⟩

/-- Templates at different places have no file in common. -/
theorem companions_apart (proper : Suffixes suffixes) (one : Path.isTemplate f = true)
    (two : Path.isTemplate g = true) {p q : Place} (first : t.target? f = some p)
    (second : t.target? g = some q) (other : p ≠ q) {x y : Text} (mine : x ∈ companions suffixes f)
    (yours : y ∈ companions suffixes g) {place : Place} (here : t.target? x = some place) :
    t.target? y ≠ some place := by
  intro there
  obtain ⟨dir, m, rfl, leads⟩ := exists_leads first
  obtain ⟨dir', n, rfl, leads'⟩ := exists_leads second
  obtain ⟨s, listed, rfl⟩ := leads.target_companion proper mine here
  obtain ⟨s', listed', same⟩ := leads'.target_companion proper yours there
  obtain ⟨rfl, names⟩ := List.append_inj' same rfl
  have name := proper.name_eq (Path.isTemplate_ends one leads.fileName)
    (Path.isTemplate_ends two leads'.fileName) listed listed' (List.singleton_inj.mp names)
  exact other (by rw [name])

end FileTree

namespace FileAction

open FileTree

variable {β : Type} {act : Text → FileAction β} {ok : β → Bool} {suffixes : List Text}
  {Listed Good : FileTree → Text → Prop} {t u : FileTree} {f g : Text} {b : β} {rs : List (Text × β)}

/-- Actions on files one after another, with their answers. -/
inductive Run (act : Text → FileAction β) : FileTree → List (Text × β) → FileTree → Prop where
  | nil {t : FileTree} : Run act t [] t
  | cons {t u v : FileTree} {f : Text} {b : β} {rs : List (Text × β)}
      (first : act f t = (.done b, u)) (later : Run act u rs v) : Run act t ((f, b) :: rs) v

theorem mapM_done_iff {fs : List Text} {bs : List β} : fs.mapM act t = (.done bs, u) ↔
    ∃ rs : List (Text × β), rs.map (·.1) = fs ∧ rs.map (·.2) = bs ∧ Run act t rs u := by
  constructor
  · intro run
    induction fs generalizing t bs with
    | nil =>
      obtain ⟨⟨rfl⟩, rfl⟩ := Prod.mk.inj run
      exact ⟨[], rfl, rfl, Run.nil⟩
    | cons f fs ih =>
      rw [List.mapM_cons, bind_apply] at run
      split at run
      · rename_i b v first
        rw [bind_apply] at run
        split at run
        · rename_i bs later
          obtain ⟨⟨rfl⟩, rfl⟩ := Prod.mk.inj run
          obtain ⟨rs, rfl, rfl, rest⟩ := ih later
          exact ⟨(f, b) :: rs, rfl, rfl, Run.cons first rest⟩
        · cases run
        · cases run
      · cases run
      · cases run
  · rintro ⟨rs, rfl, rfl, run⟩
    induction run with
    | nil => rfl
    | cons first later ih =>
      rw [List.map_cons, List.mapM_cons, bind_apply, first]
      simp only [bind_apply, ih]
      rfl

/-- Actions on templates that succeed where they are good, and change nothing where they are not. -/
structure Steady (act : Text → FileAction β) (ok : β → Bool) (suffixes : List Text)
    (Listed Good : FileTree → Text → Prop) : Prop where
  proper : Suffixes suffixes
  template : ∀ {t f}, Listed t f → Path.isTemplate f = true
  listed : ∀ {t u f}, t.Extends u → Listed t f → Listed u f
  told : ∀ {t u f b}, Listed t f → act f t = (.done b, u) → (ok b = true ↔ Good t f)
  undone : ∀ {t u f b}, Listed t f → act f t = (.done b, u) → ok b = false → u = t
  writes : ∀ {t u f b}, Listed t f → act f t = (.done b, u) → ok b = true →
    Good u f ∧ ∃ ws, Written t ws u ∧ ∀ w ∈ ws, w.1 ∈ companions suffixes f
  leads : ∀ {t f}, Good t f → (t.target? f).isSome
  same : ∀ {t f g p}, t.target? f = some p → t.target? g = some p → Good t g → Good t f
  own : ∀ {t u f}, t.Extends u → (∀ x ∈ companions suffixes f, t.Keeps u x) → (Good u f ↔ Good t f)

namespace Steady

variable (steady : Steady act ok suffixes Listed Good)
include steady

theorem step (here : Listed t f) (there : Listed t g) (run : act g t = (.done b, u)) :
    t.Extends u ∧ (Good u f ↔ Good t f) ∧ (¬Good t f → t.Keeps u f) := by
  cases success : ok b with
  | false =>
    rw [steady.undone there run success]
    exact ⟨extends_refl t, Iff.rfl, fun _ _ _ => rfl⟩
  | true =>
    obtain ⟨after, ws, written, paths⟩ := steady.writes there run success
    have extended := written.extends
    refine ⟨extended, ?_⟩
    have before := (steady.told there run).mp success
    obtain ⟨q, second⟩ := Option.isSome_iff_exists.mp (steady.leads before)
    cases first : t.target? f with
    | none =>
      have bad : ∀ v : FileTree, v.target? f = none → ¬Good v f := by
        intro v nowhere good
        have somewhere := steady.leads good
        rw [nowhere] at somewhere
        cases somewhere
      refine ⟨iff_of_false (bad u ((extended.target f).trans first)) (bad t first), fun _ place target => ?_⟩
      rw [first] at target
      cases target
    | some p =>
      by_cases place : p = q
      · -- another path to the same template
        subst place
        have good := steady.same first second before
        refine ⟨iff_of_true ?_ good, fun bad => absurd good bad⟩
        exact steady.same ((extended.target f).trans first) ((extended.target g).trans second) after
      · have kept : ∀ x ∈ companions suffixes f, t.Keeps u x := fun x mine =>
          written.keeps fun w member other target target' =>
            companions_apart steady.proper (steady.template here) (steady.template there) first second
              place mine (paths w member) target' target
        exact ⟨steady.own extended kept, fun _ => kept f (List.mem_cons_self ..)⟩

/-- What becomes of each file was settled at the start, and a file that fails is kept. -/
theorem run_settled (run : Run act t rs u) (listed : ∀ r ∈ rs, Listed t r.1) :
    t.Extends u ∧ (∀ r ∈ rs, ok r.2 = true ↔ Good t r.1) ∧
      ∀ f, Listed t f → ¬Good t f → t.Keeps u f := by
  induction run with
  | nil => exact ⟨extends_refl _, by simp, fun _ _ _ _ _ => rfl⟩
  | @cons t u v g b rs first later ih =>
    have there := listed _ (List.mem_cons_self ..)
    have rest : ∀ r ∈ rs, Listed t r.1 := fun r member => listed r (List.mem_cons_of_mem _ member)
    have extended := (steady.step there there first).1
    obtain ⟨last, told, kept⟩ := ih fun r member => steady.listed extended (rest r member)
    refine ⟨extended.trans last, ?_, fun f here bad => ?_⟩
    · rintro r (_ | ⟨_, member⟩)
      · exact steady.told there first
      · rw [told r member]
        exact (steady.step (rest r member) there first).2.1
    · obtain ⟨-, fate, keeps⟩ := steady.step here there first
      intro place target
      have next := kept f (steady.listed extended here) (mt fate.mp bad) place
        ((extended.target f).trans target)
      rw [next, keeps bad place target]

/-- The others go on as if a file that fails were not among them. -/
theorem run_without (run : Run act t rs u) (listed : ∀ r ∈ rs, Listed t r.1) (here : Listed t f)
    (bad : ¬Good t f) : Run act t (rs.filter fun r => r.1 ≠ f) u := by
  induction run with
  | nil => exact Run.nil
  | @cons t u v g b rs first later ih =>
    have there := listed _ (List.mem_cons_self ..)
    obtain ⟨extended, fate, -⟩ := steady.step here there first
    have rest := ih (fun r member => steady.listed extended (listed r (List.mem_cons_of_mem _ member)))
      (steady.listed extended here) (mt fate.mp bad)
    by_cases same : g = f
    · subst same
      have failed : ok b = false := by
        rw [← Bool.not_eq_true, steady.told there first]
        exact bad
      rw [List.filter_cons_of_neg (by simp), ← steady.undone there first failed]
      exact rest
    · rw [List.filter_cons_of_pos (by simpa using same)]
      exact Run.cons first rest

end Steady

end FileAction

end TemplateMarkup
