import TemplateMarkup.Orphan
import TemplateMarkup.Proofs.Lists
import TemplateMarkup.Proofs.Stylesheet

/-!
Templates without orphans. Every class that a template uses is a valid name and one word, wherever in the
template it was found; so a stylesheet with a rule for each of them defines them all.
-/
namespace TemplateMarkup

theorem Text.mem_wordsFrom {run t w : Text} (solid : ∀ c ∈ run, isBlank c = false)
    (member : w ∈ Text.wordsFrom run t) : ∀ c ∈ w, isBlank c = false := by
  induction t generalizing run with
  | nil =>
    rw [Text.wordsFrom] at member
    split at member
    · cases member
    · rw [List.mem_singleton.mp member]
      exact fun c inside => solid c (List.mem_reverse.mp inside)
  | cons d t ih =>
    rw [Text.wordsFrom] at member
    split at member
    · have later : w ∈ Text.wordsFrom [] t → ∀ c ∈ w, isBlank c = false := ih (by simp)
      split at member
      · exact later member
      · rcases List.mem_cons.mp member with rfl | member
        · exact fun c inside => solid c (List.mem_reverse.mp inside)
        · exact later member
    · rename_i filled
      refine ih (fun c inside => ?_) member
      rcases List.mem_cons.mp inside with rfl | inside
      · simpa using filled
      · exact solid c inside

namespace ClassUse

open ClassName

variable {t : Text} {uses : List ClassUse} {u : ClassUse}

theorem tokens_isToken {keep : Text → Bool} (valid : ∀ n, keep n = true → isValid n = true) {n : Text}
    (member : n ∈ tokens keep t) : IsToken n := by
  obtain ⟨word, kept⟩ := List.mem_filter.mp member
  exact ⟨valid n kept, Text.mem_wordsFrom (by simp) word⟩

theorem ofLiterals?_isToken {keep : Text → Bool} (valid : ∀ n, keep n = true → isValid n = true)
    {names : List Text} (found : ofLiterals? keep t = some names) : ∀ n ∈ names, IsToken n := by
  obtain ⟨literals, -, rfl⟩ := Option.map_eq_some_iff.mp found
  intro n member
  obtain ⟨literal, -, inside⟩ := List.mem_flatMap.mp member
  exact tokens_isToken valid inside

theorem ofValue?_isToken (found : ofValue? t = some uses) (member : u ∈ uses) : IsToken u.name := by
  have plain : ∀ u ∈ (tokens isValid t).map fun n => (⟨n, .staticAttribute, .high⟩ : ClassUse),
      IsToken u.name := by
    intro u member
    obtain ⟨n, listed, rfl⟩ := List.mem_map.mp member
    exact tokens_isToken (fun _ valid => valid) listed
  unfold ofValue? at found
  dsimp only at found
  split at found
  · obtain ⟨names, literals, rfl⟩ := Option.map_eq_some_iff.mp found
    rcases List.mem_append.mp member with word | literal
    · exact plain u word
    · obtain ⟨n, listed, rfl⟩ := List.mem_map.mp literal
      exact ofLiterals?_isToken (fun _ valid => valid) literals n listed
  · obtain rfl := Option.some.inj found
    exact plain u member

theorem ofAttribute?_isToken {a : Attribute} (found : ofAttribute? a = some uses) (member : u ∈ uses) :
    IsToken u.name := by
  have none : some [] = some uses → IsToken u.name := by
    intro same
    rw [← Option.some.inj same] at member
    cases member
  unfold ofAttribute? at found
  split at found
  · split at found
    · exact ofValue?_isToken found member
    · exact none found
  · exact none found

theorem ofCode?_isToken (found : ofCode? t = some uses) (member : u ∈ uses) : IsToken u.name := by
  obtain ⟨names, literals, rfl⟩ := Option.map_eq_some_iff.mp found
  obtain ⟨n, listed, rfl⟩ := List.mem_map.mp member
  refine ofLiterals?_isToken (fun m trusted => ?_) literals n listed
  rw [isTrusted, Bool.and_eq_true] at trusted
  exact trusted.1

/-- Wherever a class is used, its name is valid and one word. -/
theorem occurrences?_isToken (found : occurrences? t = some uses) (member : u ∈ uses) :
    IsToken u.name := by
  rw [occurrences?] at found
  obtain ⟨attributes, inMarkup, found⟩ := Option.bind_eq_some_iff.mp found
  obtain ⟨code, inCode, same⟩ := Option.bind_eq_some_iff.mp found
  obtain rfl := Option.some.inj same
  rcases List.mem_append.mp member with markup | code
  · obtain ⟨part, listed, inside⟩ := List.mem_flatten.mp markup
    obtain ⟨a, -, uses⟩ := (mem_mapM_iff inMarkup).mp listed
    exact ofAttribute?_isToken uses inside
  · obtain ⟨part, listed, inside⟩ := List.mem_flatten.mp code
    obtain ⟨r, -, uses⟩ := (mem_mapM_iff inCode).mp listed
    exact ofCode?_isToken uses inside

theorem mem_insert {use : ClassUse} (member : u ∈ use.insert uses) : u = use ∨ u ∈ uses := by
  induction uses with
  | nil => exact Or.inl (List.mem_singleton.mp member)
  | cons v uses ih =>
    rw [insert] at member
    split at member
    · rcases List.mem_cons.mp member with same | later
      · split at same
        · exact Or.inr (same ▸ List.mem_cons_self ..)
        · exact Or.inl same
      · exact Or.inr (List.mem_cons_of_mem _ later)
    · split at member
      · exact List.mem_cons.mp member
      · rcases List.mem_cons.mp member with same | later
        · exact Or.inr (same ▸ List.mem_cons_self ..)
        · exact (ih later).imp_right (List.mem_cons_of_mem _)

theorem mem_foldl_insert {found : List ClassUse}
    (member : u ∈ uses.foldl (fun found use => use.insert found) found) : u ∈ found ∨ u ∈ uses := by
  induction uses generalizing found with
  | nil => exact Or.inl member
  | cons use uses ih =>
    rcases ih member with sooner | later
    · rcases mem_insert sooner with rfl | known
      · exact Or.inr (List.mem_cons_self ..)
      · exact Or.inl known
    · exact Or.inr (List.mem_cons_of_mem _ later)

end ClassUse

theorem usedClasses?_isToken {t : Text} {used : List Text} (uses : usedClasses? t = some used) :
    ∀ n ∈ used, ClassName.IsToken n := by
  obtain ⟨found, classes, rfl⟩ := Option.map_eq_some_iff.mp uses
  obtain ⟨all, occurrences, rfl⟩ := Option.map_eq_some_iff.mp classes
  intro n member
  obtain ⟨u, listed, rfl⟩ := List.mem_map.mp member
  rcases ClassUse.mem_foldl_insert listed with none | inside
  · cases none
  · exact ClassUse.occurrences?_isToken occurrences inside

/-- A stylesheet written for some class names defines just these; the one written for the classes of a
template leaves the template no orphans, whatever else is ignored. -/
theorem defined_classes_leave_no_orphans :
    (∀ names : List Text,
      (∀ n ∈ names, ClassName.isValid n = true ∧ ∀ c ∈ n, isBlank c = false) →
      (Stylesheet.definedClasses (Stylesheet.rules names)).Pairwise (fun m n => Text.lt m n = true) ∧
        ∀ n, n ∈ Stylesheet.definedClasses (Stylesheet.rules names) ↔ n ∈ names) ∧
    ∀ (template : Text) (used : List Text) (options : OrphanOptions),
      usedClasses? template = some used →
      findOrphans? template (some (Stylesheet.rules used)) options = some [] := by
  refine ⟨fun names tokens => ?_, fun template used options uses => ?_⟩
  · have defined := Stylesheet.definedClasses_rules fun n member =>
      ⟨(tokens n member).1, (tokens n member).2⟩
    rw [defined]
    exact ⟨Text.sortDistinct_ascending names, fun n => Text.mem_sortDistinct⟩
  · have defined := Stylesheet.definedClasses_rules (usedClasses?_isToken uses)
    rw [findOrphans?, uses, Option.map_some, Option.map_some, Option.getD_some, defined]
    have kept : ∀ n ∈ used, ¬(!(Text.sortDistinct used).contains n && !options.excludes n) = true := by
      intro n member
      simp [member]
    rw [List.filter_eq_nil_iff.mpr kept]

def pricedTemplate : Text :=
  "<p class=\"w-1.5 md:flex\">@Price</p>@code \x7b string c = \"is-open\"; \x7d".toList

def pricedClasses : List Text := ["is-open".toList, "md:flex".toList, "w-1.5".toList]

theorem pricedTemplate_no_orphans :
    usedClasses? pricedTemplate = some pricedClasses ∧
      Stylesheet.rules pricedClasses =
        ".is-open \x7b \x7d\n.md\\:flex \x7b \x7d\n.w-1\\.5 \x7b \x7d\n".toList ∧
      (∀ n, n ∈ Stylesheet.definedClasses (Stylesheet.rules pricedClasses) ↔ n ∈ pricedClasses) ∧
      findOrphans? pricedTemplate (some (Stylesheet.rules pricedClasses)) {} = some [] := by
  have uses : usedClasses? pricedTemplate = some pricedClasses := by decide +kernel
  have tokens : ∀ n ∈ pricedClasses, ClassName.isValid n = true ∧ n.all (!isBlank ·) = true := by
    decide
  exact ⟨uses, by decide, (defined_classes_leave_no_orphans.1 pricedClasses fun n member =>
      ⟨(tokens n member).1, by simpa using (tokens n member).2⟩).2,
    defined_classes_leave_no_orphans.2 pricedTemplate _ {} uses⟩

end TemplateMarkup
