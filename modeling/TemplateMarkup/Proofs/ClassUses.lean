import Mathlib.Data.List.Nodup
import TemplateMarkup.Proofs.Literal.Boundaries
import TemplateMarkup.Proofs.Orphans

/-!
The evidence that a template gives for its classes. Uses are put one after the other into a list by name,
and of several uses of a name the surest stays. Only one list has the surest use of each name in order, so
it does not matter in which order the uses are found.
-/
namespace TemplateMarkup

theorem Confidence.rank_inj {c d : Confidence} (same : c.rank = d.rank) : c = d := by
  cases c <;> cases d <;> simp [rank] at same ⊢

def Confidence.provenance : Confidence → Provenance
  | high => .staticAttribute
  | medium => .dynamicLiteral
  | low => .dynamicLiteral

namespace ClassUse

open ClassName

/-- The list holds the surest of all uses of each name, in the order of the names. -/
structure Best (all uses : List ClassUse) : Prop where
  ascending : uses.Pairwise fun u v => Text.lt u.name v.name
  found : ∀ u ∈ uses, u ∈ all
  covers : ∀ v ∈ all, ∃ u ∈ uses, u.name = v.name ∧ v.confidence.rank ≤ u.confidence.rank

variable {t n code : Text} {all uses us vs : List ClassUse} {u v : ClassUse}

theorem insert_ascending (u : ClassUse) (ascending : uses.Pairwise fun u v => Text.lt u.name v.name) :
    (u.insert uses).Pairwise fun u v => Text.lt u.name v.name := by
  induction uses with
  | nil => exact List.pairwise_singleton ..
  | cons v uses ih =>
    obtain ⟨first, later⟩ := List.pairwise_cons.mp ascending
    rw [insert]
    split
    · rename_i same
      refine List.pairwise_cons.mpr ⟨?_, later⟩
      intro w member
      split
      · exact first w member
      · exact same ▸ first w member
    · rename_i differs
      split
      · rename_i before
        refine List.pairwise_cons.mpr ⟨?_, ascending⟩
        intro w member
        rcases List.mem_cons.mp member with rfl | member
        · exact before
        · exact Text.lt_order.trans before (first w member)
      · rename_i notBefore
        refine List.pairwise_cons.mpr ⟨?_, ih later⟩
        intro w member
        rcases mem_insert member with rfl | member
        · rcases Text.lt_order.total v.name w.name with less | same | less
          · exact less
          · exact absurd same differs
          · exact absurd less notBefore
        · exact first w member

theorem insert_covers (u : ClassUse) (uses : List ClassUse) :
    ∃ w ∈ u.insert uses, w.name = u.name ∧ u.confidence.rank ≤ w.confidence.rank := by
  induction uses with
  | nil => exact ⟨u, List.mem_singleton_self u, rfl, Nat.le_refl _⟩
  | cons v uses ih =>
    rw [insert]
    split
    · rename_i same
      split
      · rename_i surer
        exact ⟨v, List.mem_cons_self .., same, surer⟩
      · exact ⟨u, List.mem_cons_self .., rfl, Nat.le_refl _⟩
    · split
      · exact ⟨u, List.mem_cons_self .., rfl, Nat.le_refl _⟩
      · obtain ⟨w, member, covered⟩ := ih
        exact ⟨w, List.mem_cons_of_mem v member, covered⟩

theorem insert_keeps (u : ClassUse) (member : v ∈ uses) :
    ∃ w ∈ u.insert uses, w.name = v.name ∧ v.confidence.rank ≤ w.confidence.rank := by
  induction uses with
  | nil => cases member
  | cons x uses ih =>
    rw [insert]
    split
    · rename_i same
      rcases List.mem_cons.mp member with rfl | later
      · refine ⟨_, List.mem_cons_self .., ?_⟩
        split
        · exact ⟨rfl, Nat.le_refl _⟩
        · exact ⟨same.symm, by omega⟩
      · exact ⟨v, List.mem_cons_of_mem _ later, rfl, Nat.le_refl _⟩
    · split
      · exact ⟨v, List.mem_cons_of_mem u member, rfl, Nat.le_refl _⟩
      · rcases List.mem_cons.mp member with rfl | later
        · exact ⟨v, List.mem_cons_self .., rfl, Nat.le_refl _⟩
        · obtain ⟨w, inside, covered⟩ := ih later
          exact ⟨w, List.mem_cons_of_mem x inside, covered⟩

theorem best_insert (best : Best all uses) (u : ClassUse) : Best (all ++ [u]) (u.insert uses) where
  ascending := insert_ascending u best.ascending
  found v member := by
    rcases mem_insert member with rfl | known
    · exact List.mem_append_right all (List.mem_singleton_self v)
    · exact List.mem_append_left [u] (best.found v known)
  covers v member := by
    rcases List.mem_append.mp member with sooner | last
    · obtain ⟨w, known, same, surer⟩ := best.covers v sooner
      obtain ⟨x, kept, same', surer'⟩ := insert_keeps u known
      exact ⟨x, kept, same'.trans same, Nat.le_trans surer surer'⟩
    · obtain rfl := List.mem_singleton.mp last
      exact insert_covers v uses

theorem best_foldl (best : Best all uses) (more : List ClassUse) :
    Best (all ++ more) (more.foldl (fun found u => u.insert found) uses) := by
  induction more generalizing all uses with
  | nil => rwa [List.append_nil]
  | cons u more ih =>
    rw [List.append_cons]
    exact ih (best_insert best u)

theorem best_nil : Best [] [] := ⟨List.Pairwise.nil, by simp, by simp⟩

theorem best_congr (best : Best all uses) {all' : List ClassUse} (same : ∀ u, u ∈ all' ↔ u ∈ all) :
    Best all' uses :=
  ⟨best.ascending, fun u member => (same u).mpr (best.found u member),
    fun v member => best.covers v ((same v).mp member)⟩

theorem best_nodup (best : Best all uses) : (uses.map (·.name)).Nodup := by
  refine List.pairwise_map.mpr (best.ascending.imp ?_)
  intro u v less same
  rw [same, Text.lt_order.irrefl] at less
  cases less

/-- Uses of equal names and confidence are equal where the confidence tells where a use was found. -/
theorem best_subset (sound : ∀ u ∈ all, u.provenance = u.confidence.provenance) (first : Best all us)
    (second : Best all vs) (member : u ∈ us) : u ∈ vs := by
  have listed := first.found u member
  obtain ⟨v, memberV, name, surer⟩ := second.covers u listed
  have listedV := second.found v memberV
  obtain ⟨w, memberW, nameW, surest⟩ := first.covers v listedV
  obtain rfl : w = u := List.inj_on_of_nodup_map (best_nodup first) memberW member (nameW.trans name)
  have confidence : v.confidence = w.confidence := Confidence.rank_inj (by omega)
  have provenance : v.provenance = w.provenance := by
    rw [sound v listedV, sound w listed, confidence]
  have same : w = v := by
    cases v
    cases w
    simp_all
  exact same ▸ memberV

theorem best_unique (sound : ∀ u ∈ all, u.provenance = u.confidence.provenance) (first : Best all us)
    (second : Best all vs) : us = vs := by
  have same : us.Perm vs := by
    refine (List.perm_ext_iff_of_nodup (best_nodup first).of_map (best_nodup second).of_map).mpr ?_
    intro u
    exact ⟨best_subset sound first second, best_subset sound second first⟩
  refine same.eq_of_pairwise ?_ first.ascending second.ascending
  intro u v _ _ less more
  rw [Text.lt_order.asymm less] at more
  cases more

/-- What a text says for a class name, and how sure that is: a word of a class attribute, a word of a string
in a class attribute with code, or a trusted word of a string in code. -/
inductive Evidence (t n : Text) : Confidence → Prop
  | word {r : Record} {a : Attribute} {value : Text} (record : r ∈ (Document.read t).records)
      (listed : a ∈ r.attributes) (names : isAttribute a.name) (read : a.value = some value)
      (word : n ∈ Text.words value) (valid : isValid n) : Evidence t n .high
  | valueLiteral {r : Record} {a : Attribute} {value literal : Text} {literals : List Text}
      (record : r ∈ (Document.read t).records) (listed : a ∈ r.attributes) (names : isAttribute a.name)
      (read : a.value = some value) (marked : '@' ∈ value) (bodies : Literal.all? value = some literals)
      (body : literal ∈ literals) (plain : isClassList literal) (word : n ∈ Text.words literal)
      (valid : isValid n) : Evidence t n .medium
  | codeLiteral {region : Region} {literal : Text} {literals : List Text} (code : region ∈ Region.codeIn t)
      (bodies : Literal.all? region.content = some literals) (body : literal ∈ literals)
      (plain : isClassList literal) (word : n ∈ Text.words literal) (trusted : isTrusted n) :
      Evidence t n (if '-' ∈ n then .medium else .low)

theorem mem_ofLiterals? {keep : Text → Bool} {names : List Text} (found : ofLiterals? keep code = some names) :
    n ∈ names ↔ ∃ literals, Literal.all? code = some literals ∧
      ∃ literal ∈ literals, isClassList literal ∧ n ∈ Text.words literal ∧ keep n := by
  obtain ⟨literals, bodies, rfl⟩ := Option.map_eq_some_iff.mp found
  rw [bodies]
  simp [tokens, and_assoc]

theorem mem_map_use {use : Text → ClassUse} (named : ∀ n, (use n).name = n) {names : List Text} :
    u ∈ names.map use ↔ u = use u.name ∧ u.name ∈ names := by
  rw [List.mem_map]
  constructor
  · rintro ⟨n, member, rfl⟩
    rw [named]
    exact ⟨rfl, member⟩
  · rintro ⟨same, member⟩
    exact ⟨u.name, member, same.symm⟩

theorem mem_ofValue? {value : Text} (found : ofValue? value = some us) :
    u ∈ us ↔ (u = ⟨u.name, .staticAttribute, .high⟩ ∧ u.name ∈ Text.words value ∧ isValid u.name) ∨
      u = ⟨u.name, .dynamicLiteral, .medium⟩ ∧ '@' ∈ value ∧ ∃ literals,
        Literal.all? value = some literals ∧ ∃ literal ∈ literals,
          isClassList literal ∧ u.name ∈ Text.words literal ∧ isValid u.name := by
  unfold ofValue? at found
  dsimp only at found
  split at found
  · rename_i marked
    obtain ⟨names, literals, rfl⟩ := Option.map_eq_some_iff.mp found
    rw [List.mem_append, mem_map_use fun _ => rfl, mem_map_use fun _ => rfl, tokens, List.mem_filter,
      ← mem_ofLiterals? literals]
    simp [List.contains_iff_mem.mp marked]
  · rename_i unmarked
    obtain rfl := Option.some.inj found
    rw [mem_map_use fun _ => rfl, tokens, List.mem_filter]
    simp [List.contains_iff_mem.not.mp unmarked]

theorem ofAttribute?_eq {a : Attribute} {value : Text} (names : isAttribute a.name)
    (read : a.value = some value) : ofAttribute? a = ofValue? value := by
  simp [ofAttribute?, read, names]

theorem mem_ofAttribute? {a : Attribute} (found : ofAttribute? a = some us) :
    u ∈ us ↔ isAttribute a.name ∧ ∃ value, a.value = some value ∧
      ∃ part, ofValue? value = some part ∧ u ∈ part := by
  unfold ofAttribute? at found
  split at found
  · rename_i value read
    split at found
    · rename_i names
      simp [read, names, found]
    · rename_i other
      obtain rfl := Option.some.inj found
      simp [other]
  · rename_i read
    obtain rfl := Option.some.inj found
    simp [read]

theorem mem_ofCode? (found : ofCode? code = some us) :
    u ∈ us ↔ u = ⟨u.name, .dynamicLiteral, if '-' ∈ u.name then .medium else .low⟩ ∧ ∃ literals,
      Literal.all? code = some literals ∧ ∃ literal ∈ literals,
        isClassList literal ∧ u.name ∈ Text.words literal ∧ isTrusted u.name := by
  obtain ⟨names, literals, rfl⟩ := Option.map_eq_some_iff.mp found
  rw [← mem_ofLiterals? literals, mem_map_use fun _ => rfl]
  simp

def gather? (attributes : List Attribute) (regions : List Region) : Option (List ClassUse) := do
  let markup ← attributes.mapM ofAttribute?
  let code ← regions.mapM fun r => ofCode? r.content
  return markup.flatten ++ code.flatten

theorem mem_gather? {attributes : List Attribute} {regions : List Region}
    (found : gather? attributes regions = some all) :
    u ∈ all ↔ (∃ a ∈ attributes, ∃ us, ofAttribute? a = some us ∧ u ∈ us) ∨
      ∃ r ∈ regions, ∃ us, ofCode? r.content = some us ∧ u ∈ us := by
  obtain ⟨markup, inMarkup, found⟩ := Option.bind_eq_some_iff.mp found
  obtain ⟨code, inCode, same⟩ := Option.bind_eq_some_iff.mp found
  obtain rfl := Option.some.inj same
  simp only [List.mem_append, List.mem_flatten, mem_mapM_iff inMarkup, mem_mapM_iff inCode]
  grind

theorem gather?_defined {attributes : List Attribute} {regions : List Region}
    (found : gather? attributes regions = some all) :
    (∀ a ∈ attributes, (ofAttribute? a).isSome) ∧ ∀ r ∈ regions, (ofCode? r.content).isSome := by
  obtain ⟨markup, inMarkup, found⟩ := Option.bind_eq_some_iff.mp found
  obtain ⟨code, inCode, _⟩ := Option.bind_eq_some_iff.mp found
  exact ⟨mapM_isSome_iff.mp (Option.isSome_of_eq_some inMarkup),
    mapM_isSome_iff.mp (Option.isSome_of_eq_some inCode)⟩

/-- The order of attributes and code does not matter for the uses in them. -/
theorem gather?_perm {attributes attributes' : List Attribute} {regions regions' : List Region}
    (found : gather? attributes regions = some all) (markup : attributes'.Perm attributes)
    (code : regions'.Perm regions) : ∃ all', gather? attributes' regions' = some all' ∧
      ∀ u, u ∈ all' ↔ u ∈ all := by
  obtain ⟨inMarkup, inCode⟩ := gather?_defined found
  obtain ⟨us, first⟩ := Option.isSome_iff_exists.mp
    (mapM_isSome_iff.mpr fun a member => inMarkup a (markup.mem_iff.mp member))
  obtain ⟨vs, second⟩ := Option.isSome_iff_exists.mp
    (mapM_isSome_iff.mpr fun r member => inCode r (code.mem_iff.mp member))
  have found' : gather? attributes' regions' = some (us.flatten ++ vs.flatten) := by
    rw [gather?, first, second]
    rfl
  refine ⟨_, found', ?_⟩
  intro u
  simp only [mem_gather? found', mem_gather? found, markup.mem_iff, code.mem_iff]

theorem occurrences?_eq (t : Text) : occurrences? t =
    gather? ((Document.read t).records.flatMap (·.attributes)) (Region.codeIn t) := rfl

theorem mem_occurrences? (found : occurrences? t = some all) :
    u ∈ all ↔ Evidence t u.name u.confidence ∧ u.provenance = u.confidence.provenance := by
  rw [occurrences?_eq] at found
  rw [mem_gather? found]
  constructor
  · rintro (⟨a, listed, us, uses, member⟩ | ⟨region, code, us, uses, member⟩)
    · obtain ⟨r, record, listed⟩ := List.mem_flatMap.mp listed
      obtain ⟨names, value, read, part, parts, member⟩ := (mem_ofAttribute? uses).mp member
      rcases (mem_ofValue? parts).mp member with ⟨same, word, valid⟩ |
        ⟨same, marked, literals, bodies, literal, body, plain, word, valid⟩
      · rw [same]
        exact ⟨.word record listed names read word valid, rfl⟩
      · rw [same]
        exact ⟨.valueLiteral record listed names read marked bodies body plain word valid, rfl⟩
    · obtain ⟨same, literals, bodies, literal, body, plain, word, trusted⟩ := (mem_ofCode? uses).mp member
      rw [same]
      refine ⟨.codeLiteral code bodies body plain word trusted, ?_⟩
      dsimp only
      split <;> rfl
  · rintro ⟨evidence, provenance⟩
    obtain ⟨inMarkup, inCode⟩ := gather?_defined found
    obtain ⟨name, source, confidence⟩ := u
    dsimp only at evidence provenance
    subst provenance
    cases evidence with
    | @word r a value record listed names read word valid =>
      have member := List.mem_flatMap.mpr ⟨r, record, listed⟩
      obtain ⟨us, uses⟩ := Option.isSome_iff_exists.mp (inMarkup a member)
      refine Or.inl ⟨a, member, us, uses, ?_⟩
      rw [ofAttribute?_eq names read] at uses
      exact (mem_ofValue? uses).mpr (Or.inl ⟨rfl, word, valid⟩)
    | @valueLiteral r a value literal literals record listed names read marked bodies body plain word valid =>
      have member := List.mem_flatMap.mpr ⟨r, record, listed⟩
      obtain ⟨us, uses⟩ := Option.isSome_iff_exists.mp (inMarkup a member)
      refine Or.inl ⟨a, member, us, uses, ?_⟩
      rw [ofAttribute?_eq names read] at uses
      exact (mem_ofValue? uses).mpr
        (Or.inr ⟨rfl, marked, literals, bodies, literal, body, plain, word, valid⟩)
    | @codeLiteral region literal literals code bodies body plain word trusted =>
      obtain ⟨us, uses⟩ := Option.isSome_iff_exists.mp (inCode region code)
      refine Or.inr ⟨region, code, us, uses, (mem_ofCode? uses).mpr ⟨?_, ?_⟩⟩
      · dsimp only
        split <;> rfl
      · exact ⟨literals, bodies, literal, body, plain, word, trusted⟩

/-- The classes of a text are listed by name, each with the surest evidence for it, in whatever order the
elements, attributes and code of the text are gone through. -/
theorem classUses_best (t : Text) (uses : List ClassUse) (found : classUses? t = some uses) :
    (uses.Pairwise fun u v => Text.lt u.name v.name) ∧
      (∀ n, (∃ u ∈ uses, u.name = n) ↔ ∃ c, Evidence t n c) ∧
      (∀ u ∈ uses, Evidence t u.name u.confidence ∧
        (∀ c, Evidence t u.name c → c.rank ≤ u.confidence.rank) ∧
        (u.provenance = .staticAttribute ↔ u.confidence = .high)) ∧
      ∀ (attributes : List Attribute) (regions : List Region),
        attributes.Perm ((Document.read t).records.flatMap (·.attributes)) → regions.Perm (Region.codeIn t) →
          ∃ all, gather? attributes regions = some all ∧ ∀ visited : List ClassUse, visited.Perm all →
            visited.foldl (fun found u => u.insert found) [] = uses := by
  obtain ⟨all, occurrences, folded⟩ := Option.map_eq_some_iff.mp found
  have best : Best all uses := by
    rw [← folded]
    exact best_foldl best_nil all
  have sound : ∀ u ∈ all, u.provenance = u.confidence.provenance :=
    fun u member => ((mem_occurrences? occurrences).mp member).2
  have covered : ∀ {n c}, Evidence t n c → ∃ u ∈ uses, u.name = n ∧ c.rank ≤ u.confidence.rank := by
    intro n c evidence
    exact best.covers ⟨n, c.provenance, c⟩ ((mem_occurrences? occurrences).mpr ⟨evidence, rfl⟩)
  refine ⟨best.ascending, ?_, ?_, ?_⟩
  · intro n
    constructor
    · rintro ⟨u, member, rfl⟩
      exact ⟨u.confidence, ((mem_occurrences? occurrences).mp (best.found u member)).1⟩
    · rintro ⟨c, evidence⟩
      obtain ⟨u, member, name, _⟩ := covered evidence
      exact ⟨u, member, name⟩
  · intro u member
    obtain ⟨evidence, provenance⟩ := (mem_occurrences? occurrences).mp (best.found u member)
    refine ⟨evidence, ?_, ?_⟩
    · intro c other
      obtain ⟨v, memberV, name, surer⟩ := covered other
      obtain rfl : v = u := List.inj_on_of_nodup_map (best_nodup best) memberV member name
      exact surer
    · rw [provenance]
      cases u.confidence <;> simp [Confidence.provenance]
  · intro attributes regions markup code
    rw [occurrences?_eq] at occurrences
    obtain ⟨all', gathered, same⟩ := gather?_perm occurrences markup code
    refine ⟨all', gathered, ?_⟩
    intro visited perm
    have members : ∀ u, u ∈ visited ↔ u ∈ all := fun u => perm.mem_iff.trans (same u)
    have again : Best visited (visited.foldl (fun found u => u.insert found) []) :=
      best_foldl best_nil visited
    exact best_unique (fun u member => sound u ((members u).mp member)) again (best_congr best members)

/-- A class name in an attribute, in a string of that attribute, and in code. -/
def switchedTemplate : Text :=
  "<p class='btn @(on ? \"is-on\" : \"\")'></p>@code \x7b string c = \"btn is-on flex\"; \x7d".toList

def switchedUses : List ClassUse :=
  [⟨"btn".toList, .staticAttribute, .high⟩, ⟨"flex".toList, .dynamicLiteral, .low⟩,
    ⟨"is-on".toList, .dynamicLiteral, .medium⟩]

theorem switchedTemplate_best :
    classUses? switchedTemplate = some switchedUses ∧
      (∀ n, (∃ u ∈ switchedUses, u.name = n) ↔ ∃ c, Evidence switchedTemplate n c) ∧
      ∀ c, Evidence switchedTemplate "is-on".toList c → c.rank ≤ Confidence.medium.rank := by
  have found : classUses? switchedTemplate = some switchedUses := by decide +kernel
  obtain ⟨_, names, surest, _⟩ := classUses_best switchedTemplate switchedUses found
  exact ⟨found, names, (surest ⟨"is-on".toList, .dynamicLiteral, .medium⟩ (by decide)).2.1⟩

end ClassUse

end TemplateMarkup
