import TemplateMarkup.Region

/-!
Pieces taken out of a text. A cut goes through a text from left to right and lists the pieces that are
taken out, each under a label, with the text that is left. Comments, code and styles are all taken out
by cuts, so a pass over a text either leaves it as it is or makes it shorter.
-/
namespace TemplateMarkup

namespace Text

/-- The text `t`, which stands at the offset `n`, without pieces that the labels `xs` describe. -/
inductive Cut {α : Type} (describes : α → Nat → Text → Prop) :
    (n : Nat) → (t : Text) → (xs : List α) → (rest : Text) → Prop where
  | nil {n : Nat} : Cut describes n [] [] []
  | keep {n : Nat} {c : Char} {t rest : Text} {xs : List α}
      (later : Cut describes (n + c.utf8Size) t xs rest) :
      Cut describes n (c :: t) xs (c :: rest)
  | take {n : Nat} {piece t rest : Text} {x : α} {xs : List α} (filled : piece ≠ [])
      (described : describes x n piece) (later : Cut describes (n + bytes piece) t xs rest) :
      Cut describes n (piece ++ t) (x :: xs) rest

variable {α : Type} {describes : α → Nat → Text → Prop} {n : Nat} {t rest : Text} {xs : List α}

theorem cut_nothing (n : Nat) (t : Text) : Cut describes n t [] t := by
  induction t generalizing n with
  | nil => exact Cut.nil
  | cons c t ih => exact Cut.keep (ih _)

theorem cut_after (gap : Text) (cut : Cut describes (n + bytes gap) t xs rest) :
    Cut describes n (gap ++ t) xs (gap ++ rest) := by
  induction gap generalizing n with
  | nil => exact cut
  | cons c gap ih =>
    refine Cut.keep (ih ?_)
    rw [Nat.add_assoc]
    exact cut

theorem cut_length (cut : Cut describes n t xs rest) : rest.length + xs.length ≤ t.length := by
  induction cut with
  | nil => simp
  | keep later ih =>
    simp only [List.length_cons]
    omega
  | take filled described later ih =>
    have positive := List.length_pos_iff.mpr filled
    simp only [List.length_append, List.length_cons]
    omega

theorem cut_rest_eq (cut : Cut describes n t xs rest) (nothing : xs = []) : rest = t := by
  induction cut with
  | nil => rfl
  | keep later ih => rw [ih nothing]
  | take => cases nothing

theorem cut_sublist (cut : Cut describes n t xs rest) : rest.Sublist t := by
  induction cut with
  | nil => exact List.Sublist.slnil
  | keep later ih => exact ih.cons_cons _
  | take filled described later ih => exact ih.trans (List.sublist_append_right _ _)

theorem outsideFrom_cut {span : α → Span} (lead gap : Text) (cut : Cut describes n t xs rest)
    (spans : ∀ x n piece, describes x n piece → span x = ⟨n, n + bytes piece⟩)
    (offset : n = bytes (lead ++ gap)) :
    outsideFrom (lead ++ gap ++ t) (bytes lead) (xs.map span) = gap ++ rest := by
  induction cut generalizing lead gap with
  | nil => simp [outsideFrom, dropBytes_append]
  | @keep n c t rest xs later ih =>
    have later := ih lead (gap ++ [c]) (by simp [offset, Nat.add_assoc])
    simpa using later
  | @take n piece t rest x xs filled described later ih =>
    have later := ih (lead ++ gap ++ piece) [] (by simp [offset, Nat.add_assoc])
    have before := slice?_append lead gap (piece ++ t)
    rw [← bytes_append, ← List.append_assoc] at before
    rw [List.map_cons, outsideFrom, spans x n piece described, offset, slice, before]
    simpa [Nat.add_assoc] using later

theorem outside_cut {span : α → Span} (cut : Cut describes 0 t xs rest)
    (spans : ∀ x n piece, describes x n piece → span x = ⟨n, n + bytes piece⟩) :
    outside t (xs.map span) = rest :=
  outsideFrom_cut [] [] cut spans rfl

theorem splitAt?_eq {part before after : Text} (found : splitAt? part t = some (before, after)) :
    t = before ++ part ++ after := by
  induction t generalizing before with
  | nil =>
    rw [splitAt?] at found
    split at found
    · rename_i rest strip
      obtain ⟨rfl, rfl⟩ := Prod.mk.inj (Option.some.inj found)
      simpa using stripLead?_eq_some_iff.mp strip
    · simp at found
  | cons c t ih =>
    rw [splitAt?] at found
    split at found
    · rename_i rest strip
      obtain ⟨rfl, rfl⟩ := Prod.mk.inj (Option.some.inj found)
      simpa using stripLead?_eq_some_iff.mp strip
    · obtain ⟨⟨inner, tail⟩, inside, same⟩ := Option.map_eq_some_iff.mp found
      obtain ⟨rfl, rfl⟩ := Prod.mk.inj same
      rw [ih inside]
      simp

theorem splitAt?_isSome_iff {part : Text} :
    (splitAt? part t).isSome ↔ ∃ before after, t = before ++ part ++ after := by
  constructor
  · intro found
    obtain ⟨⟨before, after⟩, split⟩ := Option.isSome_iff_exists.mp found
    exact ⟨before, after, splitAt?_eq split⟩
  · rintro ⟨before, after, rfl⟩
    induction before with
    | nil =>
      have strip : stripLead? part ([] ++ part ++ after) = some after :=
        stripLead?_eq_some_iff.mpr (by simp)
      rw [splitAt?.eq_def, strip]
      rfl
    | cons c before ih =>
      rw [splitAt?.eq_def]
      split
      · rfl
      · simpa using ih

/-- An occurrence that comes first in a text comes first in any longer one. -/
theorem splitAt?_append {part before after : Text} (more : Text)
    (found : splitAt? part t = some (before, after)) :
    splitAt? part (t ++ more) = some (before, after ++ more) := by
  induction t generalizing before with
  | nil =>
    have parts := splitAt?_eq found
    obtain ⟨rfl, rfl, rfl⟩ : before = [] ∧ part = [] ∧ after = [] := by simpa using parts.symm
    rw [splitAt?.eq_def, stripLead?_eq_some_iff.mpr rfl]
    rfl
  | cons c t ih =>
    rw [splitAt?] at found
    split at found
    · rename_i rest strip
      obtain ⟨rfl, rfl⟩ := Prod.mk.inj (Option.some.inj found)
      have strip : stripLead? part (c :: t ++ more) = some (rest ++ more) := by
        rw [stripLead?_eq_some_iff] at strip ⊢
        rw [strip, List.append_assoc]
      rw [splitAt?.eq_def, strip]
    · rename_i refused
      obtain ⟨⟨inner, tail⟩, inside, same⟩ := Option.map_eq_some_iff.mp found
      obtain ⟨rfl, rfl⟩ := Prod.mk.inj same
      -- the part is no longer than the rest of the text, so it ends before what is added
      have none : stripLead? part (c :: t ++ more) = none := by
        refine Option.eq_none_iff_forall_ne_some.mpr fun rest strip => ?_
        have long : part.length ≤ (c :: t).length := by
          rw [splitAt?_eq inside]
          simp only [List.length_cons, List.length_append]
          omega
        obtain ⟨early, split⟩ : part <+: c :: t :=
          List.prefix_of_prefix_length_le ⟨rest, (stripLead?_eq_some_iff.mp strip).symm⟩
            (List.prefix_append (c :: t) more) long
        rw [stripLead?_eq_some_iff.mpr split.symm] at refused
        cases refused
      rw [List.cons_append] at none ⊢
      rw [splitAt?, none, ih inside]
      rfl

/-- A piece from `opening` through the next `closing`, which encloses `inside`. -/
def Delimited (opening closing inside : Text) (_ : Nat) (piece : Text) : Prop :=
  piece = opening ++ inside ++ closing

/-- Delimited pieces are cut out; there is none exactly if no opening has a closing after it. -/
theorem removeDelimitedFrom_cut {opening closing : Text} (given : opening ≠ []) (fuel n : Nat)
    (t : Text) (enough : t.length < fuel) :
    ∃ insides, Cut (Delimited opening closing) n t insides
        (removeDelimitedFrom opening closing fuel t) ∧
      (insides = [] ↔ ∀ lead after, t = lead ++ opening ++ after → splitAt? closing after = none) := by
  induction fuel generalizing n t with
  | zero => omega
  | succ fuel ih =>
    cases t with
    | nil =>
      refine ⟨[], ?_, ?_⟩
      · rw [removeDelimitedFrom]
        exact Cut.nil
        omega
      · simp [given]
    | cons c t =>
      simp only [List.length_cons] at enough
      rw [removeDelimitedFrom]
      cases here : (stripLead? opening (c :: t)).bind (splitAt? closing) with
      | none =>
        obtain ⟨insides, cut, nothing⟩ := ih (n + c.utf8Size) t (by omega)
        refine ⟨insides, Cut.keep cut, nothing.trans ⟨?_, ?_⟩⟩
        · intro clear lead after split
          cases lead with
          | nil =>
            have strip : stripLead? opening (c :: t) = some after :=
              stripLead?_eq_some_iff.mpr split
            rw [strip] at here
            exact here
          | cons d lead =>
            obtain ⟨-, rfl⟩ := List.cons.inj split
            exact clear lead after rfl
        · intro clear lead after split
          exact clear (c :: lead) after (by rw [split]; rfl)
      | some found =>
        obtain ⟨after, strip, split⟩ := Option.bind_eq_some_iff.mp here
        have text : c :: t = opening ++ found.1 ++ closing ++ found.2 := by
          rw [stripLead?_eq_some_iff.mp strip, splitAt?_eq split]
          simp
        have shorter : found.2.length < fuel := by
          have lengths := congrArg List.length text
          have positive := List.length_pos_iff.mpr given
          simp only [List.length_cons, List.length_append] at lengths
          omega
        obtain ⟨insides, cut, -⟩ := ih (n + bytes (opening ++ found.1 ++ closing)) found.2 shorter
        refine ⟨found.1 :: insides, ?_, ?_⟩
        · rw [text]
          exact Cut.take (by simp [given]) rfl cut
        · refine ⟨fun impossible => absurd impossible (by simp), fun clear => ?_⟩
          have refused := clear [] after (stripLead?_eq_some_iff.mp strip)
          rw [split] at refused
          cases refused

theorem occurrencesFrom_sound {part after : Text} {skip start : Nat} (given : part ≠ [])
    (member : (start, after) ∈ occurrencesFrom part skip n t) :
    ∃ lead, t = lead ++ part ++ after ∧ start = n + bytes lead := by
  induction t generalizing skip n with
  | nil => simp [occurrencesFrom, given] at member
  | cons c t ih =>
    have later : ∀ k, (start, after) ∈ occurrencesFrom part k (n + c.utf8Size) t →
        ∃ lead, c :: t = lead ++ part ++ after ∧ start = n + bytes lead := by
      intro k member
      obtain ⟨lead, rfl, start⟩ := ih member
      exact ⟨c :: lead, rfl, by rw [start, bytes_cons, Nat.add_assoc]⟩
    cases skip with
    | succ k => exact later k member
    | zero =>
      rw [occurrencesFrom] at member
      split at member
      · rename_i found strip
        rcases List.mem_cons.mp member with here | further
        · obtain ⟨rfl, rfl⟩ := Prod.mk.inj here
          exact ⟨[], stripLead?_eq_some_iff.mp strip, rfl⟩
        · exact later _ further
      · exact later 0 member

/-- The offset of every occurrence of a part, overlapping ones included, and what follows it. -/
def everyOccurrence (part : Text) (n : Nat) : Text → List (Nat × Text)
  | [] => []
  | c :: t =>
    ((stripLead? part (c :: t)).map fun after => (n, after)).toList ++
      everyOccurrence part (n + c.utf8Size) t

/-- Occurrences of a part whose first character does not come again in it never overlap. -/
theorem occurrencesFrom_eq_every {c : Char} {part : Text} (once : c ∉ part) (skip n : Nat) (t : Text)
    (clear : c ∉ t.take skip) :
    occurrencesFrom (c :: part) skip n t = everyOccurrence (c :: part) n t := by
  induction t generalizing skip n with
  | nil => simp [occurrencesFrom, everyOccurrence]
  | cons d t ih =>
    cases skip with
    | succ skip =>
      simp only [List.take_succ_cons, List.mem_cons, not_or] at clear
      have differs : stripLead? (c :: part) (d :: t) = none := by simp [stripLead?, clear.1]
      rw [occurrencesFrom, everyOccurrence, differs, ih skip _ clear.2]
      rfl
    | zero =>
      rw [occurrencesFrom, everyOccurrence]
      split
      · rename_i after strip
        have text := stripLead?_eq_some_iff.mp strip
        obtain ⟨-, rfl⟩ := List.cons.inj text
        rw [ih _ _ (by simpa using once), strip]
        rfl
      · rename_i differs
        rw [ih 0 _ (by simp), differs]
        rfl

theorem mem_everyOccurrence {part after : Text} (given : part ≠ []) (lead : Text)
    (split : t = lead ++ part ++ after) : (n + bytes lead, after) ∈ everyOccurrence part n t := by
  subst split
  induction lead generalizing n with
  | nil =>
    obtain ⟨c, tail, rfl⟩ := List.exists_cons_of_ne_nil given
    have strip : stripLead? (c :: tail) (c :: (tail ++ after)) = some after :=
      stripLead?_eq_some_iff.mpr rfl
    simp [everyOccurrence, strip]
  | cons c lead ih =>
    have later := ih (n := n + c.utf8Size)
    rw [Nat.add_assoc] at later
    exact List.mem_append_right _ later

end Text

end TemplateMarkup
