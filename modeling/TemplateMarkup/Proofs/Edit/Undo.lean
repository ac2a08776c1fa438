import TemplateMarkup.Proofs.Edit.Renames

/-!
Renaming a class back. Words never grow into the blanks around them, so a renamed value has the words of
the old one, each in its place. Where the new name was not in use, every word that has it was renamed, and
renaming in the other direction gives the old value.
-/
namespace TemplateMarkup

namespace Text

theorem words_blank {c : Char} (blank : isBlank c) (t : Text) : words (c :: t) = words t := by
  simp [words, wordsFrom, blank]

theorem wordsFrom_append {word : Text} (solid : isWord word) (run rest : Text) :
    wordsFrom run (word ++ rest) = wordsFrom (word.reverse ++ run) rest := by
  induction word generalizing run with
  | nil => rfl
  | cons c word ih =>
    obtain ⟨first, later⟩ := List.forall_mem_cons.mp (isWord_iff.mp solid)
    rw [List.cons_append, wordsFrom, if_neg (by simp [first]), ih (isWord_iff.mpr later)]
    simp

theorem words_word {word rest : Text} (filled : word ≠ []) (solid : isWord word)
    (ends : ∀ c ∈ rest.head?, isBlank c) : words (word ++ rest) = word :: words rest := by
  rw [words, wordsFrom_append solid, List.append_nil]
  cases rest with
  | nil => simp [words, wordsFrom, filled]
  | cons c rest => simp [words, wordsFrom, filled, ends c rfl]

/-- A text is empty, or it starts with a blank, or with a word that ends there. -/
theorem word_induction {P : Text → Prop} (nil : P [])
    (blank : ∀ (c : Char) (t : Text), isBlank c → P t → P (c :: t))
    (word : ∀ w rest : Text, w ≠ [] → isWord w → (∀ c ∈ rest.head?, isBlank c) → P rest → P (w ++ rest))
    (t : Text) : P t := by
  induction size : t.length using Nat.strongRecOn generalizing t with
  | ind n ih =>
    cases t with
    | nil => exact nil
    | cons c t =>
      by_cases kind : isBlank c
      · exact blank c t kind (ih t.length (by rw [← size]; exact Nat.lt_succ_self _) t rfl)
      · let solid : Char → Bool := fun d => !isBlank d
        have starts : solid c = true := by simp [solid, kind]
        have parts : (c :: t).takeWhile solid ++ (c :: t).dropWhile solid = c :: t :=
          List.takeWhile_append_dropWhile
        rw [← parts]
        refine word _ _ ?_ ?_ ?_ (ih _ ?_ _ rfl)
        · rw [List.takeWhile_cons_of_pos starts]
          exact List.cons_ne_nil _ _
        · exact List.all_takeWhile
        · intro d head
          have stops := List.head?_dropWhile_not solid (c :: t)
          rw [Option.mem_def.mp head] at stops
          simpa [solid] using stops
        · rw [List.dropWhile_cons_of_pos starts, ← size]
          exact Nat.lt_succ_of_le (List.dropWhile_sublist solid).length_le

end Text

namespace Edit

open Text

variable {old new : Text}

theorem renamed_head (old new : Text) {rest : Text} (ends : ∀ c ∈ rest.head?, isBlank c) :
    ∀ c ∈ (renamed old new rest).head?, isBlank c := by
  cases rest with
  | nil => exact ends
  | cons c rest =>
    rw [(renamed_cons_blank old new (ends c rfl) rest).1]
    simpa using ends

theorem renameWord_isWord (old : Text) {word : Text} (filled : word ≠ []) (solid : isWord word)
    (newFilled : new ≠ []) (newSolid : isWord new) :
    (renameWord old new word).1 ≠ [] ∧ isWord (renameWord old new word).1 := by
  unfold renameWord
  split
  · exact ⟨newFilled, newSolid⟩
  · exact ⟨filled, solid⟩

theorem renameWord_back {word : Text} (other : word ≠ new) :
    renameWord new old (renameWord old new word).1 = (word, (renameWord old new word).2) := by
  by_cases same : word = old
  · simp [renameWord, same]
  · simp [renameWord, same, other]

theorem words_renamed (newFilled : new ≠ []) (newSolid : isWord new) (value : Text) :
    words (renamed old new value) = (words value).map fun w => (renameWord old new w).1 := by
  induction value using word_induction with
  | nil => rfl
  | blank c t blank ih =>
    rw [(renamed_cons_blank old new blank t).1, words_blank blank, words_blank blank, ih]
  | word w rest filled solid ends ih =>
    obtain ⟨kept, still⟩ := renameWord_isWord old filled solid newFilled newSolid
    rw [(renamed_word old new filled solid ends).1, words_word kept still (renamed_head old new ends),
      words_word filled solid ends, List.map_cons, ih]

/-- Where the new name is not in use, renaming back gives the value and counts the same words. -/
theorem renamed_back (old : Text) (newFilled : new ≠ []) (newSolid : isWord new) {value : Text}
    (fresh : new ∉ words value) :
    renamed new old (renamed old new value) = value ∧ uses new (renamed old new value) = uses old value := by
  induction value using word_induction with
  | nil => exact ⟨rfl, rfl⟩
  | blank c t blank ih =>
    rw [words_blank blank] at fresh
    obtain ⟨value, count⟩ := ih fresh
    have there := renamed_cons_blank old new blank t
    have back := renamed_cons_blank new old blank (renamed old new t)
    rw [there.1, there.2, back.1, back.2, value, count]
    exact ⟨rfl, rfl⟩
  | word w rest filled solid ends ih =>
    rw [words_word filled solid ends, List.mem_cons, not_or] at fresh
    obtain ⟨value, count⟩ := ih fresh.2
    obtain ⟨kept, still⟩ := renameWord_isWord old filled solid newFilled newSolid
    have there := renamed_word old new filled solid ends
    have back := renamed_word new old kept still (renamed_head old new ends)
    rw [there.1, there.2, back.1, back.2, renameWord_back (Ne.symm fresh.1), value, count]
    exact ⟨rfl, rfl⟩

/-- A class that was renamed to a name not in use can be renamed back, and the words of the renamed value
are those of the old one with the name replaced. -/
theorem renameWords_undone {value result : Text} {n : Nat} (filled : new ≠ []) (solid : isWord new)
    (fresh : new ∉ words value) (done : renameWords value old new = (result, n)) :
    renameWords result new old = (value, n) ∧
      words result = (words value).map fun w => if w = old then new else w := by
  rw [renameWords_eq, Prod.mk.injEq] at done
  obtain ⟨rfl, rfl⟩ := done
  obtain ⟨back, count⟩ := renamed_back old filled solid fresh
  refine ⟨by rw [renameWords_eq, back, count], ?_⟩
  rw [words_renamed filled solid]
  refine List.map_congr_left fun w _ => ?_
  exact apply_ite Prod.fst ..

theorem spacedValue_undone :
    ("c".toList ≠ [] ∧ isWord "c" ∧ "c".toList ∉ words " btn\tbtn-x\u3000\u3000btn" ∧
      renameWords " btn\tbtn-x\u3000\u3000btn" "btn" "c" = (" c\tbtn-x\u3000\u3000c".toList, 2)) ∧
    renameWords " c\tbtn-x\u3000\u3000c" "c" "btn" = (" btn\tbtn-x\u3000\u3000btn".toList, 2) ∧
      words " c\tbtn-x\u3000\u3000c" =
        (words " btn\tbtn-x\u3000\u3000btn").map fun w => if w = "btn".toList then "c".toList else w :=
  ⟨by decide, renameWords_undone (by decide) (by decide) (by decide) (by decide)⟩

end Edit

end TemplateMarkup
