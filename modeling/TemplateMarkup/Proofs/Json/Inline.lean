import TemplateMarkup.Json.Basic

/-!
The compact text of a JSON value has no control character, so it fits on a line.
-/
namespace TemplateMarkup

/-- No character of the text is a control character of ASCII. -/
def Text.Inline (t : Text) : Prop := ∀ c ∈ t, 32 ≤ c.toNat

namespace Text

variable {s t : Text}

@[simp] theorem inline_nil : Inline [] := List.forall_mem_nil _

@[simp] theorem inline_cons {c : Char} : Inline (c :: t) ↔ 32 ≤ c.toNat ∧ Inline t :=
  List.forall_mem_cons

@[simp] theorem inline_append : Inline (s ++ t) ↔ Inline s ∧ Inline t :=
  List.forall_mem_append

theorem inline_ite {p : Prop} [Decidable p] (first : Inline s) (second : Inline t) :
    Inline (if p then s else t) := by
  split
  · exact first
  · exact second

theorem Inline.sublist (inline : Inline t) (part : s.Sublist t) : Inline s :=
  fun c member => inline c (part.subset member)

theorem inline_replicate {c : Char} (printed : 32 ≤ c.toNat) (n : Nat) :
    Inline (List.replicate n c) := by
  intro d member
  rw [List.eq_of_mem_replicate member]
  exact printed

theorem inline_decimal (n : Nat) : Inline (decimal n) := by
  intro c member
  have digit := Nat.isDigit_of_mem_toDigits (by decide) (by decide) member
  have lower := (Char.isDigit_iff_toNat.mp digit).1
  exact Nat.le_trans (by decide) lower

theorem Inline.newline_notMem (inline : Inline t) : '\n' ∉ t :=
  fun member => absurd (inline _ member) (by decide)

end Text

open Text

theorem Binary64.inline_text (x : Binary64) : Inline x.text := by
  have sign : Inline (if x.negative then ['-'] else []) := inline_ite (by simp) inline_nil
  have zeros := inline_replicate (c := '0') (by decide)
  unfold text
  generalize x.shortest = found
  obtain ⟨n, power⟩ := found
  have digits := inline_decimal n
  have left := fun k => digits.sublist (List.take_sublist k _)
  have right := fun k => digits.sublist (List.drop_sublist k _)
  refine inline_ite (inline_append.mpr ⟨sign, by simp⟩) (inline_append.mpr ⟨sign, ?_⟩)
  -- positional with zeros at the end, with the point inside, with zeros in front; or an exponent
  refine inline_ite (by simp [digits, zeros]) (inline_ite (by simp [left, right])
    (inline_ite (by simp [digits, zeros]) ?_))
  refine inline_append.mpr ⟨inline_append.mpr ⟨?_, inline_ite (by simp) (by simp)⟩,
    inline_decimal _⟩
  revert digits
  cases decimal n with
  | nil => exact id
  | cons d ds => cases ds <;> simp

namespace Json

theorem printed_hexDigit (n : Nat) : 32 ≤ (hexDigit n).toNat := by
  have all : ∀ c ∈ "0123456789abcdef".toList, 32 ≤ c.toNat := by simp
  rw [hexDigit, List.getD_eq_getElem?_getD]
  cases found : "0123456789abcdef".toList[n]? with
  | none => decide
  | some c => exact all c (List.mem_of_getElem? found)

theorem inline_escape (c : Char) : Inline (escape c) := by
  unfold escape
  iterate 7 refine inline_ite (by simp) ?_
  split
  next => simp [printed_hexDigit]
  next printed => exact inline_cons.mpr ⟨Nat.not_lt.mp printed, inline_nil⟩

theorem inline_quote (t : Text) : Inline (quote t) := by
  have escaped : Inline (t.flatMap escape) := by
    intro c member
    obtain ⟨d, -, written⟩ := List.mem_flatMap.mp member
    exact inline_escape d c written
  simp [quote, escaped]

theorem inline_wholeText (n : Int) : Inline (wholeText n) := by
  cases n with
  | ofNat k => exact inline_decimal k
  | negSucc k => exact inline_cons.mpr ⟨by decide, inline_decimal (k + 1)⟩

theorem inline_numberText (n : JsonNumber) : Inline (numberText n) := by
  cases n with
  | whole k => exact inline_wholeText k
  | float x => exact x.inline_text

mutual

theorem inline_compact : (j : Json) → Inline (compact j)
  | null => by simp [compact]
  | bool b => by cases b <;> simp [compact]
  | number n => inline_numberText n
  | string t => inline_quote t
  | array items => by simp [compact, inline_compactItems items]
  | object members => by simp [compact, inline_compactMembers members]

theorem inline_compactItems : (items : List Json) → Inline (compactItems items)
  | [] => inline_nil
  | [j] => inline_compact j
  | j :: k :: rest => by
    simp [compactItems, inline_compact j, inline_compactItems (k :: rest)]

theorem inline_compactMembers : (members : List (Text × Json)) → Inline (compactMembers members)
  | [] => inline_nil
  | [(n, j)] => by simp [compactMembers, inline_quote n, inline_compact j]
  | (n, j) :: m :: rest => by
    simp [compactMembers, inline_quote n, inline_compact j, inline_compactMembers (m :: rest)]

end

end Json

end TemplateMarkup
