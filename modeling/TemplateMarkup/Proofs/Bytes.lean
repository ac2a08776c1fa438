import TemplateMarkup.Text.Bytes

/-!
The bytes of a text. A character of ASCII is one byte, and no byte of any other character looks like
one, so a reader that steps from byte to byte sees the marks it looks for exactly where they stand.
-/
namespace TemplateMarkup.Text

theorem encodeChar_ascii {c : Char} (ascii : c.toNat < 0x80) : encodeChar c = [c.toNat] := by
  simp [encodeChar, ascii]

theorem encodeChar_wide {c : Char} (wide : 0x80 ≤ c.toNat) :
    encodeChar c ≠ [] ∧ ∀ b ∈ encodeChar c, 0x80 ≤ b ∧ b < 0x100 := by
  have bound : c.toNat < 0x110000 := by
    have valid : c.toNat.isValidChar := c.valid
    unfold Nat.isValidChar at valid
    omega
  rw [encodeChar, if_neg (by omega)]
  split
  · grind
  · split <;> grind

theorem length_encodeChar (c : Char) : (encodeChar c).length = c.utf8Size := by
  have number : c.val.toNat = c.toNat := rfl
  unfold encodeChar Char.utf8Size
  simp only [UInt32.le_iff_toNat_le, UInt32.toNat_ofNatLT, number]
  grind

theorem encode_cons (c : Char) (t : Text) : encode (c :: t) = encodeChar c ++ encode t := by
  simp [encode]

theorem encode_append (s t : Text) : encode (s ++ t) = encode s ++ encode t := by
  simp [encode]

@[simp] theorem length_encode (t : Text) : (encode t).length = bytes t := by
  induction t with
  | nil => rfl
  | cons c t ih => rw [encode_cons, List.length_append, length_encodeChar, ih, bytes_cons]

theorem utf8Size_eq_one_iff {c : Char} : c.utf8Size = 1 ↔ c.toNat < 0x80 := by
  rw [Char.utf8Size_eq_one_iff, UInt32.le_iff_toNat_le]
  exact Nat.lt_succ_iff.symm

theorem utf8Size_ascii {c : Char} (ascii : c.toNat < 0x80) : c.utf8Size = 1 :=
  utf8Size_eq_one_iff.mpr ascii

theorem bytes_concat_ascii (lead : Text) {c : Char} (ascii : c.toNat < 0x80) :
    bytes (lead ++ [c]) = bytes lead + 1 := by
  rw [bytes_append, bytes_cons, bytes_nil, utf8Size_ascii ascii]

theorem bytes_lt_append_cons (lead rest : Text) (c : Char) :
    bytes lead < bytes (lead ++ c :: rest) := by
  have positive := c.utf8Size_pos
  rw [bytes_append, bytes_cons]
  omega

/-- What is left after some bytes comes after a text of that size. -/
theorem dropBytes_eq_some {n : Nat} {t rest : Text} (dropped : dropBytes n t = some rest) :
    ∃ lead, t = lead ++ rest ∧ bytes lead = n := by
  induction t generalizing n with
  | nil =>
    cases n with
    | zero => exact ⟨[], by simpa using dropped, rfl⟩
    | succ n => simp [dropBytes] at dropped
  | cons c t ih =>
    cases n with
    | zero => exact ⟨[], by simpa using dropped, rfl⟩
    | succ n =>
      rw [dropBytes] at dropped
      split at dropped
      · obtain ⟨lead, rfl, size⟩ := ih dropped
        exact ⟨c :: lead, rfl, by rw [bytes_cons]; omega⟩
      · cases dropped

def Holds (bs : List Nat) (i : Nat) (c : Char) : Prop := bs[i]? = some c.toNat

instance (bs : List Nat) (i : Nat) (c : Char) : Decidable (Holds bs i c) :=
  inferInstanceAs (Decidable (bs[i]? = some c.toNat))

variable {lead rest : Text} {c x : Char} {n : Nat}

theorem toNat_inj_of_eq (same : c.toNat = x.toNat) : c = x :=
  Char.ext (UInt32.toNat_inj.mp same)

theorem holds_unique {bs : List Nat} {i : Nat} (one : Holds bs i c) (other : Holds bs i x) : c = x := by
  have same := one.symm.trans other
  exact toNat_inj_of_eq (Option.some.inj same)

theorem holds_append (lead rest : Text) (n : Nat) (x : Char) :
    Holds (encode (lead ++ rest)) (bytes lead + n) x ↔ Holds (encode rest) n x := by
  unfold Holds
  rw [encode_append, List.getElem?_append_right (by simp), length_encode, Nat.add_sub_cancel_left]

/-- Where a character stands, its own byte is found and no other. -/
theorem holds_iff_head (ascii : x.toNat < 0x80) :
    Holds (encode (lead ++ rest)) (bytes lead) x ↔ rest.head? = some x := by
  have here := holds_append lead rest 0 x
  rw [Nat.add_zero] at here
  rw [here]
  unfold Holds
  cases rest with
  | nil => simp [encode]
  | cons c rest =>
    rw [encode_cons, List.head?_cons, Option.some.injEq]
    rcases Nat.lt_or_ge c.toNat 0x80 with narrow | wide
    · rw [encodeChar_ascii narrow, List.singleton_append, List.getElem?_cons_zero, Option.some.injEq]
      exact ⟨toNat_inj_of_eq, fun same => by rw [same]⟩
    · obtain ⟨given, bounds⟩ := encodeChar_wide wide
      obtain ⟨b, bs, whole⟩ := List.exists_cons_of_ne_nil given
      have bound := bounds b (by simp [whole])
      rw [whole, List.cons_append, List.getElem?_cons_zero, Option.some.injEq]
      constructor
      · intro same
        omega
      · intro same
        rw [same] at wide
        omega

/-- After a character of ASCII, the next byte belongs to what follows it. -/
theorem holds_iff_next (narrow : c.toNat < 0x80) (ascii : x.toNat < 0x80) :
    Holds (encode (lead ++ c :: rest)) (bytes lead + 1) x ↔ rest.head? = some x := by
  have next : Holds (encode (lead ++ [c] ++ rest)) (bytes (lead ++ [c])) x ↔ rest.head? = some x :=
    holds_iff_head ascii
  rw [bytes_append, bytes_cons, utf8Size_ascii narrow, List.append_assoc] at next
  exact next

/-- The bytes of a character that come after its first one hold no character of ASCII. -/
theorem not_holds_inside (ascii : x.toNat < 0x80) (later : 0 < n) (inside : n < c.utf8Size) :
    ¬Holds (encode (lead ++ c :: rest)) (bytes lead + n) x := by
  rw [holds_append, encode_cons]
  unfold Holds
  have wide : 0x80 ≤ c.toNat := by
    by_cases narrow : c.toNat < 0x80
    · rw [utf8Size_ascii narrow] at inside
      omega
    · omega
  rw [← length_encodeChar] at inside
  rw [List.getElem?_append_left inside, List.getElem?_eq_getElem inside, Option.some.injEq]
  intro same
  have bound := ((encodeChar_wide wide).2 _ (List.getElem_mem inside)).1
  omega

/-- A reader that passes over every byte without a mark passes over a whole character, from its first byte
on if it is no mark, and from any later byte on whatever it is. -/
theorem pass_char {α : Type} (marks : List Char) (f : Nat → α) (lead rest : Text) (c : Char)
    (ascii : marks.all (·.toNat < 0x80)) (within : n ≤ c.utf8Size) (plain : n = 0 → c ∉ marks)
    (step : ∀ i, i < bytes (lead ++ c :: rest) →
      (∀ x ∈ marks, ¬Holds (encode (lead ++ c :: rest)) i x) → f i = f (i + 1)) :
    f (bytes lead + n) = f (bytes (lead ++ [c])) := by
  have narrow : ∀ x ∈ marks, x.toNat < 0x80 := by
    intro x member
    simpa using List.all_eq_true.mp ascii x member
  obtain ⟨left, size⟩ : ∃ left, c.utf8Size = n + left := ⟨c.utf8Size - n, by omega⟩
  induction left generalizing n with
  | zero => rw [bytes_append, bytes_cons, bytes_nil, size, Nat.add_zero]
  | succ left ih =>
    have here : ∀ x ∈ marks, ¬Holds (encode (lead ++ c :: rest)) (bytes lead + n) x := by
      intro x member
      by_cases first : n = 0
      · rw [first, Nat.add_zero, holds_iff_head (narrow x member), List.head?_cons, Option.some.injEq]
        intro same
        exact plain first (same ▸ member)
      · exact not_holds_inside (narrow x member) (by omega) (by omega)
    have bound : bytes lead + n < bytes (lead ++ c :: rest) := by
      rw [bytes_append, bytes_cons]
      omega
    rw [step _ bound here, Nat.add_assoc]
    apply ih
    · omega
    · omega
    · omega

theorem pass_plain {α : Type} (marks : List Char) (f : Nat → α) (lead rest : Text) (c : Char)
    (ascii : marks.all (·.toNat < 0x80)) (plain : c ∉ marks)
    (step : ∀ i, i < bytes (lead ++ c :: rest) →
      (∀ x ∈ marks, ¬Holds (encode (lead ++ c :: rest)) i x) → f i = f (i + 1)) :
    f (bytes lead) = f (bytes (lead ++ [c])) :=
  pass_char (n := 0) marks f lead rest c ascii (Nat.zero_le _) (fun _ => plain) step

end TemplateMarkup.Text
