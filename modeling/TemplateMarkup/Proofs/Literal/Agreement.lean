import TemplateMarkup.Proofs.Literal.Ends

/-!
Reading code by bytes and reading it by characters agree. In each turn the cursor moves over what one piece
of the code takes up; so whatever it finds it finds between characters, and it is refused only where the code
is cut off.
-/
namespace TemplateMarkup.Literal.Bytewise

open Text

variable {lead u : Text} {c x : Char}

/-- The turn that a piece of code makes up, in code of the given size. -/
def turnOf? (size : Nat) : Piece → Option Turn
  | .literal body rest =>
    some ⟨some ⟨size - bytes rest - 1 - bytes body, size - bytes rest - 1⟩, size - bytes rest⟩
  | .other rest => some ⟨none, size - bytes rest⟩
  | .cut => none

/-- What is cut out lies between characters, because it ends at a quote. -/
theorem cutOut?_eq (lead u : Text) {read? : Option (Text × Text)}
    (closed : ∀ body after, read? = some (body, after) → u = body ++ '\x22' :: after) :
    cutOut? (lead ++ u) (bytes lead) (read?.map fun x => bytes lead + bytes x.1) =
      turnOf? (bytes (lead ++ u)) (ofBody read? u) := by
  cases read : read? with
  | none => simp [cutOut?, ofBody, turnOf?]
  | some found =>
    have one : ('\x22' : Char).utf8Size = 1 := by decide
    have split := closed found.1 found.2 read
    have slice := slice?_append lead found.1 ('\x22' :: found.2)
    rw [← split] at slice
    rw [Option.map_some, cutOut?, slice, Option.map_some, ofBody, turnOf?, split]
    simp [one]
    omega

/-- The turn at a character of ASCII is that of the piece that starts with it. -/
def Agrees (lead u : Text) (c : Char) : Prop :=
  turn? (lead ++ c :: u) (bytes lead) = turnOf? (bytes (lead ++ c :: u)) (next c u)

theorem passOver?_next (lead u : Text) (ascii : c.toNat < 0x80) :
    passOver? (some (bytes lead + 1)) = turnOf? (bytes (lead ++ c :: u)) (.other u) := by
  have one := utf8Size_ascii ascii
  simp [passOver?, turnOf?, one, ← Nat.add_assoc]

theorem bytes_concat_two (lead : Text) {d : Char} (first : c.toNat < 0x80) (second : d.toNat < 0x80) :
    bytes (lead ++ [c, d]) = bytes lead + 2 := by
  rw [append_cons_eq, bytes_concat_ascii _ second, bytes_concat_ascii _ first]

theorem agrees_slash (lead u : Text) : Agrees lead u '/' := by
  unfold Agrees
  rw [turn?, if_pos ((holds_here (by decide)).mpr rfl), slashTurn?]
  by_cases line : u.head? = some '/'
  · obtain ⟨rest, rfl⟩ := List.head?_eq_some_iff.mp line
    have size := bytes_concat_two lead (c := '/') (d := '/') (by decide) (by decide)
    have ends := find?_getD (x := '\n') (by decide) (lead ++ ['/', '/']) rest
    rw [size, List.append_assoc] at ends
    rw [if_pos ((holds_iff_next (by decide) (by decide)).mpr rfl), search?, length_encode,
      if_pos (by rw [← size]; simp), next, turnOf?]
    rw [Option.map_some, passOver?, Option.map_some, Option.some.injEq, Turn.mk.injEq]
    exact ⟨rfl, ends⟩
  · rw [if_neg (by rwa [holds_iff_next (by decide) (by decide)])]
    by_cases block : u.head? = some '*'
    · obtain ⟨rest, rfl⟩ := List.head?_eq_some_iff.mp block
      have size := bytes_concat_two lead (c := '/') (d := '*') (by decide) (by decide)
      have ends := past?_eq "*/" (lead ++ ['/', '*']) rest
      rw [size, List.append_assoc] at ends
      rw [if_pos ((holds_iff_next (by decide) (by decide)).mpr rfl), next, turnOf?]
      exact congrArg passOver? ends
    · rw [if_neg (by rwa [holds_iff_next (by decide) (by decide)]), passOver?_next (c := '/') lead u
        (by decide), next] <;> grind

/-- The search for the end of an escaped character starts inside of that character or right after it. -/
theorem find?_escaped (lead u : Text) (d : Char) :
    find? (encode (lead ++ d :: u)) (min (bytes lead + 8) (bytes (lead ++ d :: u))) (bytes lead + 1) '\x27' =
      (escapedEnd? 0 (d :: u)).map fun after => bytes (lead ++ d :: u) - bytes after - 1 := by
  have passed := pass_char (n := 1) ['\x27']
    (find? (encode (lead ++ d :: u)) (min (bytes lead + 8) (bytes (lead ++ d :: u))) · '\x27')
    lead u d (by decide) d.utf8Size_pos (by simp) fun i _ => find?_step _ _ _ i
  have ends := escaped_eq (lead ++ [d]) u (bytes lead) d.utf8Size d.utf8Size_pos (by simp)
  rw [← append_cons_eq] at ends
  rw [passed, ends, escapedEnd?, if_neg (by omega), if_neg (by simp), Nat.zero_add]

/-- The search is refused only if there is no character to be escaped. -/
theorem charEnd?_escaped (lead u : Text) :
    passOver? (charEnd? (encode (lead ++ '\x27' :: '\\' :: u)) (bytes lead)) =
      turnOf? (bytes (lead ++ '\x27' :: '\\' :: u)) (quotedChar ('\\' :: u)) := by
  have size := bytes_concat_two lead (c := '\x27') (d := '\\') (by decide) (by decide)
  rw [charEnd?, if_pos ((holds_iff_next (by decide) (by decide)).mpr rfl), search?, length_encode]
  cases u with
  | nil =>
    rw [size, if_neg (by omega)]
    rfl
  | cons d u =>
    have whole : lead ++ '\x27' :: '\\' :: d :: u = lead ++ ['\x27', '\\'] ++ d :: u := by simp
    have inside := bytes_lt_append_cons (lead ++ ['\x27', '\\']) u d
    have found := find?_escaped (lead ++ ['\x27', '\\']) u d
    have one : ('\x27' : Char).utf8Size = 1 ∧ ('\\' : Char).utf8Size = 1 := by decide
    rw [size] at inside found
    rw [whole, if_pos (by omega), found, quotedChar]
    · cases ended : escapedEnd? 0 (d :: u) with
      | none =>
        simp [passOver?, turnOf?, one]
        omega
      | some after =>
        obtain ⟨before, split⟩ := escapedEnd?_suffix ended
        have sizes := congrArg bytes split
        simp at sizes
        simp [passOver?, turnOf?, one]
        omega
    · simp

/-- A character in quotes is passed over as a whole only if it is one of ASCII. -/
theorem quotedChar_plain (plain : c ≠ '\\') (u : Text) :
    quotedChar (c :: u) =
      if c.toNat < 0x80 ∧ u.head? = some '\x27' then .other u.tail else .other (c :: u) := by
  by_cases closed : u.head? = some '\x27'
  · obtain ⟨rest, rfl⟩ := List.head?_eq_some_iff.mp closed
    rw [quotedChar]
    · simp only [utf8Size_eq_one_iff, List.head?_cons, and_true, List.tail_cons]
    all_goals simp [plain]
  · rw [if_neg (by simp [closed]), quotedChar]
    · simp [plain]
    · simp [plain]
    · intro d rest same
      obtain ⟨-, rfl⟩ := List.cons.inj same
      exact closed rfl

theorem agrees_single (lead u : Text) : Agrees lead u '\x27' := by
  have stays := passOver?_next (c := '\x27') lead u (by decide)
  have one : ('\x27' : Char).utf8Size = 1 := by decide
  unfold Agrees
  rw [turn?, if_neg (by rw [holds_here (by decide)]; decide), if_pos ((holds_here (by decide)).mpr rfl),
    next]
  cases u with
  | nil =>
    rw [charEnd?, if_neg (by rw [holds_iff_next (by decide) (by decide)]; simp),
      if_neg (by rw [holds_append]; decide)]
    exact stays
  | cons c u =>
    by_cases escape : c = '\\'
    · subst escape
      exact charEnd?_escaped lead u
    · have closes : Holds (encode (lead ++ '\x27' :: c :: u)) (bytes lead + 2) '\x27' ↔
          c.toNat < 0x80 ∧ u.head? = some '\x27' := by
        rw [append_cons_eq, show bytes lead + 2 = bytes (lead ++ ['\x27']) + 1 by simp [one]]
        by_cases narrow : c.toNat < 0x80
        · rw [holds_iff_next narrow (by decide)]
          simp [narrow]
        · have more : 1 < c.utf8Size := by
            have positive := c.utf8Size_pos
            have several := mt utf8Size_eq_one_iff.mp narrow
            omega
          exact iff_of_false (not_holds_inside (by decide) Nat.one_pos more) fun both => narrow both.1
      rw [charEnd?, if_neg (by rw [holds_iff_next (by decide) (by decide)]; simpa using escape),
        quotedChar_plain escape]
      by_cases quoted : c.toNat < 0x80 ∧ u.head? = some '\x27'
      · obtain ⟨rest, rfl⟩ := List.head?_eq_some_iff.mp quoted.2
        rw [if_pos (closes.mpr quoted), if_pos quoted]
        simp [passOver?, turnOf?, one, utf8Size_ascii quoted.1]
        omega
      · rw [if_neg (mt closes.mp quoted), if_neg quoted]
        exact stays

theorem startsWith_raw (u : Text) :
    startsWith ('\x22' :: u) "\"\"\"" ↔ ∃ rest, u = '\x22' :: '\x22' :: rest := by
  unfold startsWith
  rw [Option.isSome_iff_exists]
  apply exists_congr
  intro rest
  rw [stripLead?_eq_some_iff]
  simp

theorem agrees_quote (lead u : Text) : Agrees lead u '\x22' := by
  unfold Agrees
  rw [turn?, if_neg (by rw [holds_here (by decide)]; decide),
    if_neg (by rw [holds_here (by decide)]; decide), if_pos ((holds_here (by decide)).mpr rfl), quoteTurn?,
    dropBytes_append, Option.bind_some]
  by_cases raw : startsWith ('\x22' :: u) "\"\"\""
  · obtain ⟨rest, rfl⟩ := (startsWith_raw u).mp raw
    have size : bytes (lead ++ ['\x22', '\x22', '\x22']) = bytes lead + 3 := by
      rw [append_cons_eq, bytes_concat_two _ (by decide) (by decide), bytes_concat_ascii _ (by decide)]
    have ends := past?_eq "\"\"\"" (lead ++ ['\x22', '\x22', '\x22']) rest
    rw [size, List.append_assoc] at ends
    rw [if_pos raw, next, turnOf?]
    exact congrArg passOver? ends
  · have regular := regularEnd?_eq (lead ++ ['\x22']) u
    have cut := cutOut?_eq (lead ++ ['\x22']) u fun body after read => regular?_closed read
    rw [← regular, ← append_cons_eq, bytes_concat_ascii _ (by decide)] at cut
    rw [if_neg raw, next, cut]
    intro rest same
    exact raw ((startsWith_raw u).mpr ⟨rest, same⟩)

theorem turn?_sign (lead u : Text) (sign : c = '@' ∨ c = '$') :
    turn? (lead ++ c :: u) (bytes lead) = signTurn? (lead ++ c :: u) (bytes lead) := by
  rw [turn?]
  rcases sign with rfl | rfl
  · simp [holds_here]
  · simp [holds_here]

theorem agrees_verbatim (lead rest : Text) : Agrees lead ('\x22' :: rest) '@' := by
  have size := bytes_concat_two lead (c := '@') (d := '\x22') (by decide) (by decide)
  have verbatim := verbatimEnd?_eq (lead ++ ['@', '\x22']) rest
  have cut := cutOut?_eq (lead ++ ['@', '\x22']) rest fun body after read => verbatim?_closed read
  rw [← verbatim, size, List.append_assoc] at cut
  rw [Agrees, turn?_sign _ _ (Or.inl rfl), signTurn?,
    if_pos ((holds_iff_next (by decide) (by decide)).mpr rfl), if_neg (by rw [holds_here (by decide)]; decide),
    next]
  exact cut

/-- A string with holes is read from after its signs and its quote. -/
theorem cutOut?_interpolated (lead rest : Text) (verbatim : Bool) :
    cutOut? (lead ++ rest) (bytes lead) (interpolatedEnd? (encode (lead ++ rest)) verbatim 0 (bytes lead)) =
      turnOf? (bytes (lead ++ rest)) (ofBody (interpolated? verbatim rest) rest) := by
  rw [interpolatedEnd?_eq, ← interpolated?_eq]
  exact cutOut?_eq lead rest fun body after read => interpolatedFrom?_closed read

theorem agrees_interpolated (lead rest : Text) : Agrees lead ('\x22' :: rest) '$' := by
  have size := bytes_concat_two lead (c := '$') (d := '\x22') (by decide) (by decide)
  have cut := cutOut?_interpolated (lead ++ ['$', '\x22']) rest false
  rw [size, List.append_assoc] at cut
  rw [Agrees, turn?_sign _ _ (Or.inr rfl), signTurn?,
    if_pos ((holds_iff_next (by decide) (by decide)).mpr rfl), if_pos ((holds_here (by decide)).mpr rfl), next]
  exact cut

/-- The two signs stand together, in either order, and a quote follows. -/
def BothSigns (c : Char) (u : Text) : Prop :=
  ∃ d rest, (c = '@' ∧ d = '$' ∨ c = '$' ∧ d = '@') ∧ u = d :: '\x22' :: rest

theorem holds_signs (lead u : Text) (sign : c = '@' ∨ c = '$') :
    ((Holds (encode (lead ++ c :: u)) (bytes lead + 1) '@' ∨
        Holds (encode (lead ++ c :: u)) (bytes lead + 1) '$') ∧
      Holds (encode (lead ++ c :: u)) (bytes lead + 2) '\x22' ∧
      (encode (lead ++ c :: u))[bytes lead + 1]? ≠ (encode (lead ++ c :: u))[bytes lead]?) ↔
    BothSigns c u := by
  have first : c.toNat < 0x80 := by rcases sign with rfl | rfl <;> decide
  have here : Holds (encode (lead ++ c :: u)) (bytes lead) c := (holds_here first).mpr rfl
  have seen : ∀ x : Char, x.toNat < 0x80 →
      (Holds (encode (lead ++ c :: u)) (bytes lead + 1) x ↔ u.head? = some x) :=
    fun x ascii => holds_iff_next first ascii
  -- the second byte after the first sign belongs to what follows the second sign
  have beyond : ∀ d v, d.toNat < 0x80 → u = d :: v →
      (Holds (encode (lead ++ c :: u)) (bytes lead + 2) '\x22' ↔ v.head? = some '\x22') := by
    intro d v second same
    have next : Holds (encode (lead ++ [c] ++ d :: v)) (bytes (lead ++ [c]) + 1) '\x22' ↔
        v.head? = some '\x22' := holds_iff_next second (by decide)
    rw [← append_cons_eq, bytes_concat_ascii _ first, ← same] at next
    exact next
  constructor
  · rintro ⟨second, quote, differ⟩
    obtain ⟨d, v, other, rfl⟩ : ∃ d v, (d = '@' ∨ d = '$') ∧ u = d :: v := by
      rw [seen _ (by decide), seen _ (by decide)] at second
      rcases second with head | head
      · obtain ⟨v, same⟩ := List.head?_eq_some_iff.mp head
        exact ⟨_, v, Or.inl rfl, same⟩
      · obtain ⟨v, same⟩ := List.head?_eq_some_iff.mp head
        exact ⟨_, v, Or.inr rfl, same⟩
    have narrow : d.toNat < 0x80 := by rcases other with rfl | rfl <;> decide
    obtain ⟨rest, rfl⟩ := List.head?_eq_some_iff.mp ((beyond d v narrow rfl).mp quote)
    rw [(seen d narrow).mpr rfl, here] at differ
    have apart : c ≠ d := fun same => differ (by rw [same])
    exact ⟨d, rest, by grind, rfl⟩
  · rintro ⟨d, rest, signs, rfl⟩
    have narrow : d.toNat < 0x80 := by rcases signs with ⟨-, rfl⟩ | ⟨-, rfl⟩ <;> decide
    have follows := (seen d narrow).mpr rfl
    refine ⟨?_, (beyond d _ narrow rfl).mpr rfl, ?_⟩
    · rcases signs with ⟨-, rfl⟩ | ⟨-, rfl⟩
      · exact Or.inr follows
      · exact Or.inl follows
    · rw [follows, here]
      rcases signs with ⟨rfl, rfl⟩ | ⟨rfl, rfl⟩ <;> decide

theorem agrees_signs (lead : Text) {u : Text} (both : BothSigns c u) : Agrees lead u c := by
  obtain ⟨d, rest, signs, rfl⟩ := both
  have first : c.toNat < 0x80 := by rcases signs with ⟨rfl, -⟩ | ⟨rfl, -⟩ <;> decide
  have second : d.toNat < 0x80 := by rcases signs with ⟨-, rfl⟩ | ⟨-, rfl⟩ <;> decide
  have size : bytes (lead ++ [c, d, '\x22']) = bytes lead + 3 := by
    rw [append_cons_eq, bytes_concat_two _ second (by decide), bytes_concat_ascii _ first]
  have cut := cutOut?_interpolated (lead ++ [c, d, '\x22']) rest true
  rw [size, List.append_assoc] at cut
  have noQuote : ¬Holds (encode (lead ++ c :: d :: '\x22' :: rest)) (bytes lead + 1) '\x22' := by
    rw [holds_iff_next first (by decide)]
    rcases signs with ⟨-, rfl⟩ | ⟨-, rfl⟩ <;> simp
  rw [Agrees, turn?_sign _ _ (by grind), signTurn?, if_neg noQuote,
    if_pos ((holds_signs lead _ (by grind)).mpr ⟨d, rest, signs, rfl⟩)]
  rcases signs with ⟨rfl, rfl⟩ | ⟨rfl, rfl⟩
  · exact cut
  · exact cut

theorem agrees_sign (lead u : Text) (sign : c = '@' ∨ c = '$') : Agrees lead u c := by
  have narrow : c.toNat < 0x80 := by rcases sign with rfl | rfl <;> decide
  by_cases quote : u.head? = some '\x22'
  · obtain ⟨rest, rfl⟩ := List.head?_eq_some_iff.mp quote
    rcases sign with rfl | rfl
    · exact agrees_verbatim lead rest
    · exact agrees_interpolated lead rest
  · by_cases both : BothSigns c u
    · exact agrees_signs lead both
    · have alone : next c u = .other u := by
        unfold next
        split
        case h_8 rest => exact absurd ⟨'$', rest, Or.inl ⟨rfl, rfl⟩, rfl⟩ both
        case h_9 rest => exact absurd ⟨'@', rest, Or.inr ⟨rfl, rfl⟩, rfl⟩ both
        all_goals simp_all
      rw [Agrees, turn?_sign _ _ sign, signTurn?, if_neg (by rwa [holds_iff_next narrow (by decide)]),
        if_neg (mt (holds_signs lead u sign).mp both), alone]
      exact passOver?_next lead u narrow

theorem agrees_ascii (lead u : Text) (ascii : c.toNat < 0x80) : Agrees lead u c := by
  by_cases slash : c = '/'
  · exact slash ▸ agrees_slash lead u
  by_cases single : c = '\x27'
  · exact single ▸ agrees_single lead u
  by_cases double : c = '\x22'
  · exact double ▸ agrees_quote lead u
  by_cases sign : c = '@' ∨ c = '$'
  · exact agrees_sign lead u sign
  rw [not_or] at sign
  rw [Agrees, next_unmarked u ⟨slash, single, double, sign⟩, turn?]
  simpa [holds_here, slash, single, double, sign] using passOver?_next lead u ascii

/-- In a text that stands at the offset `n`, the spans hold the bodies one after the other, and each of them
ends at a quote. -/
inductive Laid : (n : Nat) → (t : Text) → (spans : List Span) → (bodies : List Text) → Prop where
  | nil {n : Nat} {t : Text} : Laid n t [] []
  | cons {n : Nat} {gap body rest : Text} {spans : List Span} {bodies : List Text}
      (later : Laid (n + bytes gap + bytes body + 1) rest spans bodies) :
      Laid n (gap ++ body ++ '\x22' :: rest)
        (⟨n + bytes gap, n + bytes gap + bytes body⟩ :: spans) (body :: bodies)

theorem laid_after {n : Nat} {t : Text} {spans : List Span} {bodies : List Text} (lead : Text)
    (laid : Laid (n + bytes lead) t spans bodies) : Laid n (lead ++ t) spans bodies := by
  cases laid with
  | nil => exact Laid.nil
  | @cons _ gap body rest spans bodies later =>
    have whole : lead ++ (gap ++ body ++ '\x22' :: rest) = (lead ++ gap) ++ body ++ '\x22' :: rest := by simp
    rw [whole, Nat.add_assoc n, ← bytes_append]
    apply Laid.cons
    rwa [bytes_append, ← Nat.add_assoc]

theorem spansFrom?_turn {t : Text} {i : Nat} (inside : i < bytes t) :
    spansFrom? t i =
      (turn? t i).bind fun turn => (spansFrom? t turn.next).map (turn.literal.toList ++ ·) := by
  rw [spansFrom?, if_pos inside]
  split
  · rename_i turn turned
    rw [turned, Option.bind_some]
  · rename_i refused
    rw [refused, Option.bind_none]

theorem spansFrom?_step (t : Text) (i : Nat) (inside : i < bytes t)
    (plain : ∀ y ∈ ['/', '\x27', '\x22', '@', '$'], ¬Holds (encode t) i y) :
    spansFrom? t i = spansFrom? t (i + 1) := by
  simp only [List.forall_mem_cons] at plain
  have turned : turn? t i = some ⟨none, i + 1⟩ := by simp [turn?, plain, passOver?]
  rw [spansFrom?_turn inside, turned]
  simp

theorem rel_map {α β γ δ : Type} {r : α → β → Prop} {s : γ → δ → Prop} {f : α → γ} {g : β → δ}
    {x : Option α} {y : Option β} (related : Option.Rel r x y) (keeps : ∀ a b, r a b → s (f a) (g b)) :
    Option.Rel s (x.map f) (y.map g) := by
  cases related with
  | none => exact Option.Rel.none
  | some here => exact Option.Rel.some (keeps _ _ here)

/-- The spans that the cursor finds from the offset of a text on are those of its strings. -/
def Finds (lead u : Text) : Prop :=
  Option.Rel (Laid (bytes lead) u) (spansFrom? (lead ++ u) (bytes lead)) (all? u)

theorem laid_passed (lead passed rest : Text) (later : Finds (lead ++ passed) rest) :
    Option.Rel (Laid (bytes lead) (passed ++ rest))
      (spansFrom? (lead ++ (passed ++ rest)) (bytes (lead ++ passed))) (all? rest) := by
  have mapped := rel_map (f := id) (g := id) later (s := Laid (bytes lead) (passed ++ rest)) (by
    intro spans bodies laid
    rw [bytes_append] at laid
    exact laid_after passed laid)
  rwa [Option.map_id, Option.map_id, id, id, List.append_assoc] at mapped

theorem finds_ascii (lead u : Text) (ascii : c.toNat < 0x80)
    (later : ∀ front rest, rest.length ≤ u.length → Finds front rest) : Finds lead (c :: u) := by
  have agrees := agrees_ascii lead u ascii
  have within := next_within c u
  unfold Finds
  rw [spansFrom?_turn (bytes_lt_append_cons lead u c), all?_cons, agrees]
  cases piece : next c u with
  | cut => exact Option.Rel.none
  | other rest =>
    rw [piece] at within
    obtain ⟨passed, rfl⟩ := within
    have place : bytes (lead ++ c :: (passed ++ rest)) - bytes rest = bytes (lead ++ c :: passed) := by
      simp
      omega
    have found := laid_passed lead (c :: passed) rest (later _ rest (by simp))
    rw [turnOf?, Option.bind_some, place, Piece.bodies?]
    simpa using found
  | literal body rest =>
    rw [piece] at within
    obtain ⟨gap, rfl⟩ := within
    have one : ('\x22' : Char).utf8Size = 1 := by decide
    have found := later (lead ++ c :: gap ++ body ++ ['\x22']) rest (by simp; omega)
    have place : bytes (lead ++ c :: (gap ++ body ++ '\x22' :: rest)) - bytes rest =
        bytes (lead ++ c :: gap ++ body ++ ['\x22']) := by
      simp
      omega
    have closing : bytes (lead ++ c :: gap ++ body ++ ['\x22']) - 1 =
        bytes lead + bytes (c :: gap) + bytes body := by
      simp [one]
      omega
    rw [turnOf?, Option.bind_some, place, closing, Nat.add_sub_cancel, Piece.bodies?]
    have whole : lead ++ c :: gap ++ body ++ ['\x22'] ++ rest =
        lead ++ c :: (gap ++ body ++ '\x22' :: rest) := by simp
    unfold Finds at found
    rw [whole] at found
    refine rel_map found ?_
    intro spans bodies laid
    rw [show bytes (lead ++ c :: gap ++ body ++ ['\x22']) =
      bytes lead + bytes (c :: gap) + bytes body + 1 by simp [one]; omega] at laid
    exact Laid.cons laid

theorem finds_wide (lead u : Text) (wide : ¬c.toNat < 0x80) (later : Finds (lead ++ [c]) u) :
    Finds lead (c :: u) := by
  have plain : c ∉ ['/', '\x27', '\x22', '@', '$'] := by
    intro marked
    have narrow : ['/', '\x27', '\x22', '@', '$'].all (·.toNat < 0x80) := by decide
    exact wide (by simpa using List.all_eq_true.mp narrow c marked)
  have passed := pass_plain ['/', '\x27', '\x22', '@', '$'] (spansFrom? (lead ++ c :: u)) lead u c
    (by decide) plain (spansFrom?_step _)
  simp only [List.mem_cons, List.not_mem_nil, or_false, not_or] at plain
  rw [Finds, passed, all?_cons, next_unmarked u plain]
  exact laid_passed lead [c] u later

/-- The cursor finds the strings that reading by characters finds, between characters and in order, and it
is refused exactly where the code is cut off. -/
theorem spansFrom?_laid (lead u : Text) : Finds lead u := by
  induction size : u.length using Nat.strongRecOn generalizing lead u with
  | ind n ih =>
    cases u with
    | nil =>
      rw [Finds, spansFrom?, if_neg (by simp), all?_nil]
      exact Option.Rel.some Laid.nil
    | cons c u =>
      rw [List.length_cons] at size
      by_cases ascii : c.toNat < 0x80
      · apply finds_ascii lead u ascii
        intro front rest shorter
        exact ih rest.length (by omega) front rest rfl
      · exact finds_wide lead u ascii (ih u.length (by omega) (lead ++ [c]) u rfl)

end TemplateMarkup.Literal.Bytewise
