import TemplateMarkup.Proofs.Literal.Bytewise
import TemplateMarkup.Proofs.Literal.Lexemes

/-!
The ends of strings by bytes and by characters. A search for a mark passes over the later bytes of a
character one by one, because none of them looks like a mark, and an escape that lands inside of a character
goes on from there; so both ways of reading a string end at the same quote.
-/
namespace TemplateMarkup.Literal.Bytewise

open Text

variable {lead u : Text} {c x : Char}

theorem append_cons_eq (lead u : Text) (c : Char) : lead ++ c :: u = lead ++ [c] ++ u := by simp

theorem find?_step (bs : List Nat) (limit : Nat) (x : Char) (i : Nat) (plain : ∀ y ∈ [x], ¬Holds bs i y) :
    find? bs limit i x = find? bs limit (i + 1) x := by
  have other := plain x (by simp)
  by_cases inside : i < limit
  · rw [find?, if_pos inside, if_neg other]
  · rw [find?, if_neg inside, find?, if_neg (by omega)]

/-- A search ends where the characters before the mark end. -/
theorem find?_getD (ascii : x.toNat < 0x80) (lead u : Text) :
    (find? (encode (lead ++ u)) (bytes (lead ++ u)) (bytes lead) x).getD (bytes (lead ++ u)) =
      bytes (lead ++ u) - bytes (u.dropWhile (· != x)) := by
  induction u generalizing lead with
  | nil =>
    rw [find?, if_neg (by simp)]
    simp
  | cons c u ih =>
    by_cases same : c = x
    · rw [find?, if_pos (bytes_lt_append_cons ..),
        if_pos ((holds_iff_head ascii).mpr (by rw [same]; rfl))]
      simp [same]
    · have passed := pass_plain [x] (find? (encode (lead ++ c :: u)) (bytes (lead ++ c :: u)) · x)
        lead u c (by simpa using ascii) (by simpa using same) fun i _ => find?_step _ _ x i
      rw [passed, append_cons_eq, ih (lead ++ [c])]
      simp [same]

theorem past?_eq (part lead u : Text) :
    past? (lead ++ u) part (bytes lead) = some (bytes (lead ++ u) - bytes (Literal.after part u)) := by
  unfold past? Literal.after
  rw [dropBytes_append, Option.map_some]
  cases found : splitAt? part u with
  | none => simp
  | some x =>
    have split := splitAt?_eq found
    rw [split]
    simp
    omega

theorem escaped_eq (lead u : Text) (start used : Nat) (began : 0 < used)
    (size : bytes lead = start + used) :
    find? (encode (lead ++ u)) (min (start + 8) (bytes (lead ++ u))) (bytes lead) '\x27' =
      (escapedEnd? used u).map fun after => bytes (lead ++ u) - bytes after - 1 := by
  induction u generalizing lead used with
  | nil =>
    rw [find?, if_neg (by rw [List.append_nil]; omega), escapedEnd?, Option.map_none]
  | cons c u ih =>
    rw [escapedEnd?]
    by_cases far : 8 ≤ used
    · rw [if_pos far, find?, if_neg (by omega), Option.map_none]
    · rw [if_neg far]
      by_cases same : c = '\x27'
      · subst same
        have one : ('\x27' : Char).utf8Size = 1 := by decide
        rw [find?, if_pos (by simp; omega), if_pos ((holds_iff_head (by decide)).mpr rfl),
          if_pos ⟨rfl, began⟩, Option.map_some]
        simp
        omega
      · have passed := pass_plain ['\x27']
          (find? (encode (lead ++ c :: u)) (min (start + 8) (bytes (lead ++ c :: u))) · '\x27')
          lead u c (by decide) (by simpa using same) fun i _ => find?_step _ _ _ i
        have later := ih (lead ++ [c]) (used + c.utf8Size) (by omega) (by simp; omega)
        rw [← append_cons_eq] at later
        rw [if_neg (by simp [same]), passed, later]

theorem regularEnd?_step (t : Text) (i : Nat) (inside : i < bytes t)
    (plain : ∀ y ∈ ['\\', '\x22', '\n'], ¬Holds (encode t) i y) :
    regularEnd? (encode t) i = regularEnd? (encode t) (i + 1) := by
  simp only [List.forall_mem_cons] at plain
  rw [regularEnd?, if_pos (by simpa using inside), if_neg plain.1, if_neg plain.2.1,
    if_neg plain.2.2.1]

theorem regularEnd?_eq (lead u : Text) :
    regularEnd? (encode (lead ++ u)) (bytes lead) =
      (regular? u).map fun x => bytes lead + bytes x.1 := by
  fun_induction regular? u generalizing lead with
  | case1 => rw [regularEnd?, if_neg (by simp), Option.map_none]
  | case2 =>
    have size := bytes_concat_ascii lead (c := '\\') (by decide)
    rw [regularEnd?, if_pos (by simp [size]), if_pos ((holds_iff_head (by decide)).mpr rfl),
      regularEnd?, if_neg (by simp [size]), Option.map_none]
  | case3 c u ih =>
    have size := bytes_concat_ascii lead (c := '\\') (by decide)
    have passed := pass_char (n := 1) ['\\', '\x22', '\n']
      (regularEnd? (encode (lead ++ ['\\'] ++ c :: u))) (lead ++ ['\\']) u c (by decide)
      c.utf8Size_pos (by simp) (regularEnd?_step _)
    have later := ih (lead ++ ['\\'] ++ [c])
    rw [← append_cons_eq, ← passed, size, ← append_cons_eq] at later
    rw [regularEnd?, if_pos (by simpa using bytes_lt_append_cons lead (c :: u) '\\'),
      if_pos ((holds_iff_head (by decide)).mpr rfl), later, Option.map_map]
    simp [Function.comp_def, Nat.add_assoc]
  | case4 u =>
    rw [regularEnd?, if_pos (by simpa using bytes_lt_append_cons lead u '\x22'),
      if_neg (by rw [holds_iff_head (by decide)]; simp),
      if_pos ((holds_iff_head (by decide)).mpr rfl)]
    simp
  | case5 u =>
    rw [regularEnd?, if_pos (by simpa using bytes_lt_append_cons lead u '\n'),
      if_neg (by rw [holds_iff_head (by decide)]; simp),
      if_neg (by rw [holds_iff_head (by decide)]; simp),
      if_pos ((holds_iff_head (by decide)).mpr rfl), Option.map_none]
  | case6 c u lone escape quote newline ih =>
    have backslash : c ≠ '\\' := by
      intro same
      cases u with
      | nil => exact lone same rfl
      | cons d u => exact escape d u same rfl
    have passed := pass_plain ['\\', '\x22', '\n'] (regularEnd? (encode (lead ++ c :: u))) lead u c
      (by decide) (by grind) (regularEnd?_step _)
    have later := ih (lead ++ [c])
    rw [← append_cons_eq, ← passed] at later
    rw [later, Option.map_map]
    simp [Function.comp_def, Nat.add_assoc]

theorem verbatimEnd?_step (t : Text) (i : Nat) (inside : i < bytes t)
    (plain : ∀ y ∈ ['\x22'], ¬Holds (encode t) i y) :
    verbatimEnd? (encode t) i = verbatimEnd? (encode t) (i + 1) := by
  rw [verbatimEnd?, if_pos (by simpa using inside), if_neg (plain _ (by simp))]

theorem verbatimEnd?_eq (lead u : Text) :
    verbatimEnd? (encode (lead ++ u)) (bytes lead) =
      (verbatim? u).map fun x => bytes lead + bytes x.1 := by
  fun_induction verbatim? u generalizing lead with
  | case1 => rw [verbatimEnd?, if_neg (by simp), Option.map_none]
  | case2 u ih =>
    have inside := bytes_lt_append_cons lead ('\x22' :: u) '\x22'
    have size : bytes (lead ++ ['\x22', '\x22']) = bytes lead + 2 := by
      rw [append_cons_eq, bytes_concat_ascii _ (by decide), bytes_concat_ascii _ (by decide)]
    have later := ih (lead ++ ['\x22', '\x22'])
    rw [size, List.append_assoc] at later
    rw [verbatimEnd?, if_pos (by simpa using inside), if_pos ((holds_iff_head (by decide)).mpr rfl),
      if_pos ((holds_iff_next (by decide) (by decide)).mpr rfl)]
    rw [show lead ++ '\x22' :: '\x22' :: u = lead ++ (['\x22', '\x22'] ++ u) by rfl, later, Option.map_map]
    have one := utf8Size_ascii (c := '\x22') (by decide)
    simp [Function.comp_def, one, Nat.add_assoc, ← Nat.add_assoc 1]
  | case3 u single =>
    have inside := bytes_lt_append_cons lead u '\x22'
    rw [verbatimEnd?, if_pos (by simpa using inside), if_pos ((holds_iff_head (by decide)).mpr rfl),
      if_neg]
    · simp
    · rw [holds_iff_next (by decide) (by decide)]
      intro head
      obtain ⟨rest, doubled⟩ := List.head?_eq_some_iff.mp head
      exact single rest doubled
  | case4 c u _ quote ih =>
    have passed := pass_plain ['\x22'] (verbatimEnd? (encode (lead ++ c :: u))) lead u c
      (by decide) (by simpa using quote) (verbatimEnd?_step _)
    have later := ih (lead ++ [c])
    rw [← append_cons_eq, ← passed] at later
    rw [later, Option.map_map]
    simp [Function.comp_def, Nat.add_assoc]

/-- Where a move at an offset leads, if `go` tells how to go on with some holes open. -/
def follow (go : Nat → Nat → Option Nat) (here : Nat) : Move → Option Nat
  | .closes _ => some here
  | .fails => none
  | .goes passed depth _ => go depth (here + bytes passed)

theorem interpolatedEnd?_step (t : Text) (verbatim : Bool) (depth i : Nat) (inside : i < bytes t)
    (plain : ∀ y ∈ ['\x7b', '\x7d', '\x22', '\\', '\n'], ¬Holds (encode t) i y) :
    interpolatedEnd? (encode t) verbatim depth i = interpolatedEnd? (encode t) verbatim depth (i + 1) := by
  simp only [List.forall_mem_cons] at plain
  rw [interpolatedEnd?, if_pos (by simpa using inside)]
  simp [plain]

theorem move_opening (verbatim : Bool) (depth : Nat) (u : Text) :
    move verbatim depth '\x7b' u =
      if depth = 0 ∧ u.head? = some '\x7b' then .goes ['\x7b', '\x7b'] 0 u.tail
      else .goes ['\x7b'] (depth + 1) u := by
  unfold move
  rw [if_pos rfl]
  split
  · simp
  · rename_i single
    rw [if_neg]
    intro ⟨outside, head⟩
    obtain ⟨rest, doubled⟩ := List.head?_eq_some_iff.mp head
    exact single rest outside doubled

theorem move_closing (verbatim : Bool) (depth : Nat) (u : Text) :
    move verbatim depth '\x7d' u =
      if depth = 0 ∧ u.head? = some '\x7d' then .goes ['\x7d', '\x7d'] 0 u.tail
      else .goes ['\x7d'] (depth - 1) u := by
  unfold move
  rw [if_neg (by decide), if_pos rfl]
  split
  · simp
  · rename_i single
    rw [if_neg]
    intro ⟨_, head⟩
    obtain ⟨rest, doubled⟩ := List.head?_eq_some_iff.mp head
    exact single rest doubled
  · simp

theorem move_quote (verbatim : Bool) (u : Text) :
    move verbatim 0 '\x22' u =
      if verbatim ∧ u.head? = some '\x22' then .goes ['\x22', '\x22'] 0 u.tail else .closes u := by
  unfold move
  rw [if_neg (by decide), if_neg (by decide), if_pos rfl, if_neg (by omega)]
  split
  · simp
  · rename_i single
    rw [if_neg]
    intro ⟨doubling, head⟩
    obtain ⟨rest, doubled⟩ := List.head?_eq_some_iff.mp head
    exact single rest doubling doubled

theorem move_hole_quote (verbatim : Bool) (depth : Nat) (u : Text) :
    move verbatim (depth + 1) '\x22' u =
      ((regular? u).map fun x => Move.goes ('\x22' :: x.1 ++ ['\x22']) (depth + 1) x.2).getD .fails := by
  unfold move
  rw [if_neg (by decide), if_neg (by decide), if_pos rfl, if_pos (by omega)]
  cases regular? u <;> rfl

theorem move_backslash (verbatim : Bool) (depth : Nat) (u : Text) :
    move verbatim depth '\\' u =
      if verbatim then .goes ['\\'] depth u
      else (u.head?.map fun d => Move.goes ['\\', d] depth u.tail).getD .fails := by
  cases verbatim <;> cases u <;> rfl

theorem move_newline (verbatim : Bool) (depth : Nat) (u : Text) :
    move verbatim depth '\n' u =
      if !verbatim ∧ depth = 0 then .fails else .goes ['\n'] depth u := by
  cases verbatim <;> cases depth <;> rfl

theorem interpolatedEnd?_hole {bs : List Nat} {verbatim : Bool} {depth i : Nat} (inside : i < bs.length)
    (quote : Holds bs i '\x22') (hole : 0 < depth) :
    interpolatedEnd? bs verbatim depth i =
      (regularEnd? bs (i + 1)).bind fun stop => interpolatedEnd? bs verbatim depth (stop + 1) := by
  have other : ∀ x : Char, '\x22' ≠ x → ¬Holds bs i x :=
    fun x differs held => differs (holds_unique quote held)
  rw [interpolatedEnd?, if_pos inside, if_neg (fun both => other _ (by decide) both.1),
    if_neg (fun both => other _ (by decide) both.1), if_neg (other _ (by decide)),
    if_neg (fun both => other _ (by decide) both.1), if_pos ⟨quote, hole⟩]
  split
  · rename_i stop found
    rw [found, Option.bind_some]
  · rename_i found
    rw [found, Option.bind_none]

/-- The cursor makes the move of the character it stands at. -/
def Follows (lead u : Text) (verbatim : Bool) (depth : Nat) (c : Char) : Prop :=
  interpolatedEnd? (encode (lead ++ c :: u)) verbatim depth (bytes lead) =
    follow (interpolatedEnd? (encode (lead ++ c :: u)) verbatim) (bytes lead) (move verbatim depth c u)

theorem inside_encode (lead u : Text) (c : Char) : bytes lead < (encode (lead ++ c :: u)).length := by
  rw [length_encode]
  exact bytes_lt_append_cons lead u c

/-- Where the cursor stands at a character, it sees that character and no other. -/
theorem holds_here (ascii : x.toNat < 0x80) :
    Holds (encode (lead ++ c :: u)) (bytes lead) x ↔ c = x := by
  rw [holds_iff_head ascii, List.head?_cons, Option.some.injEq]

theorem follows_opening (lead u : Text) (verbatim : Bool) (depth : Nat) :
    Follows lead u verbatim depth '\x7b' := by
  have one : ('\x7b' : Char).utf8Size = 1 := by decide
  unfold Follows
  rw [move_opening, interpolatedEnd?, if_pos (inside_encode lead u _)]
  by_cases doubled : depth = 0 ∧ u.head? = some '\x7b'
  · simp [doubled, follow, holds_here, holds_iff_next, one]
  · simp [doubled, follow, holds_here, holds_iff_next, one]

theorem follows_closing (lead u : Text) (verbatim : Bool) (depth : Nat) :
    Follows lead u verbatim depth '\x7d' := by
  have one : ('\x7d' : Char).utf8Size = 1 := by decide
  unfold Follows
  rw [move_closing, interpolatedEnd?, if_pos (inside_encode lead u _)]
  by_cases outside : depth = 0
  · by_cases doubled : u.head? = some '\x7d'
    · simp [outside, doubled, follow, holds_here, holds_iff_next, one]
    · simp [outside, doubled, follow, holds_here, holds_iff_next, one]
  · have positive : 0 < depth := by omega
    simp [outside, positive, follow, holds_here, one]

theorem follows_quote (lead u : Text) (verbatim : Bool) (depth : Nat) :
    Follows lead u verbatim depth '\x22' := by
  have one : ('\x22' : Char).utf8Size = 1 := by decide
  have inside := inside_encode lead u '\x22'
  unfold Follows
  cases depth with
  | zero =>
    rw [move_quote, interpolatedEnd?, if_pos inside]
    by_cases doubled : verbatim ∧ u.head? = some '\x22'
    · simp [doubled, follow, holds_here, holds_iff_next, one]
    · simp [doubled, follow, holds_here, holds_iff_next]
  | succ depth =>
    have inner := regularEnd?_eq (lead ++ ['\x22']) u
    rw [← append_cons_eq, bytes_concat_ascii _ (by decide)] at inner
    rw [move_hole_quote, interpolatedEnd?_hole inside ((holds_here (by decide)).mpr rfl) (by omega), inner]
    cases regular? u with
    | none => rfl
    | some found => simp [follow, one, Nat.add_assoc]

theorem follows_backslash (lead u : Text) (verbatim : Bool) (depth : Nat) :
    Follows lead u verbatim depth '\\' := by
  have one : ('\\' : Char).utf8Size = 1 := by decide
  unfold Follows
  rw [move_backslash, interpolatedEnd?, if_pos (inside_encode lead u _)]
  cases verbatim with
  | true => simp [follow, holds_here, one]
  | false =>
    cases u with
    | nil =>
      have beyond : ¬bytes lead + 2 < (encode (lead ++ ['\\'])).length := by simp [one]
      rw [interpolatedEnd?.eq_def _ _ _ (bytes lead + 2), if_neg beyond]
      simp [follow, holds_here]
    | cons d u =>
      -- the cursor jumps by two bytes, which may end inside of the character that is escaped
      have passed := pass_char (n := 1) ['\x7b', '\x7d', '\x22', '\\', '\n']
        (interpolatedEnd? (encode (lead ++ ['\\'] ++ d :: u)) false depth) (lead ++ ['\\']) u d
        (by decide) d.utf8Size_pos (by simp) (interpolatedEnd?_step _ false depth)
      rw [← append_cons_eq, bytes_concat_ascii _ (by decide), List.append_assoc] at passed
      simp only [Nat.add_assoc, Nat.reduceAdd] at passed
      simp [follow, holds_here, passed]

theorem follows_newline (lead u : Text) (verbatim : Bool) (depth : Nat) :
    Follows lead u verbatim depth '\n' := by
  have one : ('\n' : Char).utf8Size = 1 := by decide
  unfold Follows
  rw [move_newline, interpolatedEnd?, if_pos (inside_encode lead u _)]
  by_cases ends : verbatim = false ∧ depth = 0
  · simp [ends, follow, holds_here]
  · simp [ends, follow, holds_here, one]

theorem follows_move (lead u : Text) (verbatim : Bool) (depth : Nat) (c : Char) :
    Follows lead u verbatim depth c := by
  by_cases marked : c ∈ ['\x7b', '\x7d', '\x22', '\\', '\n']
  · simp only [List.mem_cons, List.not_mem_nil, or_false] at marked
    rcases marked with rfl | rfl | rfl | rfl | rfl
    · exact follows_opening lead u verbatim depth
    · exact follows_closing lead u verbatim depth
    · exact follows_quote lead u verbatim depth
    · exact follows_backslash lead u verbatim depth
    · exact follows_newline lead u verbatim depth
  · have passed := pass_plain ['\x7b', '\x7d', '\x22', '\\', '\n']
      (interpolatedEnd? (encode (lead ++ c :: u)) verbatim depth) lead u c (by decide) marked
      (interpolatedEnd?_step _ verbatim depth)
    have goes : move verbatim depth c u = .goes [c] depth u := by
      simp only [List.mem_cons, not_or] at marked
      simp [move, marked]
    rw [Follows, passed, goes, follow, bytes_append]

theorem interpolatedEnd?_eq (lead u : Text) (verbatim : Bool) (depth : Nat) :
    interpolatedEnd? (encode (lead ++ u)) verbatim depth (bytes lead) =
      (interpolatedAt? verbatim depth u).map fun x => bytes lead + bytes x.1 := by
  induction size : u.length using Nat.strongRecOn generalizing lead u depth with
  | ind n ih =>
    cases u with
    | nil =>
      rw [interpolatedEnd?, if_neg (by simp)]
      rfl
    | cons c u =>
      have within := move_within verbatim depth c u
      have follows := follows_move lead u verbatim depth c
      rw [Follows] at follows
      rw [follows, interpolatedAt?_cons]
      cases here : move verbatim depth c u with
      | closes after => simp [follow, Move.run]
      | fails => rfl
      | goes passed inner rest =>
        rw [here] at within
        obtain ⟨split, filled⟩ := within
        have positive := List.length_pos_iff.mpr filled
        have lengths := congrArg List.length split
        simp only [List.length_cons, List.length_append] at lengths size
        have later := ih rest.length (by omega) (lead ++ passed) rest inner rfl
        rw [split, ← List.append_assoc, follow, ← bytes_append, later, Move.run, Option.map_map]
        simp [Function.comp_def, Nat.add_assoc]

end TemplateMarkup.Literal.Bytewise
