import TemplateMarkup.Literal
import TemplateMarkup.Proofs.Region.Cuts

/-!
Code as it is read, piece by piece. A string is read up to the quote that closes it, and whatever is read,
what follows is the end of the code; so the bodies of all strings are those that the pieces give one after
the other.
-/
namespace TemplateMarkup.Literal

open Text

variable {t body after : Text}

/-- A reader that goes on after a lead reads a body up to its closing quote if it does so after the lead. -/
theorem closed_of_lead (lead : Text) {rest : Text} {read? : Option (Text × Text)}
    (read : read?.map (fun x => (lead ++ x.1, x.2)) = some (body, after))
    (closed : ∀ inner, read? = some (inner, after) → rest = inner ++ '\x22' :: after) :
    lead ++ rest = body ++ '\x22' :: after := by
  obtain ⟨⟨inner, tail⟩, later, same⟩ := Option.map_eq_some_iff.mp read
  obtain ⟨rfl, rfl⟩ := Prod.mk.inj same
  rw [closed inner later, List.append_assoc]

theorem regular?_closed (read : regular? t = some (body, after)) : t = body ++ '\x22' :: after := by
  fun_induction regular? t generalizing body with
  | case1 => cases read
  | case2 => cases read
  | case3 c t ih => exact closed_of_lead ['\\', c] read fun _ => ih
  | case4 t =>
    obtain ⟨rfl, rfl⟩ := Prod.mk.inj (Option.some.inj read)
    rfl
  | case5 => cases read
  | case6 c t _ _ _ _ ih => exact closed_of_lead [c] read fun _ => ih

theorem verbatim?_closed (read : verbatim? t = some (body, after)) : t = body ++ '\x22' :: after := by
  fun_induction verbatim? t generalizing body with
  | case1 => cases read
  | case2 t ih => exact closed_of_lead ['\x22', '\x22'] read fun _ => ih
  | case3 t =>
    obtain ⟨rfl, rfl⟩ := Prod.mk.inj (Option.some.inj read)
    rfl
  | case4 c t _ _ ih => exact closed_of_lead [c] read fun _ => ih

/-- What the next character of an interpolated string does. -/
inductive Move
  | closes (after : Text)
  | fails
  | goes (lead : Text) (depth : Nat) (rest : Text)

/-- The move at a character, with the given number of open holes. -/
def move (verbatim : Bool) (depth : Nat) (c : Char) (t : Text) : Move :=
  if c = '\x7b' then
    match depth, t with
    | 0, '\x7b' :: rest => .goes ['\x7b', '\x7b'] 0 rest
    | _, _ => .goes [c] (depth + 1) t
  else if c = '\x7d' then
    match depth, t with
    | 0, '\x7d' :: rest => .goes ['\x7d', '\x7d'] 0 rest
    | 0, _ => .goes [c] 0 t
    | d + 1, _ => .goes [c] d t
  else if c = '\x22' then
    if 0 < depth then
      match regular? t with
      | some (inner, rest) => .goes ('\x22' :: inner ++ ['\x22']) depth rest
      | none => .fails
    else
      match verbatim, t with
      | true, '\x22' :: rest => .goes ['\x22', '\x22'] depth rest
      | _, _ => .closes t
  else if c = '\\' && !verbatim then
    match t with
    | [] => .fails
    | d :: rest => .goes [c, d] depth rest
  else if c = '\n' && !verbatim && depth == 0 then .fails
  else .goes [c] depth t

def Move.run (go : Nat → Text → Option (Text × Text)) : Move → Option (Text × Text)
  | closes after => some ([], after)
  | fails => none
  | goes lead depth rest => (go depth rest).map fun x => (lead ++ x.1, x.2)

theorem interpolatedFrom?_cons (verbatim : Bool) (fuel depth : Nat) (c : Char) (t : Text) :
    interpolatedFrom? verbatim (fuel + 1) depth (c :: t) =
      (move verbatim depth c t).run (interpolatedFrom? verbatim fuel) := by
  unfold interpolatedFrom? move
  dsimp only
  split
  · split
    · rfl
    · simp_all [Move.run]
  · split
    · split
      · rfl
      · simp_all [Move.run]
      · rfl
    · split
      · split
        · cases regular? t <;> rfl
        · split
          · rfl
          · simp_all [Move.run]
      · split
        · split <;> rfl
        · split <;> rfl

/-- A string closes at a quote, and other moves go on after a part of the text. -/
def Move.Within (t : Text) : Move → Prop
  | closes after => t = '\x22' :: after
  | fails => True
  | goes lead _ rest => t = lead ++ rest ∧ lead ≠ []

theorem move_within (verbatim : Bool) (depth : Nat) (c : Char) (t : Text) :
    (move verbatim depth c t).Within (c :: t) := by
  unfold move
  split
  · rename_i brace
    subst brace
    split <;> simp [Move.Within]
  · split
    · rename_i brace
      subst brace
      split <;> simp [Move.Within]
    · split
      · rename_i quote
        subst quote
        split
        · split
          · rename_i inner rest read
            rw [regular?_closed read]
            simp [Move.Within]
          · trivial
        · split <;> simp [Move.Within]
      · split
        · split <;> simp [Move.Within]
        · split <;> simp [Move.Within]

theorem interpolatedFrom?_closed {verbatim : Bool} {fuel depth : Nat}
    (read : interpolatedFrom? verbatim fuel depth t = some (body, after)) :
    t = body ++ '\x22' :: after := by
  induction fuel generalizing depth t body with
  | zero => simp [interpolatedFrom?] at read
  | succ fuel ih =>
    cases t with
    | nil => simp [interpolatedFrom?] at read
    | cons c t =>
      have within := move_within verbatim depth c t
      rw [interpolatedFrom?_cons] at read
      cases here : move verbatim depth c t with
      | fails =>
        rw [here] at read
        cases read
      | closes rest =>
        rw [here] at read within
        obtain ⟨rfl, rfl⟩ := Prod.mk.inj (Option.some.inj read)
        exact within
      | goes lead inner rest =>
        rw [here] at read within
        rw [within.1]
        exact closed_of_lead lead read fun _ => ih

theorem Move.Within.run_congr {m : Move} {c : Char} (within : m.Within (c :: t))
    {one two : Nat → Text → Option (Text × Text)}
    (same : ∀ depth u, u.length ≤ t.length → one depth u = two depth u) : m.run one = m.run two := by
  cases m with
  | fails => rfl
  | closes after => rfl
  | goes lead depth rest =>
    have lengths := congrArg List.length within.1
    have positive := List.length_pos_iff.mpr within.2
    simp only [List.length_cons, List.length_append] at lengths
    rw [run, run, same depth rest (by omega)]

theorem interpolatedFrom?_fuel {verbatim : Bool} (fuel more depth : Nat) (t : Text)
    (enough : t.length < fuel) (enough' : t.length < more) :
    interpolatedFrom? verbatim fuel depth t = interpolatedFrom? verbatim more depth t := by
  induction fuel generalizing more depth t with
  | zero => omega
  | succ fuel ih =>
    cases more with
    | zero => omega
    | succ more =>
      cases t with
      | nil => simp [interpolatedFrom?]
      | cons c t =>
        rw [List.length_cons] at enough enough'
        rw [interpolatedFrom?_cons, interpolatedFrom?_cons]
        exact (move_within verbatim depth c t).run_congr fun inner u bound =>
          ih more inner u (by omega) (by omega)

/-- The body of an interpolated string, read with some holes open. -/
def interpolatedAt? (verbatim : Bool) (depth : Nat) (t : Text) : Option (Text × Text) :=
  interpolatedFrom? verbatim (t.length + 1) depth t

theorem interpolatedAt?_cons (verbatim : Bool) (depth : Nat) (c : Char) (t : Text) :
    interpolatedAt? verbatim depth (c :: t) =
      (move verbatim depth c t).run (interpolatedAt? verbatim) := by
  rw [interpolatedAt?, interpolatedFrom?_cons]
  exact (move_within verbatim depth c t).run_congr fun inner u bound =>
    interpolatedFrom?_fuel _ _ inner u (by rw [List.length_cons]; omega) (by omega)

theorem interpolated?_eq (verbatim : Bool) (t : Text) :
    interpolated? verbatim t = interpolatedAt? verbatim 0 t := rfl

/-- The body of a string stands in the text up to a quote; what follows other pieces is the end of the text.
Code is cut off only where a backslash is all that is left. -/
def Piece.Within (t : Text) : Piece → Prop
  | literal body rest => ∃ lead, t = lead ++ body ++ '\x22' :: rest
  | other rest => rest <:+ t
  | cut => t = ['\\']

theorem ofBody_within (lead : Text) {body? : Option (Text × Text)} {rest : Text}
    (closed : ∀ body after, body? = some (body, after) → rest = body ++ '\x22' :: after) :
    (ofBody body? rest).Within (lead ++ rest) := by
  cases read : body? with
  | none => exact List.suffix_append lead rest
  | some found =>
    refine ⟨lead, ?_⟩
    rw [closed found.1 found.2 read, List.append_assoc]

theorem escapedEnd?_suffix {used : Nat} (read : escapedEnd? used t = some after) : after <:+ t := by
  induction t generalizing used with
  | nil => cases read
  | cons c t ih =>
    rw [escapedEnd?] at read
    split at read
    · cases read
    · split at read
      · obtain rfl := Option.some.inj read
        exact List.suffix_cons c t
      · exact (ih read).trans (List.suffix_cons c t)

theorem quotedChar_within (t : Text) : (quotedChar t).Within t := by
  unfold quotedChar
  split
  · rfl
  · rename_i rest _
    cases read : escapedEnd? 0 rest with
    | none => exact List.suffix_refl _
    | some found => exact (escapedEnd?_suffix read).trans (List.suffix_cons _ _)
  · rename_i c rest _
    split
    · exact List.suffix_append [c, '\x27'] rest
    · exact List.suffix_refl _
  · exact List.suffix_refl t

theorem after_suffix (part t : Text) : Literal.after part t <:+ t := by
  unfold Literal.after
  cases found : splitAt? part t with
  | none => exact List.nil_suffix
  | some x => exact ⟨x.1 ++ part, (splitAt?_eq found).symm⟩

/-- What is read next lies in the text, wherever reading has come to. -/
theorem next_within (c : Char) (t : Text) : (next c t).Within t := by
  fun_cases next c t with
  | case1 rest => exact (List.dropWhile_suffix _).trans (List.suffix_cons _ _)
  | case2 rest => exact (after_suffix _ _).trans (List.suffix_cons _ _)
  | case3 t => exact quotedChar_within t
  | case4 rest => exact (after_suffix _ _).trans (List.suffix_append ['\x22', '\x22'] rest)
  | case5 t _ => exact ofBody_within [] fun _ _ read => regular?_closed read
  | case6 rest => exact ofBody_within ['\x22'] fun _ _ read => verbatim?_closed read
  | case7 rest => exact ofBody_within ['\x22'] fun _ _ read => interpolatedFrom?_closed read
  | case8 rest =>
    exact ofBody_within ['$', '\x22'] fun _ _ read => interpolatedFrom?_closed read
  | case9 rest =>
    exact ofBody_within ['@', '\x22'] fun _ _ read => interpolatedFrom?_closed read
  | case10 => exact List.suffix_refl t

/-- The bodies that code gives from a piece on, where `all?` reads what follows it. -/
def Piece.bodies? (all? : Text → Option (List Text)) : Piece → Option (List Text)
  | literal body rest => (all? rest).map (body :: ·)
  | other rest => all? rest
  | cut => none

theorem allFrom_cons (fuel : Nat) (c : Char) (t : Text) :
    allFrom (fuel + 1) (c :: t) = (next c t).bodies? (allFrom fuel) := by
  rw [allFrom]
  cases next c t <;> rfl

theorem Piece.Within.bodies?_congr {piece : Piece} (within : piece.Within t)
    {one two : Text → Option (List Text)} (same : ∀ u, u.length ≤ t.length → one u = two u) :
    piece.bodies? one = piece.bodies? two := by
  cases piece with
  | cut => rfl
  | other rest => exact same rest within.length_le
  | literal body rest =>
    obtain ⟨lead, split⟩ := within
    have lengths := congrArg List.length split
    simp only [List.length_append, List.length_cons] at lengths
    rw [bodies?, bodies?, same rest (by omega)]

theorem allFrom_fuel (fuel more : Nat) (t : Text) (enough : t.length < fuel)
    (enough' : t.length < more) : allFrom fuel t = allFrom more t := by
  induction fuel generalizing more t with
  | zero => omega
  | succ fuel ih =>
    cases more with
    | zero => omega
    | succ more =>
      cases t with
      | nil => rfl
      | cons c t =>
        rw [List.length_cons] at enough enough'
        rw [allFrom_cons, allFrom_cons]
        exact (next_within c t).bodies?_congr fun u bound => ih more u (by omega) (by omega)

@[simp] theorem all?_nil : all? [] = some [] := rfl

theorem all?_cons (c : Char) (t : Text) : all? (c :: t) = (next c t).bodies? all? := by
  rw [all?, List.length_cons, allFrom_cons]
  exact (next_within c t).bodies?_congr fun u bound => allFrom_fuel _ _ u (by omega) (by omega)

end TemplateMarkup.Literal
