import TemplateMarkup.Proofs.Bytes
import TemplateMarkup.Proofs.Literal.Pieces

/-!
Code read byte by byte. A cursor moves over the bytes of the code, looks at the byte it stands at and at
the next ones, and jumps over what it has recognised; it may come to stand inside of a character. Looking
for a mark from beyond the end and cutting the code inside of a character are refused.
-/
namespace TemplateMarkup.Literal.Bytewise

open Text

variable (bs : List Nat)

/-- The first offset before the limit, from `i` on, that holds a character of ASCII. -/
def find? (limit i : Nat) (c : Char) : Option Nat :=
  if i < limit then if Holds bs i c then some i else find? limit (i + 1) c else none
termination_by limit - i

/-- The search of `find?`, refused where it would start beyond the limit. -/
def search? (limit i : Nat) (c : Char) : Option (Option Nat) :=
  if i ≤ limit then some (find? bs limit i c) else none

/-- The offset of the quote that closes a regular string. -/
def regularEnd? (i : Nat) : Option Nat :=
  if i < bs.length then
    if Holds bs i '\\' then regularEnd? (i + 2)
    else if Holds bs i '\x22' then some i
    else if Holds bs i '\n' then none
    else regularEnd? (i + 1)
  else none
termination_by bs.length - i

def verbatimEnd? (i : Nat) : Option Nat :=
  if i < bs.length then
    if Holds bs i '\x22' then if Holds bs (i + 1) '\x22' then verbatimEnd? (i + 2) else some i
    else verbatimEnd? (i + 1)
  else none
termination_by bs.length - i

variable {bs}

theorem regularEnd?_le {i stop : Nat} (found : regularEnd? bs i = some stop) : i ≤ stop := by
  fun_induction regularEnd? bs i with
  | case1 i inside escape ih =>
    have further := ih found
    omega
  | case2 i => exact Nat.le_of_eq (Option.some.inj found)
  | case3 => cases found
  | case4 i _ _ _ _ ih =>
    have further := ih found
    omega
  | case5 => cases found

variable (bs)

/-- The offset of the quote that closes an interpolated string, in which `depth` holes are open. -/
def interpolatedEnd? (verbatim : Bool) (depth i : Nat) : Option Nat :=
  if i < bs.length then
    if Holds bs i '\x7b' ∧ depth = 0 ∧ Holds bs (i + 1) '\x7b' then
      interpolatedEnd? verbatim depth (i + 2)
    else if Holds bs i '\x7d' ∧ depth = 0 ∧ Holds bs (i + 1) '\x7d' then
      interpolatedEnd? verbatim depth (i + 2)
    else if Holds bs i '\x7b' then interpolatedEnd? verbatim (depth + 1) (i + 1)
    else if Holds bs i '\x7d' ∧ 0 < depth then interpolatedEnd? verbatim (depth - 1) (i + 1)
    else if Holds bs i '\x22' ∧ 0 < depth then
      match inner : regularEnd? bs (i + 1) with
      | some stop => interpolatedEnd? verbatim depth (stop + 1)
      | none => none
    else if Holds bs i '\x22' ∧ verbatim ∧ Holds bs (i + 1) '\x22' then
      interpolatedEnd? verbatim depth (i + 2)
    else if Holds bs i '\x22' then some i
    else if Holds bs i '\\' ∧ !verbatim then interpolatedEnd? verbatim depth (i + 2)
    else if Holds bs i '\n' ∧ !verbatim ∧ depth = 0 then none
    else interpolatedEnd? verbatim depth (i + 1)
  else none
termination_by bs.length - i
decreasing_by
  all_goals try omega
  have further := regularEnd?_le inner
  omega

/-- Where the code goes on after the single quote at `i`. -/
def charEnd? (i : Nat) : Option Nat :=
  if Holds bs (i + 1) '\\' then
    (search? bs (min (i + 10) bs.length) (i + 3) '\x27').map fun found =>
      (found.map (· + 1)).getD (i + 1)
  else if Holds bs (i + 2) '\x27' then some (i + 3)
  else some (i + 1)

/-- What one turn of the cursor finds, and where it comes to stand. -/
structure Turn where
  literal : Option Span
  next : Nat
deriving DecidableEq, Repr

variable (t : Text)

/-- Where the code goes on after the next occurrence of a part, or its end. -/
def past? (part : Text) (i : Nat) : Option Nat :=
  (dropBytes i t).map fun rest =>
    ((splitAt? part rest).map fun x => i + bytes x.1 + bytes part).getD (bytes t)

/-- The body of a string from `start` on is cut out of the code, if its closing quote is found. -/
def cutOut? (start : Nat) (stop? : Option Nat) : Option Turn :=
  match stop? with
  | some stop => (slice? t start stop).map fun _ => ⟨some ⟨start, stop⟩, stop + 1⟩
  | none => some ⟨none, start⟩

def passOver? (next? : Option Nat) : Option Turn := next?.map fun next => ⟨none, next⟩

def slashTurn? (i : Nat) : Option Turn :=
  let bs := encode t
  if Holds bs (i + 1) '/' then
    passOver? ((search? bs bs.length (i + 2) '\n').map (·.getD bs.length))
  else if Holds bs (i + 1) '*' then passOver? (past? t "*/" (i + 2))
  else passOver? (some (i + 1))

/-- At a quote, a regular string starts, or a raw one. -/
def quoteTurn? (i : Nat) : Option Turn :=
  (dropBytes i t).bind fun rest =>
    if startsWith rest "\"\"\"" then passOver? (past? t "\"\"\"" (i + 3))
    else cutOut? t (i + 1) (regularEnd? (encode t) (i + 1))

/-- At one of the signs `@` and `$`, a verbatim or an interpolated string may start, or one that is both. -/
def signTurn? (i : Nat) : Option Turn :=
  let bs := encode t
  if Holds bs (i + 1) '\x22' then
    cutOut? t (i + 2)
      (if Holds bs i '$' then interpolatedEnd? bs false 0 (i + 2) else verbatimEnd? bs (i + 2))
  else if (Holds bs (i + 1) '@' ∨ Holds bs (i + 1) '$') ∧ Holds bs (i + 2) '\x22' ∧
      bs[i + 1]? ≠ bs[i]? then
    cutOut? t (i + 3) (interpolatedEnd? bs true 0 (i + 3))
  else passOver? (some (i + 1))

def turn? (i : Nat) : Option Turn :=
  let bs := encode t
  if Holds bs i '/' then slashTurn? t i
  else if Holds bs i '\x27' then passOver? (charEnd? bs i)
  else if Holds bs i '\x22' then quoteTurn? t i
  else if Holds bs i '@' ∨ Holds bs i '$' then signTurn? t i
  else passOver? (some (i + 1))

variable {bs t}

theorem find?_le {limit i stop : Nat} {c : Char} (found : find? bs limit i c = some stop) :
    i ≤ stop := by
  fun_induction find? bs limit i c with
  | case1 => exact Nat.le_of_eq (Option.some.inj found)
  | case2 i _ _ ih =>
    have further := ih found
    omega
  | case3 => cases found

theorem verbatimEnd?_le {i stop : Nat} (found : verbatimEnd? bs i = some stop) : i ≤ stop := by
  fun_induction verbatimEnd? bs i with
  | case1 i _ _ _ ih =>
    have further := ih found
    omega
  | case2 => exact Nat.le_of_eq (Option.some.inj found)
  | case3 i _ _ ih =>
    have further := ih found
    omega
  | case4 => cases found

theorem interpolatedEnd?_le {verbatim : Bool} {depth i stop : Nat}
    (found : interpolatedEnd? bs verbatim depth i = some stop) : i ≤ stop := by
  fun_induction interpolatedEnd? bs verbatim depth i
  all_goals grind [→ regularEnd?_le]

theorem search?_le {limit i : Nat} {c : Char} {found : Option Nat}
    (searched : search? bs limit i c = some found) : i ≤ limit ∧ ∀ stop ∈ found, i ≤ stop := by
  unfold search? at searched
  split at searched
  · rename_i inside
    refine ⟨inside, fun stop member => ?_⟩
    rw [← Option.some.inj searched] at member
    exact find?_le member
  · cases searched

theorem charEnd?_lt {i next : Nat} (ended : charEnd? bs i = some next) : i < next := by
  unfold charEnd? at ended
  split at ended
  · obtain ⟨found, searched, rfl⟩ := Option.map_eq_some_iff.mp ended
    cases found with
    | none => exact Nat.lt_succ_self i
    | some stop =>
      have further := (search?_le searched).2 stop rfl
      show i < stop + 1
      omega
  · split at ended
    · have same := Option.some.inj ended
      omega
    · have same := Option.some.inj ended
      omega

theorem past?_le {part : Text} {i next : Nat} (passed : past? t part i = some next) : i ≤ next := by
  obtain ⟨rest, dropped, rfl⟩ := Option.map_eq_some_iff.mp passed
  obtain ⟨lead, rfl, size⟩ := dropBytes_eq_some dropped
  cases splitAt? part rest with
  | none =>
    show i ≤ bytes (lead ++ rest)
    rw [bytes_append]
    omega
  | some found =>
    show i ≤ i + bytes found.1 + bytes part
    omega

theorem cutOut?_le {start : Nat} {stop? : Option Nat} {turn : Turn}
    (after : ∀ stop ∈ stop?, start ≤ stop) (cut : cutOut? t start stop? = some turn) :
    start ≤ turn.next := by
  cases stop? with
  | none =>
    obtain rfl := Option.some.inj cut
    exact Nat.le_refl start
  | some stop =>
    obtain ⟨_, _, rfl⟩ := Option.map_eq_some_iff.mp cut
    have further := after stop rfl
    show start ≤ stop + 1
    omega

theorem passOver?_lt {i : Nat} {next? : Option Nat} {turn : Turn} (after : ∀ next ∈ next?, i < next)
    (passed : passOver? next? = some turn) : i < turn.next := by
  obtain ⟨next, here, rfl⟩ := Option.map_eq_some_iff.mp passed
  exact after next here

theorem next_lt (i : Nat) : ∀ next ∈ some (i + 1), i < next := by
  intro next same
  have next := Option.some.inj same
  omega

theorem slashTurn?_advances {i : Nat} {turn : Turn} (turned : slashTurn? t i = some turn) :
    i < turn.next := by
  unfold slashTurn? at turned
  dsimp only at turned
  split at turned
  · apply passOver?_lt _ turned
    intro next member
    obtain ⟨found, searched, rfl⟩ := Option.map_eq_some_iff.mp member
    obtain ⟨inside, further⟩ := search?_le searched
    cases found with
    | none =>
      show i < (encode t).length
      omega
    | some stop =>
      have beyond := further stop rfl
      show i < stop
      omega
  · split at turned
    · apply passOver?_lt _ turned
      intro next member
      have beyond := past?_le member
      omega
    · exact passOver?_lt (next_lt i) turned

theorem quoteTurn?_advances {i : Nat} {turn : Turn} (turned : quoteTurn? t i = some turn) :
    i < turn.next := by
  obtain ⟨rest, _, turned⟩ := Option.bind_eq_some_iff.mp turned
  split at turned
  · apply passOver?_lt _ turned
    intro next member
    have beyond := past?_le member
    omega
  · have beyond := cutOut?_le (fun stop member => regularEnd?_le member) turned
    omega

theorem signTurn?_advances {i : Nat} {turn : Turn} (turned : signTurn? t i = some turn) :
    i < turn.next := by
  unfold signTurn? at turned
  dsimp only at turned
  split at turned
  · have beyond := cutOut?_le (fun stop member => ?_) turned
    · omega
    · split at member
      · exact interpolatedEnd?_le member
      · exact verbatimEnd?_le member
  · split at turned
    · have beyond := cutOut?_le (fun stop member => interpolatedEnd?_le member) turned
      omega
    · exact passOver?_lt (next_lt i) turned

theorem turn?_advances {i : Nat} {turn : Turn} (turned : turn? t i = some turn) : i < turn.next := by
  unfold turn? at turned
  dsimp only at turned
  split at turned
  · exact slashTurn?_advances turned
  · split at turned
    · exact passOver?_lt (fun next member => charEnd?_lt member) turned
    · split at turned
      · exact quoteTurn?_advances turned
      · split at turned
        · exact signTurn?_advances turned
        · exact passOver?_lt (next_lt i) turned

variable (t)

def spansFrom? (i : Nat) : Option (List Span) :=
  if i < bytes t then
    match _turned : turn? t i with
    | some turn => (spansFrom? turn.next).map (turn.literal.toList ++ ·)
    | none => none
  else some []
termination_by bytes t - i
decreasing_by
  have further := turn?_advances _turned
  omega

def spans? : Option (List Span) := spansFrom? t 0

end TemplateMarkup.Literal.Bytewise
