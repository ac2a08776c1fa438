import TemplateMarkup.Json.Basic

/-!
Reading JSON text. A fault names what is wrong and the line and column where reading had come to;
columns count bytes.
-/
namespace TemplateMarkup.Json

inductive Malformed
  | endInValue
  | endInObject
  | endInList
  | endInString
  | expectedValue
  | expectedIdent
  | expectedColon
  | expectedObjectCommaOrEnd
  | expectedListCommaOrEnd
  | keyMustBeString
  | trailingComma
  | trailingCharacters
  | invalidNumber
  | numberOutOfRange
  | invalidEscape
  | endOfHexEscape
  | loneSurrogate
  | controlCharacter
  | recursionLimit
deriving DecidableEq, Repr

def Malformed.message : Malformed → Text
  | endInValue => "EOF while parsing a value"
  | endInObject => "EOF while parsing an object"
  | endInList => "EOF while parsing a list"
  | endInString => "EOF while parsing a string"
  | expectedValue => "expected value"
  | expectedIdent => "expected ident"
  | expectedColon => "expected `:`"
  | expectedObjectCommaOrEnd => "expected `,` or `\x7d`"
  | expectedListCommaOrEnd => "expected `,` or `]`"
  | keyMustBeString => "key must be a string"
  | trailingComma => "trailing comma"
  | trailingCharacters => "trailing characters"
  | invalidNumber => "invalid number"
  | numberOutOfRange => "number out of range"
  | invalidEscape => "invalid escape"
  | endOfHexEscape => "unexpected end of hex escape"
  | loneSurrogate => "lone leading surrogate in hex escape"
  | controlCharacter => "control character (\\u0000-\\u001F) found while parsing a string"
  | recursionLimit => "recursion limit exceeded"

/-- What can be wrong with a value that is read as something definite. -/
inductive Complaint
  | malformed (m : Malformed)
  | invalidType (found expected : Text)
  | invalidLength (length : Nat) (expected : Text)
  | missingField (name : Text)
  | duplicateField (name : Text)
  | refused (message : Text)
deriving DecidableEq, Repr

def Complaint.message : Complaint → Text
  | malformed m => m.message
  | invalidType found expected =>
    "invalid type: ".toList ++ found ++ ", expected ".toList ++ expected
  | invalidLength length expected =>
    "invalid length ".toList ++ Text.decimal length ++ ", expected ".toList ++ expected
  | missingField name => "missing field `".toList ++ name ++ "`".toList
  | duplicateField name => "duplicate field `".toList ++ name ++ "`".toList
  | refused message => message

structure Position where
  line : Nat
  column : Nat
deriving DecidableEq, Repr

/-- What is left of a JSON text, and where it begins. -/
structure Source where
  rest : Text
  line : Nat := 1
  column : Nat := 0

/-- A complaint, the place it is about if that is known already, and how far reading had come. -/
structure Failure where
  complaint : Complaint
  position : Option Position
  source : Source

namespace Source

def here (s : Source) : Position := ⟨s.line, s.column⟩

/-- The place one byte further, if there is one. -/
def ahead (s : Source) : Position :=
  match s.rest with
  | [] => s.here
  | c :: _ => if c = '\n' then ⟨s.line + 1, 0⟩ else ⟨s.line, s.column + 1⟩

def tail (s : Source) : Source :=
  match s.rest with
  | [] => s
  | c :: t => if c = '\n' then ⟨t, s.line + 1, 0⟩ else ⟨t, s.line, s.column + c.utf8Size⟩

def fail {α : Type} (s : Source) (m : Malformed) : Except Failure α :=
  .error ⟨.malformed m, some s.here, s⟩

def failAhead {α : Type} (s : Source) (m : Malformed) : Except Failure α :=
  .error ⟨.malformed m, some s.ahead, s⟩

def isSpace (c : Char) : Bool := c == ' ' || c == '\n' || c == '\t' || c == '\r'

def skipSpaceFrom (line column : Nat) : Text → Source
  | [] => ⟨[], line, column⟩
  | c :: t =>
    if c = '\n' then skipSpaceFrom (line + 1) 0 t
    else if isSpace c then skipSpaceFrom line (column + 1) t
    else ⟨c :: t, line, column⟩

def skipSpace (s : Source) : Source := skipSpaceFrom s.line s.column s.rest

def word (s : Source) : List Char → Except Failure Source
  | [] => .ok s
  | e :: es =>
    match s.rest with
    | [] => s.fail .endInValue
    | c :: _ => if c = e then word s.tail es else s.tail.fail .expectedIdent

def hexValue? (c : Char) : Option Nat :=
  if c.isDigit then some (c.toNat - 48)
  else if 'a' ≤ c ∧ c ≤ 'f' then some (c.toNat - 87)
  else if 'A' ≤ c ∧ c ≤ 'F' then some (c.toNat - 55)
  else none

/-- The source after a number of bytes, which may end inside a character. -/
def skipBytes (s : Source) : Nat → Source
  | 0 => s
  | n + 1 =>
    match s.rest with
    | [] => s
    | c :: t =>
      if c.utf8Size ≤ n + 1 then skipBytes s.tail (n + 1 - c.utf8Size)
      else ⟨t, s.line, s.column + (n + 1)⟩
termination_by n => n
decreasing_by
  have := c.utf8Size_pos
  omega

def hexEscape (s : Source) : Except Failure (Nat × Source) :=
  match s.rest with
  | a :: b :: c :: d :: _ =>
    match hexValue? a, hexValue? b, hexValue? c, hexValue? d with
    | some a, some b, some c, some d =>
      .ok (((a * 16 + b) * 16 + c) * 16 + d, s.skipBytes 4)
    | _, _, _, _ => (s.skipBytes 4).fail .invalidEscape
  | rest =>
    if Text.bytes rest < 4 then (s.skipBytes 4).fail .endInString
    else (s.skipBytes 4).fail .invalidEscape

/-- A surrogate pair, of which the first half has been read. -/
def surrogate (s : Source) (high : Nat) : Except Failure (Char × Source) :=
  match s.rest with
  | [] => s.fail .endInString
  | '\\' :: 'u' :: _ => do
    let (low, s) ← s.tail.tail.hexEscape
    if low < 0xDC00 ∨ 0xDFFF < low then s.fail .loneSurrogate
    else .ok (Char.ofNat ((high - 0xD800) * 1024 + (low - 0xDC00) + 0x10000), s)
  | '\\' :: [] => s.tail.fail .endInString
  | '\\' :: _ => (s.tail.skipBytes 1).fail .endOfHexEscape
  | _ => (s.skipBytes 1).fail .endOfHexEscape

/-- The character of an escape, of which the backslash has been read. A lenient reader, which drops
what it reads, takes halves of surrogate pairs. -/
def escape (lenient : Bool) (s : Source) : Except Failure (Char × Source) :=
  match s.rest with
  | [] => s.fail .endInString
  | c :: _ =>
    let simple (d : Char) : Except Failure (Char × Source) := .ok (d, s.tail)
    match c with
    | '\x22' => simple '\x22'
    | '\\' => simple '\\'
    | '/' => simple '/'
    | 'b' => simple '\x08'
    | 'f' => simple '\x0c'
    | 'n' => simple '\n'
    | 'r' => simple '\r'
    | 't' => simple '\t'
    | 'u' => do
      let (n, s) ← s.tail.hexEscape
      if lenient then .ok ('?', s)
      else if 0xDC00 ≤ n ∧ n ≤ 0xDFFF then s.fail .loneSurrogate
      else if 0xD800 ≤ n ∧ n ≤ 0xDBFF then s.surrogate n
      else .ok (Char.ofNat n, s)
    | _ => (s.skipBytes 1).fail .invalidEscape

/-- The rest of a string, of which the opening quote and the characters in `done`, in reverse, have
been read. -/
def stringFrom (lenient : Bool) :
    (fuel : Nat) → (done : Text) → Source → Except Failure (Text × Source)
  | 0, _, s => s.fail .endInString
  | fuel + 1, done, s =>
    match s.rest with
    | [] => s.fail .endInString
    | c :: _ =>
      if c = '\x22' then .ok (done.reverse, s.tail)
      else if c = '\\' then do
        let (d, s) ← s.tail.escape lenient
        stringFrom lenient fuel (d :: done) s
      else if c.toNat < 32 then s.tail.fail .controlCharacter
      else stringFrom lenient fuel (c :: done) s.tail

def string (lenient : Bool) (s : Source) : Except Failure (Text × Source) :=
  stringFrom lenient (s.rest.length + 1) [] s

/-- The largest whole number of 64 bits. -/
def maxWord : Nat := 0xFFFFFFFFFFFFFFFF

/-- The floating-point number `significand * 10 ^ exponent`, by one multiplication or division with a
power of ten, and divisions by `10 ^ 308` before it for small numbers. -/
def floatOf (negative : Bool) (significand : Nat) (exponent : Int) : Option Binary64 :=
  (Binary64.ofNat significand).bind fun x => (go 20 x exponent).map fun x => { x with negative }
where
  go : (fuel : Nat) → Binary64 → Int → Option Binary64
    | 0, x, _ => some x
    | fuel + 1, x, exponent =>
      if exponent.natAbs ≤ 308 then
        (Binary64.ofNat (Nat.pow 10 exponent.natAbs)).bind fun power =>
          if 0 ≤ exponent then x.mul power else x.div power
      else if x.mantissa = 0 then some x
      else if 0 ≤ exponent then none
      else
        (Binary64.ofNat (Nat.pow 10 308)).bind fun power =>
          (x.div power).bind fun x => go fuel x (exponent + 308)

def float (s : Source) (negative : Bool) (significand : Nat) (exponent : Int) :
    Except Failure (JsonNumber × Source) :=
  match floatOf negative significand exponent with
  | some x => .ok (.float x, s)
  | none => s.fail .numberOutOfRange

def digits (s : Source) : List Nat × Source :=
  let ds := s.rest.takeWhile Char.isDigit
  (ds.map fun c => c.toNat - 48, s.skipBytes ds.length)

/-- Takes digits onto a significand as long as it stays in 64 bits; gives it and the number of digits
taken. -/
def accumulate (significand taken : Nat) : List Nat → Nat × Nat
  | [] => (significand, taken)
  | d :: ds =>
    if maxWord < significand * 10 + d then (significand, taken)
    else accumulate (significand * 10 + d) (taken + 1) ds

/-- The exponent of a number, after its `e`. -/
def exponentPart (s : Source) (negative : Bool) (significand : Nat) (start : Int) :
    Except Failure (JsonNumber × Source) :=
  let (minus, s) := match s.rest with
    | '+' :: _ => (false, s.tail)
    | '-' :: _ => (true, s.tail)
    | _ => (false, s)
  match s.rest with
  | [] => s.fail .endInValue
  | c :: _ =>
    if !c.isDigit then (s.skipBytes 1).fail .invalidNumber
    else
      let (ds, after) := s.digits
      let limit : Nat := 0x7FFFFFFF
      let rec go (e taken : Nat) : List Nat → Nat ⊕ Nat
        | [] => .inl e
        | d :: rest =>
          if limit < e * 10 + d then .inr (taken + 1) else go (e * 10 + d) (taken + 1) rest
      match go 0 0 ds with
      | .inl e =>
        let bound (x : Int) : Int := max (-0x80000000) (min x limit)
        after.float negative significand (bound (if minus then start - e else start + e))
      | .inr taken =>
        if significand ≠ 0 ∧ !minus then (s.skipBytes taken).fail .numberOutOfRange
        else .ok (.float ⟨negative, 0, Binary64.minExponent⟩, after)

/-- The digits after the point of a number and what follows them. -/
def fractionPart (s : Source) (negative : Bool) (significand : Nat) (start : Int) :
    Except Failure (JsonNumber × Source) :=
  let (ds, after) := s.digits
  if ds.isEmpty then
    if s.rest.isEmpty then s.failAhead .endInValue else s.failAhead .invalidNumber
  else
    let (significand, taken) := accumulate significand 0 ds
    let exponent := start - taken
    match after.rest with
    | 'e' :: _ | 'E' :: _ => after.tail.exponentPart negative significand exponent
    | _ => after.float negative significand exponent

def afterWhole (s : Source) (negative : Bool) (significand : Nat) (dropped : Nat) :
    Except Failure (JsonNumber × Source) :=
  match s.rest with
  | '.' :: _ => s.tail.fractionPart negative significand dropped
  | 'e' :: _ | 'E' :: _ => s.tail.exponentPart negative significand dropped
  | _ =>
    if 0 < dropped then s.float negative significand dropped
    else if !negative then .ok (.whole significand, s)
    else if significand = 0 ∨ 0x8000000000000000 < significand then s.float true significand 0
    else .ok (.whole (-(significand : Int)), s)

/-- A number, of which a minus sign has been read if it is negative. -/
def number (s : Source) (negative : Bool) : Except Failure (JsonNumber × Source) :=
  match s.rest with
  | [] => s.fail .endInValue
  | '0' :: t =>
    match t with
    | c :: _ =>
      if c.isDigit then s.tail.failAhead .invalidNumber else s.tail.afterWhole negative 0 0
    | [] => s.tail.afterWhole negative 0 0
  | c :: _ =>
    if c.isDigit then
      let (ds, after) := s.digits
      let (significand, taken) := accumulate 0 0 ds
      after.afterWhole negative significand (ds.length - taken)
    else (s.skipBytes 1).fail .invalidNumber

def maxDepth : Nat := 128

/-- Whether another item of a list follows; `first` before the first one. -/
def hasItem (s : Source) (first : Bool) : Except Failure (Bool × Source) :=
  let s := s.skipSpace
  match s.rest with
  | [] => s.failAhead .endInList
  | ']' :: _ => .ok (false, s)
  | c :: _ =>
    if first then .ok (true, s)
    else if c = ',' then
      let s := s.tail.skipSpace
      match s.rest with
      | [] => s.failAhead .endInValue
      | ']' :: _ => s.failAhead .trailingComma
      | _ => .ok (true, s)
    else s.failAhead .expectedListCommaOrEnd

/-- Whether another member of an object follows; if so, the source is at its name. -/
def hasMember (s : Source) (first : Bool) : Except Failure (Bool × Source) :=
  let s := s.skipSpace
  match s.rest with
  | [] => s.failAhead .endInObject
  | '\x7d' :: _ => .ok (false, s)
  | c :: _ =>
    if first then if c = '\x22' then .ok (true, s) else s.failAhead .keyMustBeString
    else if c = ',' then
      let s := s.tail.skipSpace
      match s.rest with
      | [] => s.failAhead .endInValue
      | '\x22' :: _ => .ok (true, s)
      | '\x7d' :: _ => s.failAhead .trailingComma
      | _ => s.failAhead .keyMustBeString
    else s.failAhead .expectedObjectCommaOrEnd

def listEnd (s : Source) : Except Failure Source :=
  let s := s.skipSpace
  match s.rest with
  | [] => s.failAhead .endInList
  | ']' :: _ => .ok s.tail
  | ',' :: _ =>
    let s := s.tail.skipSpace
    match s.rest with
    | ']' :: _ => s.failAhead .trailingComma
    | _ => s.failAhead .trailingCharacters
  | _ => s.failAhead .trailingCharacters

def objectEnd (s : Source) : Except Failure Source :=
  let s := s.skipSpace
  match s.rest with
  | [] => s.failAhead .endInObject
  | '\x7d' :: _ => .ok s.tail
  | ',' :: _ => s.failAhead .trailingComma
  | _ => s.failAhead .trailingCharacters

def colon (s : Source) : Except Failure Source :=
  let s := s.skipSpace
  match s.rest with
  | [] => s.failAhead .endInObject
  | ':' :: _ => .ok s.tail
  | _ => s.failAhead .expectedColon

mutual

/-- A value; `depth` is how much deeper values may be nested. -/
def value : (fuel depth : Nat) → Source → Except Failure (Json × Source)
  | 0, _, s => s.fail .endInValue
  | fuel + 1, depth, s =>
    let s := s.skipSpace
    match s.rest with
    | [] => s.failAhead .endInValue
    | 'n' :: _ => do .ok (.null, ← s.tail.word ['u', 'l', 'l'])
    | 't' :: _ => do .ok (.bool true, ← s.tail.word ['r', 'u', 'e'])
    | 'f' :: _ => do .ok (.bool false, ← s.tail.word ['a', 'l', 's', 'e'])
    | '-' :: _ => do
      let (n, s) ← s.tail.number true
      .ok (.number n, s)
    | '\x22' :: _ => do
      let (t, s) ← s.tail.string false
      .ok (.string t, s)
    | '[' :: _ =>
      if depth ≤ 1 then s.failAhead .recursionLimit
      else do
        let (items, s) ← valuesFrom fuel (depth - 1) true s.tail
        .ok (.array items, ← s.listEnd)
    | '\x7b' :: _ =>
      if depth ≤ 1 then s.failAhead .recursionLimit
      else do
        let (members, s) ← membersFrom fuel (depth - 1) true s.tail
        .ok (ofMembers members, ← s.objectEnd)
    | c :: _ =>
      if c.isDigit then do
        let (n, s) ← s.number false
        .ok (.number n, s)
      else s.failAhead .expectedValue

def valuesFrom : (fuel depth : Nat) → (first : Bool) → Source → Except Failure (List Json × Source)
  | 0, _, _, s => s.fail .endInList
  | fuel + 1, depth, first, s => do
    let (more, s) ← s.hasItem first
    if more then
      let (j, s) ← value fuel depth s
      let (js, s) ← valuesFrom fuel depth false s
      .ok (j :: js, s)
    else .ok ([], s)

def membersFrom :
    (fuel depth : Nat) → (first : Bool) → Source → Except Failure (List (Text × Json) × Source)
  | 0, _, _, s => s.fail .endInObject
  | fuel + 1, depth, first, s => do
    let (more, s) ← s.hasMember first
    if more then
      let (name, s) ← s.tail.string false
      let s ← s.colon
      let (j, s) ← value fuel depth s
      let (ms, s) ← membersFrom fuel depth false s
      .ok ((name, j) :: ms, s)
    else .ok ([], s)

end

def fuel (s : Source) : Nat := 2 * s.rest.length + 4

/-- Nothing but space is left. -/
def finish (s : Source) : Except Failure Unit :=
  let s := s.skipSpace
  if s.rest.isEmpty then .ok () else s.failAhead .trailingCharacters

end Source

def Failure.message (f : Failure) : Text :=
  let p := f.position.getD f.source.here
  f.complaint.message ++ " at line ".toList ++ Text.decimal p.line ++ " column ".toList ++
    Text.decimal p.column

def read (t : Text) : Except Failure Json := do
  let s : Source := { rest := t }
  let (j, s) ← s.value s.fuel Source.maxDepth
  s.finish
  .ok j

end TemplateMarkup.Json
