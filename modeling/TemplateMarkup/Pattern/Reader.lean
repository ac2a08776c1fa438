import TemplateMarkup.Pattern.Basic
import TemplateMarkup.Pattern.Property

/-!
Reading regular expressions. A text that is none, or that uses look-around or back references, gives
no pattern. Which repetitions are lazy is dropped.
-/
namespace TemplateMarkup.Pattern

structure Flags where
  ignoreCase : Bool := false
  multiLine : Bool := false
  dotAll : Bool := false
  swapGreed : Bool := false
  unicode : Bool := true
  returns : Bool := false
  freeSpacing : Bool := false

/-- What is still to be read, and the names of groups seen so far. -/
structure Input where
  rest : Text
  names : List Text := []

/-- In free spacing, blanks and comments do not count. -/
def skipFree (flags : Flags) (t : Text) : Text :=
  if flags.freeSpacing then go (t.length + 1) t else t
where
  go : Nat → Text → Text
    | 0, t => t
    | fuel + 1, t =>
      match t.dropWhile isBlank with
      | '#' :: rest => go fuel (rest.dropWhile (· != '\n'))
      | rest => rest

/-- What follows the first character, without what does not count; nothing at the end. -/
def advance? (flags : Flags) (t : Text) : Option Text :=
  match skipFree flags t.tail with
  | [] => none
  | rest => some rest

/-- What an escape or a plain character stands for. -/
inductive Atom
  | literal (c : Char) (byteEscape : Bool)
  | set (s : CharSet)
  | look (l : Look)

def isMeta (c : Char) : Bool :=
  ['\\', '.', '+', '*', '?', '(', ')', '|', '[', ']', '\x7b', '\x7d', '^', '$', '#', '&', '-',
    '~'].contains c

/-- Characters that stand for themselves after a backslash. -/
def isEscapable (c : Char) : Bool :=
  isMeta c || (c.toNat < 128 && !c.isAlphanum && c != '<' && c != '>')

def hexValue? (c : Char) : Option Nat :=
  if c.isDigit then some (c.toNat - 48)
  else if 'a' ≤ c ∧ c ≤ 'f' then some (c.toNat - 87)
  else if 'A' ≤ c ∧ c ≤ 'F' then some (c.toNat - 55)
  else none

/-- The character with a number, if there is one. -/
def charOf? (n : Nat) : Option Char := if n.isValidChar then some (Char.ofNat n) else none

def fixedHex (flags : Flags) : (count value : Nat) → Text → Option (Nat × Text)
  | 0, value, t => some (value, t)
  | count + 1, value, t =>
    match t with
    | [] => none
    | c :: rest =>
      (hexValue? c).bind fun d =>
        fixedHex flags count (16 * value + d) (if count = 0 then rest else skipFree flags rest)

def bracedHex (flags : Flags) : (fuel value count : Nat) → Text → Option (Nat × Text)
  | 0, _, _, _ => none
  | fuel + 1, value, count, t =>
    match skipFree flags t with
    | [] => none
    | '\x7d' :: rest => if count = 0 ∨ 0x100000000 ≤ value then none else some (value, rest)
    | c :: rest => (hexValue? c).bind fun d => bracedHex flags fuel (16 * value + d) (count + 1) rest

/-- A character by its number, after `x`, `u` or `U`. -/
def hexEscape (flags : Flags) (kind : Char) (t : Text) : Option (Atom × Text) := do
  match skipFree flags t with
  | '\x7b' :: rest =>
    let (n, rest) ← bracedHex flags (rest.length + 1) 0 0 rest
    return (.literal (← charOf? n) false, rest)
  | rest =>
    let count := if kind = 'x' then 2 else if kind = 'u' then 4 else 8
    let (n, rest) ← fixedHex flags count 0 rest
    return (.literal (← charOf? n) (kind == 'x'), rest)

/-- The text before the first occurrence of a mark and the text after it. -/
def cutAt? (mark : Text) (t : Text) : Option (Text × Text) :=
  match Text.stripLead? mark t with
  | some rest => some ([], rest)
  | none =>
    match t with
    | [] => none
    | c :: t => (cutAt? mark t).map fun (before, after) => (c :: before, after)

def propertySet? (body : Text) : Option CharSet :=
  match cutAt? "!=" body with
  | some (name, value) => (CharSet.ofPair? name value).map .complement
  | none =>
    match cutAt? ":" body with
    | some (name, value) => CharSet.ofPair? name value
    | none =>
      match cutAt? "=" body with
      | some (name, value) => CharSet.ofPair? name value
      | none => CharSet.ofName? body

/-- The set in the modes given: up to case, and negated. -/
def foldAndNegate (flags : Flags) (negated : Bool) (s : CharSet) : CharSet :=
  let s := if flags.ignoreCase then if flags.unicode then .folded s else .foldedAscii s else s
  if negated then .complement s else s

/-- Outside of Unicode mode a set may hold characters of ASCII only. -/
def admit? (flags : Flags) (s : CharSet) : Option CharSet :=
  if flags.unicode || s.isAscii then some s else none

def propertyBody (flags : Flags) : (fuel : Nat) → Text → Option (Text × Text)
  | 0, _ => none
  | fuel + 1, t =>
    match skipFree flags t with
    | [] => none
    | '\x7d' :: rest => some ([], rest)
    | c :: rest => (propertyBody flags fuel rest).map fun (body, after) => (c :: body, after)

/-- A set by a property, after `p` or `P`. -/
def property (flags : Flags) (negated : Bool) (t : Text) : Option (Atom × Text) := do
  let (body, rest) ← match skipFree flags t with
    | [] => none
    | '\x7b' :: rest => propertyBody flags (rest.length + 1) rest
    | c :: rest => if c = '\\' then none else some ([c], skipFree flags rest)
  if flags.unicode then
    return (.set (foldAndNegate flags negated (← propertySet? body)), rest)
  else none

def classEscape (flags : Flags) (c : Char) : Option CharSet :=
  let base : Option CharSet := match c.toLower with
    | 'd' => some (if flags.unicode then .digit else .asciiDigit)
    | 's' => some (if flags.unicode then .blank else .asciiBlank)
    | 'w' => some (if flags.unicode then .word else .asciiWord)
    | _ => none
  base.bind fun s => admit? flags (if c.isUpper then .complement s else s)

/-- The name in braces after `\b`, which picks one side of a word. -/
def boundaryName (flags : Flags) : (fuel : Nat) → Text → Option (Text × Text)
  | 0, _ => none
  | fuel + 1, t =>
    match t with
    | '\x7d' :: rest => some ([], rest)
    | c :: rest =>
      if c.isAlpha || c == '-' then
        (boundaryName flags fuel (skipFree flags rest)).map fun (name, after) => (c :: name, after)
      else none
    | [] => none

def boundary (flags : Flags) (t : Text) : Option (Atom × Text) := do
  let ascii := !flags.unicode
  let plain : Atom × Text := (.look (.wordBoundary ascii), t)
  match t with
  | '\x7b' :: _ =>
    let body ← advance? flags t
    if body.head?.any fun c => c.isAlpha || c == '-' then
      let (name, rest) ← boundaryName flags (body.length + 1) body
      match String.ofList name with
      | "start" => return (.look (.wordStart ascii), rest)
      | "end" => return (.look (.wordEnd ascii), rest)
      | "start-half" => return (.look (.wordStartHalf ascii), rest)
      | "end-half" => return (.look (.wordEndHalf ascii), rest)
      | _ => none
    else return plain
  | _ => return plain

def escape (flags : Flags) (t : Text) : Option (Atom × Text) :=
  match t with
  | [] => none
  | c :: rest =>
    let literal (d : Char) : Option (Atom × Text) := some (.literal d false, rest)
    if c = 'x' ∨ c = 'u' ∨ c = 'U' then hexEscape flags c rest
    else if c = 'p' ∨ c = 'P' then property flags (c == 'P') rest
    else if ['d', 's', 'w', 'D', 'S', 'W'].contains c then
      (classEscape flags c).map fun s => (.set s, rest)
    else if isEscapable c then literal c
    else
      match c with
      | 'a' => literal '\x07'
      | 'f' => literal '\x0c'
      | 't' => literal '\t'
      | 'n' => literal '\n'
      | 'r' => literal '\r'
      | 'v' => literal '\x0b'
      | 'A' => some (.look .textStart, rest)
      | 'z' => some (.look .textEnd, rest)
      | 'b' => boundary flags rest
      | 'B' => some (.look (.noWordBoundary !flags.unicode), rest)
      | '<' => some (.look (.wordStart !flags.unicode), rest)
      | '>' => some (.look (.wordEnd !flags.unicode), rest)
      | _ => none

def literalAllowed (flags : Flags) (c : Char) (byteEscape : Bool) : Bool :=
  flags.unicode || !byteEscape || c.toNat < 128

/-- The sets that have names between colons. -/
def asciiClasses : List (String × List (Nat × Nat)) :=
  [("alnum", [(0x30, 0x39), (0x41, 0x5A), (0x61, 0x7A)]), ("alpha", [(0x41, 0x5A), (0x61, 0x7A)]),
    ("ascii", [(0, 0x7F)]), ("blank", [(0x09, 0x09), (0x20, 0x20)]),
    ("cntrl", [(0, 0x1F), (0x7F, 0x7F)]), ("digit", [(0x30, 0x39)]), ("graph", [(0x21, 0x7E)]),
    ("lower", [(0x61, 0x7A)]), ("print", [(0x20, 0x7E)]),
    ("punct", [(0x21, 0x2F), (0x3A, 0x40), (0x5B, 0x60), (0x7B, 0x7E)]),
    ("space", [(0x09, 0x0D), (0x20, 0x20)]), ("upper", [(0x41, 0x5A)]),
    ("word", [(0x30, 0x39), (0x41, 0x5A), (0x5F, 0x5F), (0x61, 0x7A)]),
    ("xdigit", [(0x30, 0x39), (0x41, 0x46), (0x61, 0x66)])]

/-- A set named between colons, after the bracket that opens it. -/
def asciiClass? (t : Text) : Option (CharSet × Text) := do
  let t ← Text.stripLead? ":".toList t
  let (negated, t) := match t with
    | '^' :: rest => (true, rest)
    | _ => (false, t)
  let name := t.takeWhile (· != ':')
  let rest ← Text.stripLead? ":]".toList (t.dropWhile (· != ':'))
  let (_, ranges) ← asciiClasses.find? fun c => c.1.toList == name
  return (if negated then .complement (.ranges ranges) else .ranges ranges, rest)

/-- An end of a range, or the only character of a set. -/
def classAtom (flags : Flags) (t : Text) : Option (Atom × Text) :=
  match t with
  | '\\' :: rest => escape flags rest
  | c :: rest => some (.literal c false, rest)
  | [] => none

/-- A character of a set; outside of Unicode mode it is one of ASCII. -/
def classChar? (flags : Flags) : Atom → Option Char
  | .literal c _ => if flags.unicode || c.toNat < 128 then some c else none
  | _ => none

def atomSet? (flags : Flags) : Atom → Option CharSet
  | .set s => some s
  | atom => (classChar? flags atom).map .single

def classRange (flags : Flags) (t : Text) : Option (CharSet × Text) := do
  let (first, rest) ← classAtom flags t
  let rest := skipFree flags rest
  match rest with
  | [] => none
  | '-' :: after =>
    match skipFree flags after with
    | ']' :: _ | '-' :: _ => return (← atomSet? flags first, rest)
    | [] => none
    | next =>
      let (last, rest) ← classAtom flags next
      let a ← classChar? flags first
      let b ← classChar? flags last
      if a.toNat ≤ b.toNat then return (.ranges [(a.toNat, b.toNat)], rest) else none
  | _ => return (← atomSet? flags first, rest)

inductive SetOp
  | inter
  | diff
  | symmetric

/-- Two sets joined by an operator; both are taken up to case first. -/
def SetOp.apply (flags : Flags) (op : SetOp) (a b : CharSet) : CharSet :=
  let a := foldAndNegate flags false a
  let b := foldAndNegate flags false b
  match op with
  | inter => .inter a b
  | diff => .diff a b
  | symmetric => .symmetric a b

/-- What has been read of a set: the operand before the last operator, and the items after it. -/
structure ClassState where
  pending : Option (SetOp × CharSet) := none
  items : CharSet := .none

def ClassState.value (flags : Flags) (s : ClassState) : CharSet :=
  match s.pending with
  | some (op, left) => op.apply flags left s.items
  | none => s.items

def ClassState.add (s : ClassState) (item : CharSet) : ClassState :=
  { s with items := .union s.items item }

def ClassState.operator (flags : Flags) (s : ClassState) (op : SetOp) : ClassState :=
  { pending := some (op, s.value flags) }

def leadingHyphens (flags : Flags) : (fuel : Nat) → CharSet → Text → Option (CharSet × Text)
  | 0, _, _ => none
  | fuel + 1, items, t =>
    match t with
    | '-' :: _ => (advance? flags t).bind (leadingHyphens flags fuel (.union items (.single '-')))
    | _ => some (items, t)

/-- The start of a set: a negation, and characters that are special elsewhere. The text starts with
the opening bracket. -/
def classStart (flags : Flags) (t : Text) : Option (Bool × CharSet × Text) := do
  let t ← advance? flags t
  let (negated, t) ← match t with
    | '^' :: _ => (advance? flags t).map fun t => (true, t)
    | _ => some (false, t)
  match t with
  | ']' :: _ => return (negated, .single ']', ← advance? flags t)
  | _ =>
    let (items, t) ← leadingHyphens flags (t.length + 1) .none t
    return (negated, items, t)

def classRest (flags : Flags) : (fuel : Nat) → (negated : Bool) → ClassState → Text →
    Option (CharSet × Text)
  | 0, _, _, _ => none
  | fuel + 1, negated, s, t =>
    let t := skipFree flags t
    match t with
    | [] => none
    | ']' :: rest =>
      (admit? flags (foldAndNegate flags negated (s.value flags))).map fun set => (set, rest)
    | '[' :: rest =>
      match asciiClass? rest with
      | some (set, rest) => classRest flags fuel negated (s.add set) rest
      | none => do
        let (inner, items, rest) ← classStart flags t
        let (set, rest) ← classRest flags fuel inner { items } rest
        classRest flags fuel negated (s.add set) rest
    | '&' :: '&' :: rest => classRest flags fuel negated (s.operator flags .inter) rest
    | '-' :: '-' :: rest => classRest flags fuel negated (s.operator flags .diff) rest
    | '~' :: '~' :: rest => classRest flags fuel negated (s.operator flags .symmetric) rest
    | _ => do
      let (set, rest) ← classRange flags t
      classRest flags fuel negated (s.add set) rest

/-- A set in brackets; the text starts with the opening one. -/
def bracketClass (flags : Flags) (t : Text) : Option (CharSet × Text) := do
  let (negated, items, rest) ← classStart flags t
  classRest flags (t.length + 1) negated { items } rest

def count? (flags : Flags) (t : Text) : Option Nat × Text :=
  go (t.length + 1) none (t.dropWhile isBlank)
where
  go : Nat → Option Nat → Text → Option Nat × Text
    | 0, value, t => (value, t)
    | fuel + 1, value, t =>
      match t with
      | c :: rest =>
        if c.isDigit then go fuel (some (10 * value.getD 0 + (c.toNat - 48))) (skipFree flags rest)
        else (value, t.dropWhile isBlank)
      | [] => (value, [])

/-- The bounds of a counted repetition; the text starts with its brace. -/
def bounds (flags : Flags) (t : Text) : Option (Nat × Option Nat × Text) := do
  let body ← advance? flags t
  let (least, rest) := count? flags body
  let (least, most, rest) ← match rest with
    | ',' :: _ =>
      match ← advance? flags rest with
      | '\x7d' :: after => some (← least, none, '\x7d' :: after)
      | after =>
        let (most, rest) := count? flags after
        some (← least, some (← most), rest)
    | _ => some (← least, some (← least), rest)
  match rest with
  | '\x7d' :: _ =>
    if 0x100000000 ≤ least || most.any fun m => 0x100000000 ≤ m || m < least then none
    else
      match skipFree flags rest.tail with
      | '?' :: rest => return (least, most, rest)
      | rest => return (least, most, rest)
  | _ => none

/-- A flag that is switched, and the flags of the group seen so far. -/
def setFlag (flags : Flags) (c : Char) (on : Bool) : Option Flags :=
  match c with
  | 'i' => some { flags with ignoreCase := on }
  | 'm' => some { flags with multiLine := on }
  | 's' => some { flags with dotAll := on }
  | 'U' => some { flags with swapGreed := on }
  | 'u' => some { flags with unicode := on }
  | 'R' => some { flags with returns := on }
  | 'x' => some { flags with freeSpacing := on }
  | _ => none

/-- The flags of a group up to the colon or parenthesis that ends them; `seen` holds the signs read
before, none twice. -/
def flagsOf : (fuel : Nat) → Flags → (seen : Text) → Text → Option (Flags × Text × Text)
  | 0, _, _, _ => none
  | fuel + 1, flags, seen, t =>
    match t with
    | [] => none
    | c :: rest =>
      if c = ':' ∨ c = ')' then if seen.head? = some '-' then none else some (flags, seen, t)
      else if seen.contains c then none
      else if c = '-' then flagsOf fuel flags ('-' :: seen) rest
      else
        (setFlag flags c (!seen.contains '-')).bind fun flags => flagsOf fuel flags (c :: seen) rest

def isNameStart (c : Char) : Bool := c == '_' || isLetter c

def isNamePart (c : Char) : Bool := ['_', '.', '[', ']'].contains c || isLetterOrNumber c

def groupName (input : Input) (t : Text) : Option Input :=
  match t.takeWhile (· != '>'), t.dropWhile (· != '>') with
  | c :: name, _ :: rest =>
    if isNameStart c && name.all isNamePart && !input.names.contains (c :: name) then
      some { rest, names := (c :: name) :: input.names }
    else none
  | _, _ => none

inductive GroupStart
  /-- Flags that hold from here on. -/
  | switch (flags : Flags)
  /-- A group with flags of its own. -/
  | group (flags : Flags)

def groupStart (flags : Flags) (input : Input) : Option (GroupStart × Input) := do
  let t := skipFree flags input.rest
  let starts (lead : String) : Bool := Text.startsWith t lead.toList
  if starts "?=" || starts "?!" || starts "?<=" || starts "?<!" then none
  else
    match Text.stripLead? "?P<".toList t <|> Text.stripLead? "?<".toList t with
    | some rest => return (.group flags, ← groupName input rest)
    | none =>
      match t with
      | '?' :: rest =>
        let (inner, seen, rest) ← flagsOf (rest.length + 1) flags [] rest
        match rest with
        | ':' :: rest => return (.group inner, { input with rest })
        | _ :: rest => if seen.isEmpty then none else return (.switch inner, { input with rest })
        | [] => none
      | _ => return (.group flags, { input with rest := t })

def literalPattern (flags : Flags) (c : Char) : Pattern :=
  .chars (foldAndNegate flags false (.single c))

def atomPattern? (flags : Flags) : Atom → Option Pattern
  | .literal c byteEscape =>
    if literalAllowed flags c byteEscape then some (literalPattern flags c) else none
  | .set s => some (.chars s)
  | .look l => some (.look l)

def dot? (flags : Flags) : Option Pattern :=
  if !flags.unicode then none
  else if flags.dotAll then some (.chars .any)
  else if flags.returns then some (.chars (.complement (.ranges [(0x0A, 0x0A), (0x0D, 0x0D)])))
  else some (.chars (.complement (.ranges [(0x0A, 0x0A)])))

/-- What is repeated nowhere: a character, a set or an assertion. -/
def primitive (flags : Flags) (t : Text) : Option (Pattern × Text) :=
  match t with
  | '\\' :: rest => do
    let (atom, rest) ← escape flags rest
    return (← atomPattern? flags atom, rest)
  | '.' :: rest => (dot? flags).map fun p => (p, rest)
  | '^' :: rest =>
    some (.look (if flags.multiLine then .lineStart flags.returns else .textStart), rest)
  | '$' :: rest =>
    some (.look (if flags.multiLine then .lineEnd flags.returns else .textEnd), rest)
  | '[' :: _ => (bracketClass flags t).map fun (s, rest) => (.chars s, rest)
  | c :: rest => some (literalPattern flags c, rest)
  | [] => none

/-- Items in reverse as one pattern; switches of flags count for nothing. -/
def sequenceOf (items : List (Option Pattern)) : Pattern :=
  items.foldl (fun p item => match item with
    | some q => match p with
      | .empty => q
      | _ => .concat q p
    | none => p) .empty

/-- The last item repeated; there must be one that is a pattern. -/
def repeatLast (items : List (Option Pattern)) (min : Nat) (max : Option Nat) :
    Option (List (Option Pattern)) :=
  match items with
  | some p :: rest => some (some (.repeated p min max) :: rest)
  | _ => none

/-- What follows a repetition sign, without the mark that makes it lazy. -/
def dropLazy : Text → Text
  | '?' :: rest => rest
  | t => t

mutual

def alternatives : (fuel : Nat) → Flags → Input → Option (Pattern × Input)
  | 0, _, _ => none
  | fuel + 1, flags, input => do
    let (p, flags, input) ← sequence fuel flags [] input
    match input.rest with
    | '|' :: rest =>
      let (q, input) ← alternatives fuel flags { input with rest }
      return (.either p q, input)
    | _ => return (p, input)

/-- Items up to the end of the alternative; those read already are in reverse. -/
def sequence : (fuel : Nat) → Flags → (items : List (Option Pattern)) → Input →
    Option (Pattern × Flags × Input)
  | 0, _, _, _ => none
  | fuel + 1, flags, items, input =>
    let t := skipFree flags input.rest
    match t with
    | [] | '|' :: _ | ')' :: _ => some (sequenceOf items, flags, { input with rest := t })
    | '(' :: rest => do
      match ← groupStart flags { input with rest } with
      | (.switch flags, input) => sequence fuel flags (none :: items) input
      | (.group inner, input) =>
        let (p, input) ← alternatives fuel inner input
        match input.rest with
        | ')' :: rest => sequence fuel flags (some p :: items) { input with rest }
        | _ => none
    | '?' :: rest => do
      sequence fuel flags (← repeatLast items 0 (some 1)) { input with rest := dropLazy rest }
    | '*' :: rest => do
      sequence fuel flags (← repeatLast items 0 none) { input with rest := dropLazy rest }
    | '+' :: rest => do
      sequence fuel flags (← repeatLast items 1 none) { input with rest := dropLazy rest }
    | '\x7b' :: _ => do
      let (least, most, rest) ← bounds flags t
      sequence fuel flags (← repeatLast items least most) { input with rest }
    | _ => do
      let (p, rest) ← primitive flags t
      sequence fuel flags (some p :: items) { input with rest }

end

def read? (t : Text) : Option Pattern := do
  let (p, input) ← alternatives (2 * t.length + 4) {} { rest := t }
  if input.rest.isEmpty then return p else none

end TemplateMarkup.Pattern
