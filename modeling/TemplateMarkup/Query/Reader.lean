import TemplateMarkup.Query.Basic
import TemplateMarkup.Text.Basic
import TemplateMarkup.Text.Letter

/-!
Reading path queries: `/a/b`, `//a`, `*`, with the predicates `[2]`, `[last()]`, `[@name]`,
`[@name='v']`, `[@name!='v']`, `[text()='v']`, `[contains(@name,'v')]`, `[contains(text(),'v')]` and
`[starts-with(@name,'v')]`; conditions are joined by `and`.
-/
namespace TemplateMarkup.Query

/-- Why a text is no query; offsets count bytes. -/
inductive Fault
  | empty
  | expectedSlash (offset : Nat)
  | expectedName (offset : Nat)
  | expected (what : Text) (offset : Nat)
  | invalidPosition (digits : Text)
  | zeroPosition
  | unsupportedPredicate (offset : Nat)
  | textStart
  | expectedAttribute (offset : Nat)
  | expectedQuote (offset : Nat)
  | unterminated
deriving DecidableEq, Repr

namespace Fault

def atOffset (what : Text) (offset : Nat) : Text := what ++ " at offset ".toList ++ Text.decimal offset

def message : Fault → Text
  | empty => "query is empty"
  | expectedSlash offset => atOffset "expected '/'" offset
  | expectedName offset => atOffset "expected element name" offset
  | expected what offset => atOffset ("expected '".toList ++ what ++ "'".toList) offset
  | invalidPosition digits => "invalid position '".toList ++ digits ++ "'".toList
  | zeroPosition => "positions start at 1"
  | unsupportedPredicate offset => atOffset "unsupported predicate" offset
  | textStart => "starts-with() on text() is not supported"
  | expectedAttribute offset => atOffset "expected attribute name" offset
  | expectedQuote offset => atOffset "expected quoted string" offset
  | unterminated => "unterminated string literal"

end Fault

/-- What follows a fixed text, if it stands here. -/
def eat? (c : Cursor) (lead : Text) : Option Cursor :=
  if Text.startsWith c.rest lead then some (c.skip lead.length) else none

def expect (c : Cursor) (lead : Text) : Except Fault Cursor :=
  match eat? c lead with
  | some c => .ok c
  | none => .error (.expected lead c.offset)

def skipBlanks (c : Cursor) : Cursor := c.skipWhile isBlank

def isTagChar (c : Char) : Bool := isLetterOrNumber c || ['-', '_', ':', '.'].contains c

def isAttributeChar (c : Char) : Bool :=
  !isBlank c && !(['=', '!', '[', ']', '(', ')', ',', '\x27', '\x22', '/'].contains c)

/-- The longest run of characters that satisfy `p`, and what follows it. -/
def takeRun (c : Cursor) (p : Char → Bool) : Text × Cursor := (c.rest.takeWhile p, c.skipWhile p)

def attributeName (c : Cursor) : Except Fault (Text × Cursor) :=
  let (name, after) := takeRun c isAttributeChar
  if name.isEmpty then .error (.expectedAttribute c.offset) else .ok (name, after)

def literal (c : Cursor) : Except Fault (Text × Cursor) :=
  match c.rest with
  | q :: _ =>
    if q = '\x27' ∨ q = '\x22' then
      let (value, after) := takeRun (c.skip 1) (· != q)
      if after.atEnd then .error .unterminated else .ok (value, after.skip 1)
    else .error (.expectedQuote c.offset)
  | [] => .error (.expectedQuote c.offset)

/-- A condition on an attribute, after its `@`. -/
def attributeCondition (c : Cursor) : Except Fault (Condition × Cursor) := do
  let (name, c) ← attributeName c
  let c := skipBlanks c
  match eat? c "!=" with
  | some c =>
    let (value, c) ← literal (skipBlanks c)
    return (.attributeDiffers name value, c)
  | none =>
    match eat? c "=" with
    | some c =>
      let (value, c) ← literal (skipBlanks c)
      return (.attributeEquals name value, c)
    | none => return (.hasAttribute name, c)

/-- The arguments of a function: an attribute or the text, and a literal. -/
def arguments (c : Cursor) : Except Fault (Option Text × Text × Cursor) := do
  let c := skipBlanks c
  let (subject, c) ← match eat? c "text()" with
    | some c => pure (none, c)
    | none => do
      let c ← expect c "@"
      let (name, c) ← attributeName c
      pure (some name, c)
  let c ← expect (skipBlanks c) ","
  let (value, c) ← literal (skipBlanks c)
  let c ← expect (skipBlanks c) ")"
  return (subject, value, c)

def condition (c : Cursor) : Except Fault (Condition × Cursor) :=
  match eat? c "@" with
  | some c => attributeCondition c
  | none =>
    match eat? c "text()" with
    | some c => do
      let c ← expect (skipBlanks c) "="
      let (value, c) ← literal (skipBlanks c)
      return (.textEquals value, c)
    | none =>
      match eat? c "contains(" with
      | some c => do
        let (subject, value, c) ← arguments c
        match subject with
        | some name => return (.attributeContains name value, c)
        | none => return (.textContains value, c)
      | none =>
        match eat? c "starts-with(" with
        | some c => do
          let (subject, value, c) ← arguments c
          match subject with
          | some name => return (.attributeStartsWith name value, c)
          | none => .error .textStart
        | none => .error (.unsupportedPredicate c.offset)

/-- The conditions that `and` joins to those read already. -/
def moreConditions : (fuel : Nat) → Cursor → Except Fault (List Condition × Cursor)
  | 0, c => .ok ([], c)
  | fuel + 1, c => do
    let c := skipBlanks c
    match eat? c "and" with
    | none => return ([], c)
    | some c =>
      let (first, c) ← condition (skipBlanks c)
      let (others, c) ← moreConditions fuel c
      return (first :: others, c)

def maxPosition : Nat := 0xFFFFFFFFFFFFFFFF

def numberOf (digits : Text) : Nat := digits.foldl (fun n c => 10 * n + (c.toNat - 48)) 0

def predicate (c : Cursor) : Except Fault (Predicate × Cursor) :=
  let (digits, after) := takeRun c Char.isDigit
  if !digits.isEmpty then
    let n := numberOf digits
    if maxPosition < n then .error (.invalidPosition digits)
    else if n = 0 then .error .zeroPosition
    else .ok (.position n, after)
  else
    match eat? c "last()" with
    | some c => .ok (.last, c)
    | none => do
      let (first, c) ← condition c
      let (others, c) ← moreConditions (c.rest.length + 1) c
      return (.all (first :: others), c)

def predicates : (fuel : Nat) → Cursor → Except Fault (List Predicate × Cursor)
  | 0, c => .ok ([], c)
  | fuel + 1, c =>
    match eat? c "[" with
    | none => .ok ([], c)
    | some c => do
      let (first, c) ← predicate (skipBlanks c)
      let c ← expect (skipBlanks c) "]"
      let (others, c) ← predicates fuel c
      return (first :: others, c)

/-- The axis of a step; only the first step may leave it out. -/
def axis (c : Cursor) (first : Bool) : Except Fault (Axis × Cursor) :=
  match eat? c "//" with
  | some c => .ok (.descendantOrSelf, c)
  | none =>
    match eat? c "/" with
    | some c => .ok (.child, c)
    | none => if first then .ok (.child, c) else .error (.expectedSlash c.offset)

def nodeTest (c : Cursor) : Except Fault (NodeTest × Cursor) :=
  match eat? c "*" with
  | some c => .ok (.any, c)
  | none =>
    let (name, after) := takeRun c isTagChar
    if name.isEmpty then .error (.expectedName c.offset) else .ok (.name name, after)

def step (c : Cursor) (first : Bool) : Except Fault (Step × Cursor) := do
  let (axis, c) ← axis c first
  let (test, c) ← nodeTest c
  let (predicates, c) ← predicates (c.rest.length + 1) c
  return (⟨axis, test, predicates⟩, c)

def stepsFrom : (fuel : Nat) → (first : Bool) → Cursor → Except Fault (List Step)
  | 0, _, _ => .ok []
  | fuel + 1, first, c =>
    if c.atEnd then .ok []
    else do
      let (s, c) ← step c first
      let others ← stepsFrom fuel false c
      return s :: others

/-- The query that a text spells; blanks around it do not count. -/
def read (text : Text) : Except Fault Query :=
  let t := text.trim
  if t.isEmpty then .error .empty
  else do
    let steps ← stepsFrom (t.length + 1) true (Cursor.start t)
    return ⟨t, steps⟩

end TemplateMarkup.Query
