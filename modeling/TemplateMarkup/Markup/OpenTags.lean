import TemplateMarkup.Text.Basic
import TemplateMarkup.Markup.State
import TemplateMarkup.Markup.Tag

/-!
Tokens that depend on the tags that are open: names in tags, ends that the next tag implies, raw
text, and comments. The open tags are listed innermost first.
-/
namespace TemplateMarkup.Markup

/-- Which of these tokens a state asks for. Comments are looked for everywhere, except that raw text
takes all characters. -/
inductive Expectation
  | anything
  | impliedEnd
  | selfClose
  | startName
  | endName
  | rawText
  | comment
deriving DecidableEq, Repr

def State.expectation (s : State) : Expectation :=
  if s = .recovery then .anything
  else if s.accepts .rawText then .rawText
  else if s.accepts .impliedEnd then .impliedEnd
  else if s.accepts .selfClose then .selfClose
  else if s.accepts .startName then .startName
  else if s.accepts .endName then .endName
  else .comment

namespace Expectation

def impliesEnd (e : Expectation) : Bool := e == anything || e == impliedEnd

def closesSelf (e : Expectation) : Bool := e == anything || e == selfClose

end Expectation

structure Scan where
  token : Terminal
  start : Cursor
  stop : Cursor
  tags : List Tag

namespace Scan

/-- A character other than the null character, which counts as the end of the text. -/
def peek (c : Cursor) : Option Char :=
  match c.rest.head? with
  | some '\x00' => none
  | other => other

/-- The characters of tag names: ASCII letters and digits, hyphen and colon. -/
def isTagNameChar (c : Char) : Bool := c.isAlphanum || c == '-' || c == ':'

/-- The tag name at a place, in capitals, and the place after it. -/
def tagName (c : Cursor) : Text × Cursor :=
  let name := c.rest.takeWhile isTagNameChar
  (name.map Char.toUpper, c.skip name.length)

/-- How many characters of raw text come before the end tag of its element. `missing` is the part of
the mark that the characters just read have left open; when they fail it, the search starts again
after them. -/
def rawLength (mark : Text) : (missing : Text) → (seen kept : Nat) → Text → Nat
  | _, _, kept, [] => kept
  | missing, seen, kept, c :: t =>
    if c = '\x00' then kept
    else if missing.head? = some c.toUpper then
      match missing.tail with
      | [] => kept
      | left => rawLength mark left (seen + 1) kept t
    else rawLength mark mark (seen + 1) (seen + 1) t

def rawText (tags : List Tag) (c : Cursor) : Option Scan :=
  match tags with
  | [] => none
  | tag :: _ =>
    let mark : Text := if tag.isNamed ["SCRIPT"] then "</SCRIPT".toList else "</STYLE".toList
    some ⟨.rawText, c, c.skip (rawLength mark mark 0 0 c.rest), tags⟩

/-- How many characters a comment has after `<!--`: it ends with the first `>` that at least two
hyphens precede. -/
def commentLength : (hyphens seen : Nat) → Text → Option Nat
  | _, _, [] => none
  | hyphens, seen, c :: t =>
    if c = '\x00' then none
    else if c = '-' then commentLength (hyphens + 1) (seen + 1) t
    else if c = '>' ∧ 2 ≤ hyphens then some (seen + 1)
    else commentLength 0 (seen + 1) t

/-- The comment whose `<!` starts at the place. -/
def comment (tags : List Tag) (c : Cursor) : Option Scan :=
  match c.rest with
  | '<' :: '!' :: '-' :: '-' :: t =>
    (commentLength 0 0 t).map fun n => ⟨.comment, c, c.skip (n + 4), tags⟩
  | _ => none

/-- The end of the innermost element, implied by what stands at `next`, which is the place after `<`
or the end of the text. The token itself is empty and stands at `c`. -/
def impliedEnd (tags : List Tag) (c next : Cursor) : Option Scan :=
  let close (_ : Unit) : Option Scan := some ⟨.impliedEnd, c, c, tags.tail⟩
  if peek next = some '/' then
    let (name, after) := tagName (next.skip 1)
    if name.isEmpty && !after.atEnd then none
    else
      let tag := Tag.ofName name
      if tags.head? = some tag then none
      else if tags.any (Tag.sameSort tag) then close ()
      else none
  else
    match tags with
    | [] => none
    | parent :: _ =>
      if parent.isVoid then close ()
      else
        let (name, after) := tagName next
        if name.isEmpty && !after.atEnd then none
        else if !parent.canContain (Tag.ofName name) || (parent.endsWithText && after.atEnd) then
          close ()
        else none

def startName (tags : List Tag) (c : Cursor) : Option Scan :=
  let (name, after) := tagName c
  if name.isEmpty then none
  else
    let tag := Tag.ofName name
    let token : Terminal :=
      if tag.isNamed ["SCRIPT"] then .scriptName
      else if tag.isNamed ["STYLE"] then .styleName
      else .startName
    some ⟨token, c, after, tag :: tags⟩

def endName (tags : List Tag) (c : Cursor) : Option Scan :=
  let (name, after) := tagName c
  if name.isEmpty then none
  else if tags.head? = some (Tag.ofName name) then some ⟨.endName, c, after, tags.tail⟩
  else some ⟨.strayEndName, c, after, tags⟩

/-- `/>` closes the innermost element. Where none is open it counts as a name. -/
def selfClose (tags : List Tag) (c : Cursor) : Option Scan :=
  match c.rest with
  | '/' :: '>' :: _ =>
    match tags with
    | [] => some ⟨.startName, c, c.skip 2, []⟩
    | _ :: outer => some ⟨.selfClose, c, c.skip 2, outer⟩
  | _ => none

/-- The token at a place, if it is one of those that a state asks for. -/
def read (e : Expectation) (tags : List Tag) (place : Cursor) : Option Scan :=
  if e = .rawText then rawText tags place
  else
    let c := place.skipWhile isMarkupBlank
    match peek c with
    | some '<' =>
      let next := c.skip 1
      if peek next = some '!' then comment tags c
      else if e.impliesEnd then impliedEnd tags c next
      else none
    | none => if e.impliesEnd then impliedEnd tags c c else none
    | some '/' => if e.closesSelf then selfClose tags c else none
    | some _ =>
      match e with
      | .startName => startName tags c
      | .endName => endName tags c
      | _ => none

end Scan

end TemplateMarkup.Markup
