import TemplateMarkup.Text.Search

/-!
The class names that a stylesheet defines: those in the selectors of its rules. Comments and the heads
of at-rules are left out.
-/
namespace TemplateMarkup.Stylesheet

def isNameChar (c : Char) : Bool := c.isAlphanum || c == '_' || c == '-'

/-- The class name at the start of a text, with its escapes resolved, and what follows it. -/
def name : Text → Text × Text
  | [] => ([], [])
  | '\\' :: c :: t =>
    if c = '\n' then ([], '\\' :: c :: t)
    else
      let (n, rest) := name t
      (c :: n, rest)
  | c :: t =>
    if isNameChar c then
      let (n, rest) := name t
      (c :: n, rest)
    else ([], c :: t)

def namesFrom : (fuel : Nat) → Text → List Text
  | 0, _ => []
  | _, [] => []
  | fuel + 1, c :: t =>
    if c = '.' then
      match name t with
      | ([], _) => namesFrom fuel t
      | (n, rest) => n :: namesFrom fuel rest
    else namesFrom fuel t

/-- The class names that the head of a rule defines; a name does not start with a digit. -/
def namesOfHead (head : Text) : List Text :=
  let head := Text.trim head
  if Text.startsWith head "@" then []
  else (namesFrom (head.length + 1) head).filter fun n => !(n.head?.any Char.isDigit)

/-- The heads of all rules: the texts before opening braces, from the last brace or semicolon on.
`run` has been read since then, in reverse. -/
def headsFrom (run : Text) : Text → List Text
  | [] => []
  | c :: t =>
    if c = '\x7b' then run.reverse :: headsFrom [] t
    else if c = '\x7d' ∨ c = ';' then headsFrom [] t
    else headsFrom (c :: run) t

/-- The class names that a stylesheet defines, ascending. -/
def definedClasses (css : Text) : List Text :=
  Text.sortDistinct ((headsFrom [] (Text.removeDelimited "/*" "*/" css)).flatMap namesOfHead)

end TemplateMarkup.Stylesheet
