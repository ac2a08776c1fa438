import TemplateMarkup.Text.Search

/-!
String literals of embedded code. The code is read only as far as needed to keep the ends of literals
apart: comments, characters in single quotes, and strings in their regular, verbatim, interpolated and
raw forms.
-/
namespace TemplateMarkup.Literal

/-- The body of a regular string, after its quote, and what follows the closing quote. It ends on its
line. -/
def regular? : Text → Option (Text × Text)
  | [] => none
  | '\\' :: [] => none
  | '\\' :: c :: t => (regular? t).map fun (body, after) => ('\\' :: c :: body, after)
  | '\x22' :: t => some ([], t)
  | '\n' :: _ => none
  | c :: t => (regular? t).map fun (body, after) => (c :: body, after)

/-- The body of a verbatim string; two quotes stand for one. -/
def verbatim? : Text → Option (Text × Text)
  | [] => none
  | '\x22' :: '\x22' :: t =>
    (verbatim? t).map fun (body, after) => ('\x22' :: '\x22' :: body, after)
  | '\x22' :: t => some ([], t)
  | c :: t => (verbatim? t).map fun (body, after) => (c :: body, after)

/-- The body of an interpolated string. Strings inside of its holes do not end it; `depth` holes are
open. -/
def interpolatedFrom? (verbatim : Bool) : (fuel depth : Nat) → Text → Option (Text × Text)
  | 0, _, _ => none
  | _, _, [] => none
  | fuel + 1, depth, c :: t =>
    let go (lead : Text) (depth : Nat) (rest : Text) : Option (Text × Text) :=
      (interpolatedFrom? verbatim fuel depth rest).map fun (body, after) => (lead ++ body, after)
    if c = '\x7b' then
      match depth, t with
      | 0, '\x7b' :: rest => go ['\x7b', '\x7b'] 0 rest
      | _, _ => go [c] (depth + 1) t
    else if c = '\x7d' then
      match depth, t with
      | 0, '\x7d' :: rest => go ['\x7d', '\x7d'] 0 rest
      | 0, _ => go [c] 0 t
      | d + 1, _ => go [c] d t
    else if c = '\x22' then
      if 0 < depth then
        (regular? t).bind fun (inner, rest) => go ('\x22' :: inner ++ ['\x22']) depth rest
      else
        match verbatim, t with
        | true, '\x22' :: rest => go ['\x22', '\x22'] depth rest
        | _, _ => some ([], t)
    else if c = '\\' && !verbatim then
      match t with
      | [] => none
      | d :: rest => go [c, d] depth rest
    else if c = '\n' && !verbatim && depth == 0 then none
    else go [c] depth t

def interpolated? (verbatim : Bool) (t : Text) : Option (Text × Text) :=
  interpolatedFrom? verbatim (t.length + 1) 0 t

/-- What follows the quote that ends an escaped character. The quote is looked for in a few bytes, the
first of which belongs to the escape; `used` of them have been passed. -/
def escapedEnd? (used : Nat) : Text → Option Text
  | [] => none
  | c :: t =>
    if 8 ≤ used then none
    else if c = '\x27' ∧ 0 < used then some t
    else escapedEnd? (used + c.utf8Size) t

inductive Piece
  | literal (body rest : Text)
  | other (rest : Text)
  /-- A quote and a backslash end the code, where a character would have to follow. -/
  | cut
deriving DecidableEq, Repr

/-- A character in single quotes, after the first of them; if it does not look like one, the quote
alone is passed over. -/
def quotedChar (t : Text) : Piece :=
  match t with
  | '\\' :: [] => .cut
  | '\\' :: rest => .other ((escapedEnd? 0 rest).getD t)
  | c :: '\x27' :: rest => if c.utf8Size = 1 then .other rest else .other t
  | _ => .other t

def ofBody (body? : Option (Text × Text)) (otherwise : Text) : Piece :=
  match body? with
  | some (body, rest) => .literal body rest
  | none => .other otherwise

/-- What follows the next occurrence of a part, or nothing. -/
def after (part t : Text) : Text := ((Text.splitAt? part t).map (·.2)).getD []

def next (c : Char) (t : Text) : Piece :=
  match c, t with
  | '/', '/' :: rest => .other (rest.dropWhile (· != '\n'))
  | '/', '*' :: rest => .other (after "*/" rest)
  | '\x27', _ => quotedChar t
  | '\x22', '\x22' :: '\x22' :: rest => .other (after "\"\"\"" rest)
  | '\x22', _ => ofBody (regular? t) t
  | '@', '\x22' :: rest => ofBody (verbatim? rest) rest
  | '$', '\x22' :: rest => ofBody (interpolated? false rest) rest
  | '@', '$' :: '\x22' :: rest => ofBody (interpolated? true rest) rest
  | '$', '@' :: '\x22' :: rest => ofBody (interpolated? true rest) rest
  | _, _ => .other t

def allFrom : (fuel : Nat) → Text → Option (List Text)
  | 0, _ => some []
  | _, [] => some []
  | fuel + 1, c :: t =>
    match next c t with
    | .literal body rest => (allFrom fuel rest).map (body :: ·)
    | .other rest => allFrom fuel rest
    | .cut => none

/-- The bodies of the string literals of code, in order; nothing if the code is cut off after a quote
and a backslash. Literals that do not close are left out. -/
def all? (code : Text) : Option (List Text) := allFrom (code.length + 1) code

end TemplateMarkup.Literal
