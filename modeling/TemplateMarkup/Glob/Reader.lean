import TemplateMarkup.Glob.Basic

/-!
Reading globs.
-/
namespace TemplateMarkup.Glob

inductive Fault
  | unclosedClass
  | invalidRange (low high : Char)
  | unopenedGroup
  | unclosedGroup
  | danglingEscape
deriving DecidableEq, Repr

def Fault.message : Fault → Text
  | unclosedClass => "unclosed character class; missing ']'"
  | invalidRange low high =>
    "invalid range; '".toList ++ [low] ++ "' > '".toList ++ [high] ++ ['\x27']
  | unopenedGroup =>
    "unopened alternate group; missing '\x7b' (maybe escape '\x7d' with '[\x7d]'?)"
  | unclosedGroup =>
    "unclosed alternate group; missing '\x7d' (maybe escape '\x7b' with '[\x7b]'?)"
  | danglingEscape => "dangling '\\'"

/-- What has been read. Tokens and branches stand last first. -/
structure Reading where
  /-- The branch that is being read. -/
  branch : List Token := []
  /-- For each open group, innermost first: the branch it stands in, and its branches before this. -/
  groups : List (List Token × List (List Token)) := []
  last : Option Char := none

namespace Reading

def push (r : Reading) (t : Token) : Reading := { r with branch := t :: r.branch }

def inGroup (r : Reading) : Bool := !r.groups.isEmpty

def openGroup (r : Reading) : Reading := { r with branch := [], groups := (r.branch, []) :: r.groups }

def nextBranch (r : Reading) : Reading :=
  match r.groups with
  | [] => r.push (.char ',')
  | (outer, done) :: groups =>
    { r with branch := [], groups := (outer, r.branch.reverse :: done) :: groups }

def closeGroup (r : Reading) : Except Fault Reading :=
  match r.groups with
  | [] => .error .unopenedGroup
  | (outer, done) :: groups =>
    .ok { r with branch := .either (r.branch.reverse :: done).reverse :: outer, groups }

/-- Puts the token for directories in place of the slash before it. -/
def replaceSlash (r : Reading) (t : Token) : Reading :=
  match r.branch with
  | .leadingDirs :: _ | .inside :: _ => r
  | branch => { r with branch := t :: branch.tail }

/-- Two stars have been read, after the character `before`; the rest of the text may start with a slash
that belongs to them. -/
def stars (r : Reading) (before : Option Char) (rest : Text) : Reading × Text :=
  let two := (((r.push .star).push .star), rest)
  if r.branch.isEmpty then
    match rest with
    | [] => (r.push .leadingDirs, [])
    | c :: rest => if c = '/' then ({ r.push .leadingDirs with last := some '/' }, rest) else two
  else if before != some '/' && !(r.inGroup && (before == some ',' || before == some '\x7b')) then
    two
  else
    match rest with
    | [] => (r.replaceSlash .inside, [])
    | c :: rest' =>
      if r.inGroup && (c = ',' || c = '\x7d') then (r.replaceSlash .inside, rest)
      else if c = '/' then ({ r.replaceSlash .innerDirs with last := some '/' }, rest')
      else two

end Reading

/-- The ranges of a class up to its end, last first, and the text after it. A dash joins the characters
around it, unless it is the first or the last one. -/
def classFrom (first joins : Bool) (ranges : List (Char × Char)) :
    Text → Except Fault (List (Char × Char) × Text)
  | [] => .error .unclosedClass
  | c :: rest =>
    if c = ']' && !first then .ok (if joins then ('-', '-') :: ranges else ranges, rest)
    else if c = '-' && !first && !joins then classFrom false true ranges rest
    else
      match joins, ranges with
      | true, (low, _) :: ranges =>
        if c < low then .error (.invalidRange low c)
        else classFrom false false ((low, c) :: ranges) rest
      | _, _ => classFrom false false ((c, c) :: ranges) rest

/-- The class at the start of a text, after its opening bracket. -/
def readClass (t : Text) : Except Fault (Token × Text) :=
  let negated := t.head? == some '!' || t.head? == some '^'
  match classFrom true false [] (if negated then t.tail else t) with
  | .ok (ranges, rest) => .ok (.oneOf negated ranges.reverse, rest)
  | .error fault => .error fault

def readFrom : (fuel : Nat) → Reading → Text → Except Fault Reading
  | 0, r, _ | _, r, [] => .ok r
  | fuel + 1, r, c :: rest =>
    let before := r.last
    let r := { r with last := some c }
    if c = '?' then readFrom fuel (r.push .any) rest
    else if c = '*' then
      match rest with
      | '*' :: rest =>
        let (r, rest) := r.stars before rest
        readFrom fuel r rest
      | rest => readFrom fuel (r.push .star) rest
    else if c = '[' then
      match readClass rest with
      | .ok (t, rest) => readFrom fuel { r.push t with last := some ']' } rest
      | .error fault => .error fault
    else if c = '\x7b' then readFrom fuel r.openGroup rest
    else if c = '\x7d' then
      match r.closeGroup with
      | .ok r => readFrom fuel r rest
      | .error fault => .error fault
    else if c = ',' then readFrom fuel r.nextBranch rest
    else if c = '\\' then
      match rest with
      | [] => .error .danglingEscape
      | d :: rest => readFrom fuel { r.push (.char d) with last := some d } rest
    else readFrom fuel (r.push (.char c)) rest

def read (t : Text) : Except Fault Glob :=
  match readFrom t.length {} t with
  | .ok r => if r.inGroup then .error .unclosedGroup else .ok ⟨r.branch.reverse⟩
  | .error fault => .error fault

end TemplateMarkup.Glob
