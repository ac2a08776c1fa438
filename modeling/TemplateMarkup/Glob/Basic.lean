import TemplateMarkup.Pattern.Basic
import TemplateMarkup.Text.Bytes

/-!
Globs: patterns of paths. A glob matches the bytes of a path, and its stars do not stop at slashes.
-/
namespace TemplateMarkup.Glob

inductive Token
  | char (c : Char)
  /-- One byte. -/
  | any
  /-- Any number of bytes. -/
  | star
  /-- The directories at the start of a path, or none. -/
  | leadingDirs
  /-- A slash, with directories after it or none. -/
  | innerDirs
  /-- A slash and all that follows. -/
  | inside
  | oneOf (negated : Bool) (ranges : List (Char × Char))
  | either (branches : List (List Token))

end Glob

structure Glob where
  tokens : List Glob.Token

namespace Glob

def byteText (t : Text) : Text := (Text.encode t).map Char.ofNat

def byte (n : Nat) : Pattern := .chars (.ranges [(n, n)])

def slash : Pattern := byte 0x2F

def anything : Pattern := .repeated (.chars .any) 0 none

/-- The bytes that a range of characters spells, where the dash joins the last byte of one character
and the first byte of the other. -/
def rangeBytes (r : Char × Char) : List (Nat × Nat) :=
  let single (n : Nat) : Nat × Nat := (n, n)
  if r.1 = r.2 then (Text.encodeChar r.1).map single
  else
    let low := Text.encodeChar r.1
    let high := Text.encodeChar r.2
    low.dropLast.map single ++ [(low.getLastD 0, high.headD 0)] ++ high.tail.map single

def classSet (negated : Bool) (ranges : List (Char × Char)) : CharSet :=
  let set := CharSet.ranges (ranges.flatMap rangeBytes)
  if negated then .complement set else set

/-- One pattern after another; nothing stands for the empty one. -/
def andThen : Option Pattern → Option Pattern → Option Pattern
  | some p, some q => some (.concat p q)
  | some p, none => some p
  | none, q => q

def sequence (ps : List Pattern) : Option Pattern := ps.foldr (fun p q => andThen (some p) q) none

def choice : List Pattern → Option Pattern
  | [] => none
  | p :: ps =>
    match choice ps with
    | some q => some (.either p q)
    | none => some p

mutual

/-- What a token matches; nothing if that is the empty text. Empty branches do not count. -/
def Token.pattern? : Token → Option Pattern
  | .char c => sequence ((Text.encodeChar c).map byte)
  | .any => some (.chars .any)
  | .star => some anything
  | .leadingDirs => some (.either (.repeated slash 0 (some 1)) (.concat anything slash))
  | .innerDirs => some (.either slash (.concat slash (.concat anything slash)))
  | .inside => some (.concat slash anything)
  | .oneOf negated ranges => some (.chars (classSet negated ranges))
  | .either branches => choice (branchPatterns branches)

def tokensPattern? : List Token → Option Pattern
  | [] => none
  | t :: ts => andThen t.pattern? (tokensPattern? ts)

def branchPatterns : List (List Token) → List Pattern
  | [] => []
  | b :: bs =>
    match tokensPattern? b with
    | some p => p :: branchPatterns bs
    | none => branchPatterns bs

end

def Token.isDirs : Token → Bool
  | leadingDirs => true
  | _ => false

def Token.isStar : Token → Bool
  | star => true
  | _ => false

def Token.char? : Token → Option Char
  | char c => some c
  | _ => none

def isAll (g : Glob) : Bool :=
  match g.tokens with
  | [.leadingDirs] => true
  | _ => false

/-- The glob ends in a dot and looks only at the last name of a path, or at the extension of that. -/
def endsName (g : Glob) : Bool :=
  let rest := if (g.tokens.head?.map Token.isDirs).getD false then g.tokens.tail else g.tokens
  let starred := (rest.head?.map Token.isStar).getD false
  let rest' := if starred then rest.tail else rest
  (g.tokens.getLast?.bind Token.char?) == some '.' &&
    match rest'.mapM Token.char? with
    | some cs =>
      if starred then cs == ['.'] else rest'.length < g.tokens.length && !cs.contains '/'
    | none => true

/-- The glob matches a path. A path that ends in a dot has no last name. -/
def isMatch (g : Glob) (path : Text) : Bool :=
  if g.isAll then true
  else if path.getLast? == some '.' && g.endsName then false
  else
    let t := byteText path
    match tokensPattern? g.tokens with
    | some p => (p.ends t [0]).contains t.length
    | none => t.isEmpty

end TemplateMarkup.Glob
