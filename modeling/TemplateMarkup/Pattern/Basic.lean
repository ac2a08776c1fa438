import TemplateMarkup.Pattern.CharSet
import TemplateMarkup.Text.Basic

/-!
Patterns: regular expressions with assertions. A pattern leads from places in a text to the places
where a match that starts there can end. Which of several matches is preferred does not matter here.
-/
namespace TemplateMarkup

/-- What must hold between two characters. -/
inductive Look
  | textStart
  | textEnd
  /-- The start of a line; carriage returns may end lines too. -/
  | lineStart (returns : Bool)
  | lineEnd (returns : Bool)
  | wordBoundary (ascii : Bool)
  | noWordBoundary (ascii : Bool)
  | wordStart (ascii : Bool)
  | wordEnd (ascii : Bool)
  | wordStartHalf (ascii : Bool)
  | wordEndHalf (ascii : Bool)
deriving DecidableEq, Repr

inductive Pattern
  | empty
  | chars (set : CharSet)
  | look (l : Look)
  | concat (p q : Pattern)
  | either (p q : Pattern)
  /-- At least `min` times, and at most `max` times if that is given. -/
  | repeated (p : Pattern) (min : Nat) (max : Option Nat)

namespace Look

def isWord (ascii : Bool) (c : Option Char) : Bool :=
  c.any fun c => if ascii then CharSet.asciiWord.contains c.toNat else isWordChar c

/-- The assertion holds between two characters; there is none at the ends of the text. -/
def holdsBetween (before after : Option Char) : Look → Bool
  | textStart => before.isNone
  | textEnd => after.isNone
  | lineStart false => before.isNone || before == some '\n'
  | lineStart true =>
    before.isNone || before == some '\n' || (before == some '\r' && after != some '\n')
  | lineEnd false => after.isNone || after == some '\n'
  | lineEnd true =>
    after.isNone || after == some '\r' || (after == some '\n' && before != some '\r')
  | wordBoundary a => isWord a before != isWord a after
  | noWordBoundary a => isWord a before == isWord a after
  | wordStart a => !isWord a before && isWord a after
  | wordEnd a => isWord a before && !isWord a after
  | wordStartHalf a => !isWord a before
  | wordEndHalf a => !isWord a after

/-- The assertion holds before the character with the given number. -/
def holds (t : Text) (l : Look) (i : Nat) : Bool :=
  holdsBetween (if i = 0 then none else t[i - 1]?) t[i]? l

end Look

namespace Pattern

/-- Puts a place among ascending places. -/
def insertPlace (i : Nat) : List Nat → List Nat
  | [] => [i]
  | j :: js => if i < j then i :: j :: js else if i = j then j :: js else j :: insertPlace i js

def join (a b : List Nat) : List Nat := b.foldl (fun places i => insertPlace i places) a

/-- A step on places made a number of times; once it changes nothing, more of it does not either. -/
def iterate (step : List Nat → List Nat) : Nat → List Nat → List Nat
  | 0, places => places
  | n + 1, places =>
    let next := step places
    if next = places then places else iterate step n next

/-- The places that a step reaches when it is made up to a number of times. -/
def reach (step : List Nat → List Nat) : Nat → List Nat → List Nat
  | 0, places => places
  | n + 1, places =>
    let next := join places (step places)
    if next = places then places else reach step n next

/-- The places where matches end that start at the given places; places count characters. -/
def ends (t : Text) : Pattern → List Nat → List Nat
  | empty, places => places
  | chars set, places => places.filterMap fun i =>
      (t[i]?).bind fun c => if set.contains c.toNat then some (i + 1) else none
  | look l, places => places.filter (l.holds t)
  | concat p q, places => ends t q (ends t p places)
  | either p q, places => join (ends t p places) (ends t q places)
  | repeated p min max, places =>
    let least := iterate (ends t p) min places
    match max with
    | some m => reach (ends t p) (m - min) least
    | none => reach (ends t p) (t.length + 1) least

def occursIn (p : Pattern) (t : Text) : Bool := !(p.ends t (List.range (t.length + 1))).isEmpty

end Pattern

end TemplateMarkup
