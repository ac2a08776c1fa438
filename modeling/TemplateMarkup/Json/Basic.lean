import TemplateMarkup.Json.Binary64

/-!
JSON values. The members of an object are in ascending order of their names, each name once.
-/
namespace TemplateMarkup

/-- A whole number in the range of 64-bit words, or a floating-point number. -/
inductive JsonNumber
  | whole (n : Int)
  | float (x : Binary64)
deriving DecidableEq, Repr

inductive Json
  | null
  | bool (b : Bool)
  | number (n : JsonNumber)
  | string (t : Text)
  | array (items : List Json)
  | object (members : List (Text × Json))
deriving Repr

namespace Json

def ofNat (n : Nat) : Json := number (.whole n)

/-- The object with the given members, later ones winning. -/
def ofMembers (members : List (Text × Json)) : Json :=
  object (Text.ofNamed members)

/-- The object with the given members; names are string literals. -/
def record (members : List (String × Json)) : Json :=
  ofMembers (members.map fun m => (m.1.toList, m.2))

def strings (ts : List Text) : Json := array (ts.map string)

def optional {α : Type} (f : α → Json) : Option α → Json
  | some a => f a
  | none => null

def get? (j : Json) (name : Text) : Option Json :=
  match j with
  | object members => (members.find? fun m => m.1 == name).map (·.2)
  | _ => none

def asText? : Json → Option Text
  | string t => some t
  | _ => none

def asBool? : Json → Option Bool
  | bool b => some b
  | _ => none

def asNat? : Json → Option Nat
  | number (.whole (.ofNat n)) => some n
  | _ => none

def asArray? : Json → Option (List Json)
  | array items => some items
  | _ => none

def asObject? : Json → Option (List (Text × Json))
  | object members => some members
  | _ => none

def isNull : Json → Bool
  | null => true
  | _ => false

def hexDigit (n : Nat) : Char := "0123456789abcdef".toList.getD n '0'

def escape (c : Char) : Text :=
  if c = '\x22' then ['\\', '\x22']
  else if c = '\\' then ['\\', '\\']
  else if c = '\x08' then ['\\', 'b']
  else if c = '\x0c' then ['\\', 'f']
  else if c = '\n' then ['\\', 'n']
  else if c = '\r' then ['\\', 'r']
  else if c = '\t' then ['\\', 't']
  else if c.toNat < 32 then ['\\', 'u', '0', '0', hexDigit (c.toNat / 16), hexDigit (c.toNat % 16)]
  else [c]

def quote (t : Text) : Text := '\x22' :: t.flatMap escape ++ ['\x22']

def wholeText (n : Int) : Text :=
  match n with
  | .ofNat k => Text.decimal k
  | .negSucc k => '-' :: Text.decimal (k + 1)

def numberText : JsonNumber → Text
  | .whole n => wholeText n
  | .float x => x.text

mutual

def compact : Json → Text
  | null => "null".toList
  | bool b => if b then "true".toList else "false".toList
  | number n => numberText n
  | string t => quote t
  | array items => '[' :: compactItems items ++ [']']
  | object members => '\x7b' :: compactMembers members ++ ['\x7d']

def compactItems : List Json → Text
  | [] => []
  | [j] => compact j
  | j :: k :: rest => compact j ++ ',' :: compactItems (k :: rest)

def compactMembers : List (Text × Json) → Text
  | [] => []
  | [(n, j)] => quote n ++ ':' :: compact j
  | (n, j) :: m :: rest => quote n ++ ':' :: compact j ++ ',' :: compactMembers (m :: rest)

end

end Json

end TemplateMarkup
