import TemplateMarkup.Text.Basic

/-!
Paths are texts whose parts slashes separate. Empty parts and dots count for nothing, except a dot at
the start.
-/
namespace TemplateMarkup.Path

inductive Part
  | root
  | current
  | parent
  | name (n : Text)
deriving DecidableEq, Repr

def pieces : Text → List Text
  | [] => [[]]
  | c :: t =>
    match pieces t with
    | [] => [[c]]
    | p :: ps => if c = '/' then [] :: p :: ps else (c :: p) :: ps

def isAbsolute (p : Text) : Bool := p.head? == some '/'

/-- The part that a piece stands for, if it counts. -/
def partOf? (piece : Text) : Option Part :=
  if piece = [] ∨ piece = ['.'] then none
  else if piece = ['.', '.'] then some .parent
  else some (.name piece)

def parts (p : Text) : List Part :=
  let ps := pieces p
  let start : List Part :=
    if isAbsolute p then [.root] else if ps.head? = some ['.'] then [.current] else []
  start ++ ps.filterMap partOf?

def Part.text : Part → Text
  | root => ['/']
  | current => ['.']
  | parent => ['.', '.']
  | name n => n

def ofParts : List Part → Text
  | .root :: rest => '/' :: Text.joinWith ['/'] (rest.map Part.text)
  | ps => Text.joinWith ['/'] (ps.map Part.text)

def Part.rank : Part → Nat
  | root => 0
  | current => 1
  | parent => 2
  | name _ => 3

def Part.lt (a b : Part) : Bool :=
  match a, b with
  | name m, name n => Text.lt m n
  | _, _ => a.rank < b.rank

def ltParts : List Part → List Part → Bool
  | _, [] => false
  | [], _ :: _ => true
  | a :: as, b :: bs => a.lt b || (a == b && ltParts as bs)

/-- The order of paths: part by part. -/
def le (p q : Text) : Bool := !ltParts (parts q) (parts p)

def sort (paths : List Text) : List Text := paths.mergeSort le

/-- The last part, if it is a name. -/
def fileName? (p : Text) : Option Text :=
  match (parts p).getLast? with
  | some (.name n) => some n
  | _ => none

/-- A file name before and after its last dot; a dot at the start does not count. -/
def splitName (n : Text) : Text × Option Text :=
  let tail := (n.reverse.takeWhile (· != '.')).reverse
  let lead := n.take (n.length - tail.length - 1)
  if n.contains '.' && !lead.isEmpty then (lead, some tail) else (n, none)

def stem (p : Text) : Text := ((fileName? p).map fun n => (splitName n).1).getD []

def extension? (p : Text) : Option Text := (fileName? p).bind fun n => (splitName n).2

def parent? (p : Text) : Option Text :=
  match (parts p).reverse with
  | [] => none
  | .root :: _ => none
  | _ :: rest => some (ofParts rest.reverse)

/-- A path below another one; an absolute path stands for itself. -/
def join (p q : Text) : Text :=
  if isAbsolute q || p.isEmpty then q
  else if p.getLast? = some '/' then p ++ q
  else p ++ '/' :: q

/-- What remains of a list after the start it shares with another one, if it starts with that. -/
def dropParts? : List Part → List Part → Option (List Part)
  | ps, [] => some ps
  | [], _ :: _ => none
  | p :: ps, q :: qs => if p = q then dropParts? ps qs else none

/-- A path as seen from another one that it lies below; other paths stay as they are. -/
def relativeTo (root p : Text) : Text :=
  match dropParts? (parts p) (parts root) with
  | some rest => ofParts rest
  | none => p

def ancestorsFrom : (fuel : Nat) → Text → List Text
  | 0, p => [p]
  | fuel + 1, p =>
    match parent? p with
    | some q => p :: ancestorsFrom fuel q
    | none => [p]

def ancestors (p : Text) : List Text := ancestorsFrom (p.length + 1) p

def companionStylesheet (template : Text) : Text := template ++ ".css".toList

def codeBehind (template : Text) : Text := template ++ ".cs".toList

end TemplateMarkup.Path
