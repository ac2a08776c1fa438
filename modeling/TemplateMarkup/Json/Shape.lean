import TemplateMarkup.Json.Source
import TemplateMarkup.Text.Printable

/-!
Shapes of JSON values. A value is read against a shape, either from a value or straight from a text;
the result holds the fields of the shape and nothing else. A record may also be given as the list of
its fields.
-/
namespace TemplateMarkup.Json

/-- What happens where a field is absent. -/
inductive Absence
  /-- It is an error. -/
  | refused
  /-- The field may be left out of an object but not of a list. -/
  | nullable
  /-- The field has a default. -/
  | defaulted
deriving DecidableEq, Repr

inductive Shape
  | text
  | path
  | boolean
  | any
  /-- A text that a check accepts; the check gives the complaint otherwise. -/
  | checked (check : Text → Option Text)
  | optional (shape : Shape)
  | list (items : Shape)
  | dictionary (values : Shape)
  | record (name : Text) (fields : List (Text × Absence × Shape))

def describe : Json → Text
  | null => "null"
  | bool b => "boolean `".toList ++ (if b then "true".toList else "false".toList) ++ ['`']
  | number (.whole n) => "integer `".toList ++ wholeText n ++ ['`']
  | number (.float x) => "floating point `".toList ++ x.text ++ ['`']
  | string t => "string ".toList ++ Text.quoted t
  | array _ => "sequence"
  | object _ => "map"

namespace Shape

def expected : Shape → Text
  | text | checked _ => "a string"
  | path => "path string"
  | boolean => "a boolean"
  | any => "any valid JSON value"
  | optional s => s.expected
  | list _ => "a sequence"
  | dictionary _ => "a map"
  | record name _ => "struct ".toList ++ name

def recordWith (name : Text) (count : Nat) : Text :=
  "struct ".toList ++ name ++ " with ".toList ++ Text.decimal count ++
    (if count = 1 then " element".toList else " elements".toList)

def mismatch (s : Shape) (found : Json) : Complaint := .invalidType (describe found) s.expected

def check (test : Text → Option Text) (t : Text) : Except Complaint Json :=
  match test t with
  | some m => .error (.refused m)
  | none => .ok (.string t)

/-- The first field that is neither given nor may be left out of an object. -/
def missing? (given : List (Text × Json)) : List (Text × Absence × Shape) → Option Text
  | [] => none
  | (name, absence, _) :: fields =>
    if absence = .refused ∧ !(given.any fun g => g.1 == name) then some name
    else missing? given fields

def complete (given : List (Text × Json)) (fields : List (Text × Absence × Shape)) :
    Except Complaint Json :=
  match missing? given fields with
  | some name => .error (.missingField name)
  | none => .ok (ofMembers given)

mutual

def ofValue : Shape → Json → Except Complaint Json
  | text, string t => .ok (.string t)
  | path, string t => .ok (.string t)
  | boolean, bool b => .ok (.bool b)
  | any, j => .ok j
  | checked test, string t => check test t
  | optional _, null => .ok .null
  | optional s, j => ofValue s j
  | list s, array items => (items.mapM (ofValue s)).map .array
  | dictionary s, object members =>
    (members.mapM fun m => (ofValue s m.2).map fun v => (m.1, v)).map .object
  | record name fields, array items => do
    let given ← ofItems name fields.length 0 fields items
    if fields.length < items.length then
      .error (.invalidLength items.length "fewer elements in array")
    else .ok (ofMembers given)
  | record _ fields, object members => do
    let given ← members.mapM fun m => ofMember fields m.1 m.2
    complete given.flatten fields
  | s, j => .error (s.mismatch j)

/-- The fields of a record given as a list, from the field with the given index on. -/
def ofItems (name : Text) (count index : Nat) :
    List (Text × Absence × Shape) → List Json → Except Complaint (List (Text × Json))
  | [], _ => .ok []
  | (_, absence, _) :: fields, [] =>
    if absence = .defaulted then ofItems name count (index + 1) fields []
    else .error (.invalidLength index (recordWith name count))
  | (n, _, s) :: fields, j :: items => do
    let v ← ofValue s j
    let others ← ofItems name count (index + 1) fields items
    return (n, v) :: others

/-- The field that a member of an object stands for; an unknown one is dropped. -/
def ofMember : List (Text × Absence × Shape) → Text → Json → Except Complaint (List (Text × Json))
  | [], _, _ => .ok []
  | (n, _, s) :: fields, name, j =>
    if n = name then (ofValue s j).map fun v => [(n, v)] else ofMember fields name j

end

end Shape

namespace Source

/-- A complaint about what has been read, at the place reading has come to. -/
def complain {α : Type} (s : Source) (c : Complaint) : Except Failure α :=
  .error ⟨c, some s.here, s⟩

/-- A complaint that gets its place where the value around it ends. -/
def complainLater {α : Type} (s : Source) (c : Complaint) : Except Failure α := .error ⟨c, none, s⟩

/-- Whatever value stands here does not fit. Simple values are read first, of others the start is
seen. -/
def mismatch {α : Type} (s : Source) (shape : Shape) : Except Failure α :=
  match s.rest with
  | '[' :: _ => s.complain (shape.mismatch (.array []))
  | '\x7b' :: _ => s.complain (shape.mismatch (.object []))
  | _ =>
    match s.value 2 maxDepth with
    | .ok (j, s) => s.complain (shape.mismatch j)
    | .error f => .error f

/-- After a failure inside of a value, its end is still looked for, and a complaint that has no place
yet gets the one where that led. -/
def closing {α : Type} (result : Except Failure (α × Source))
    (close : Source → Except Failure Source) : Except Failure (α × Source) :=
  match result with
  | .ok (a, s) => (close s).map fun s => (a, s)
  | .error f =>
    let s := match close f.source with
      | .ok s => s
      | .error g => g.source
    .error { f with position := some (f.position.getD s.here), source := s }

def skipNumberTail (s : Source) : Except Failure Source :=
  let exponent (s : Source) : Except Failure Source :=
    let s := match s.tail.rest with
      | '+' :: _ | '-' :: _ => s.tail.tail
      | _ => s.tail
    match s.rest with
    | c :: _ => if c.isDigit then .ok s.digits.2 else (s.skipBytes 1).fail .invalidNumber
    | [] => s.fail .invalidNumber
  match s.rest with
  | '.' :: _ =>
    let after := s.tail.digits.2
    if s.tail.digits.1.isEmpty then s.tail.failAhead .invalidNumber
    else
      match after.rest with
      | 'e' :: _ | 'E' :: _ => exponent after
      | _ => .ok after
  | 'e' :: _ | 'E' :: _ => exponent s
  | _ => .ok s

/-- A number that is dropped, whatever its size. -/
def skipNumber (s : Source) : Except Failure Source :=
  match s.rest with
  | '0' :: t =>
    match t with
    | c :: _ => if c.isDigit then s.tail.failAhead .invalidNumber else s.tail.skipNumberTail
    | [] => .ok s.tail
  | c :: _ => if c.isDigit then s.digits.2.skipNumberTail else (s.skipBytes 1).fail .invalidNumber
  | [] => s.fail .invalidNumber

def skipStringFrom : (fuel : Nat) → Source → Except Failure Source
  | 0, s => s.fail .endInString
  | fuel + 1, s =>
    match s.rest with
    | [] => s.fail .endInString
    | c :: _ =>
      if c = '\x22' then .ok s.tail
      else if c = '\\' then do
        let (_, s) ← s.tail.escape true
        skipStringFrom fuel s
      else if c.toNat < 32 then s.fail .controlCharacter
      else skipStringFrom fuel s.tail

def skipString (s : Source) : Except Failure Source := skipStringFrom (s.rest.length + 1) s

mutual

def skipValue : (fuel : Nat) → Source → Except Failure Source
  | 0, s => s.fail .endInValue
  | fuel + 1, s =>
    let s := s.skipSpace
    match s.rest with
    | [] => s.failAhead .endInValue
    | 'n' :: _ => s.tail.word ['u', 'l', 'l']
    | 't' :: _ => s.tail.word ['r', 'u', 'e']
    | 'f' :: _ => s.tail.word ['a', 'l', 's', 'e']
    | '-' :: _ => s.tail.skipNumber
    | '\x22' :: _ => s.tail.skipString
    | '[' :: _ => skipItems fuel true s.tail
    | '\x7b' :: _ => skipMembers fuel true s.tail
    | c :: _ => if c.isDigit then s.skipNumber else s.failAhead .expectedValue

def skipItems : (fuel : Nat) → (first : Bool) → Source → Except Failure Source
  | 0, _, s => s.fail .endInList
  | fuel + 1, first, s =>
    let s := s.skipSpace
    match s.rest with
    | [] => s.failAhead .endInList
    | ']' :: _ => .ok s.tail
    | c :: _ =>
      if first || c = ',' then do
        let s ← skipValue fuel (if first then s else s.tail)
        skipItems fuel false s
      else s.failAhead .expectedListCommaOrEnd

def skipMembers : (fuel : Nat) → (first : Bool) → Source → Except Failure Source
  | 0, _, s => s.fail .endInObject
  | fuel + 1, first, s =>
    let s := s.skipSpace
    match s.rest with
    | [] => s.failAhead .endInObject
    | '\x7d' :: _ => .ok s.tail
    | c :: _ =>
      if first || c = ',' then
        let s := (if first then s else s.tail).skipSpace
        match s.rest with
        | [] => s.failAhead .endInObject
        | '\x22' :: _ => do
          let s ← s.tail.skipString
          let s ← s.colon
          let s ← skipValue fuel s
          skipMembers fuel false s
        | _ => s.failAhead .keyMustBeString
      else s.failAhead .expectedObjectCommaOrEnd

end

def boolean (s : Source) : Except Failure (Json × Source) :=
  match s.rest with
  | 't' :: _ => do return (.bool true, ← s.tail.word ['r', 'u', 'e'])
  | 'f' :: _ => do return (.bool false, ← s.tail.word ['a', 'l', 's', 'e'])
  | _ => s.mismatch .boolean

mutual

/-- The value that stands here, read against a shape. -/
def shaped : (fuel depth : Nat) → Shape → Source → Except Failure (Json × Source)
  | 0, _, _, s => s.fail .endInValue
  | fuel + 1, depth, shape, s =>
    let s := s.skipSpace
    let deeper (go : Except Failure (Json × Source)) : Except Failure (Json × Source) :=
      if depth ≤ 1 then s.failAhead .recursionLimit else go
    match shape, s.rest with
    | .any, _ => s.value s.fuel depth
    | .optional _, 'n' :: _ => do return (.null, ← s.tail.word ['u', 'l', 'l'])
    | .optional inner, _ => shaped fuel depth inner s
    | _, [] => s.failAhead .endInValue
    | .text, '\x22' :: _ | .path, '\x22' :: _ => do
      let (t, s) ← s.tail.string false
      return (.string t, s)
    | .checked test, '\x22' :: _ => do
      let (t, s) ← s.tail.string false
      match Shape.check test t with
      | .ok j => return (j, s)
      | .error c => s.complainLater c
    | .boolean, _ => s.boolean
    | .list items, '[' :: _ =>
      deeper (closing (shapedItems fuel (depth - 1) items true s.tail) listEnd)
    | .dictionary values, '\x7b' :: _ =>
      deeper (closing (shapedValues fuel (depth - 1) values true [] s.tail) objectEnd)
    | .record name fields, '[' :: _ =>
      deeper (closing (shapedFields fuel (depth - 1) name fields.length 0 true [] fields s.tail)
        listEnd)
    | .record _ fields, '\x7b' :: _ =>
      deeper (closing (shapedMembers fuel (depth - 1) fields true [] s.tail) objectEnd)
    | _, _ => s.mismatch shape

def shapedItems : (fuel depth : Nat) → Shape → (first : Bool) → Source →
    Except Failure (Json × Source)
  | 0, _, _, _, s => s.fail .endInList
  | fuel + 1, depth, shape, first, s => do
    let (more, s) ← s.hasItem first
    if more then
      let (j, s) ← shaped fuel depth shape s
      let (others, s) ← shapedItems fuel depth shape false s
      return (.array (j :: (others.asArray?.getD [])), s)
    else return (.array [], s)

def shapedValues : (fuel depth : Nat) → Shape → (first : Bool) → List (Text × Json) → Source →
    Except Failure (Json × Source)
  | 0, _, _, _, _, s => s.fail .endInObject
  | fuel + 1, depth, shape, first, given, s => do
    let (more, s) ← s.hasMember first
    if more then
      let (name, s) ← s.tail.string false
      let s ← s.colon
      let (j, s) ← shaped fuel depth shape s
      shapedValues fuel depth shape false (given ++ [(name, j)]) s
    else return (ofMembers given, s)

/-- The fields of a record given as a list, from the field with the given index on. -/
def shapedFields : (fuel depth : Nat) → (name : Text) → (count index : Nat) → (first : Bool) →
    List (Text × Json) → List (Text × Absence × Shape) → Source → Except Failure (Json × Source)
  | 0, _, _, _, _, _, _, _, s => s.fail .endInList
  | _, _, _, _, _, _, given, [], s => .ok (ofMembers given, s)
  | fuel + 1, depth, name, count, index, first, given, (n, absence, shape) :: fields, s => do
    let (more, s) ← s.hasItem first
    if more then
      let (j, s) ← shaped fuel depth shape s
      shapedFields fuel depth name count (index + 1) false (given ++ [(n, j)]) fields s
    else if absence = .defaulted then
      shapedFields fuel depth name count (index + 1) first given fields s
    else s.complainLater (.invalidLength index (Shape.recordWith name count))

def shapedMembers : (fuel depth : Nat) → List (Text × Absence × Shape) → (first : Bool) →
    List (Text × Json) → Source → Except Failure (Json × Source)
  | 0, _, _, _, _, s => s.fail .endInObject
  | fuel + 1, depth, fields, first, given, s => do
    let (more, s) ← s.hasMember first
    if more then
      let (name, s) ← s.tail.string false
      match fields.find? fun f => f.1 == name with
      | some (_, _, shape) =>
        if given.any fun g => g.1 == name then s.complainLater (.duplicateField name)
        else
          let s ← s.colon
          let (j, s) ← shaped fuel depth shape s
          shapedMembers fuel depth fields false (given ++ [(name, j)]) s
      | none =>
        let s ← s.colon
        let s ← s.skipValue s.fuel
        shapedMembers fuel depth fields false given s
    else
      match Shape.complete given fields with
      | .ok j => return (j, s)
      | .error c => s.complainLater c

end

end Source

def Shape.ofText (shape : Shape) (t : Text) : Except Failure Json := do
  let s : Source := { rest := t }
  let (j, s) ← s.shaped (s.fuel + 64) Source.maxDepth shape
  s.finish
  .ok j

end TemplateMarkup.Json
