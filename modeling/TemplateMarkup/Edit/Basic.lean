import TemplateMarkup.Document.Element
import TemplateMarkup.Edit.Attributes
import TemplateMarkup.Outcome

/-!
Edits of the element that a query finds: new content and attributes, a new parent, or a new last
child. Text outside of the places that change stays as it is.
-/
namespace TemplateMarkup

inductive EditKind
  | update
  | wrap
  | append
deriving DecidableEq, Repr

def EditKind.name : EditKind → Text
  | update => "Update"
  | wrap => "Wrap"
  | append => "Append"

/-- The kind with a name, whatever the case of its letters. -/
def EditKind.ofName? (name : Text) : Option EditKind :=
  [update, wrap, append].find? fun k => Text.equalsFold k.name name

def EditKind.ofName (name : Text) : Except Error EditKind :=
  match ofName? name with
  | some kind => .ok kind
  | none => .error (.invalidArgument ("unknown edit operation type '".toList ++ name ++
      "' (expected Update, Wrap or Append)".toList))

structure Edit where
  kind : EditKind
  /-- The query for the element to edit. -/
  path : Text
  /-- New content, the tag of the new parent, or the markup of the new child. -/
  payload : Option Text := none
  /-- Attributes to set, ordered by name. -/
  attributes : Option (List (Text × Text)) := none
deriving DecidableEq, Repr

namespace Edit

def withAttribute (e : Edit) (name value : Text) : Edit :=
  { e with attributes := some (Text.insertNamed name value (e.attributes.getD [])) }

def requiredPayload (e : Edit) : Except Error Text :=
  let payload := Text.trim (e.payload.getD [])
  if payload.isEmpty then
    .error (.invalidArgument (e.kind.name ++ " operation on '".toList ++ e.path ++
      "' requires non-empty content".toList))
  else .ok payload

def lastOffset? (part t : Text) : Option Nat :=
  match t with
  | [] => if part.isEmpty then some 0 else none
  | c :: rest =>
    match lastOffset? part rest with
    | some n => some (n + c.utf8Size)
    | none => if Text.startsWith t part then some 0 else none

/-- The end of a tag that closes itself, with the blanks before it. -/
def selfClosingEnd (t : Text) (r : Record) : Span :=
  let tag := r.startTag
  let slash := ((lastOffset? "/>" (tag.slice t)).map (tag.start + ·)).getD tag.stop
  ⟨max (Text.bytes (Text.trimEnd (Text.slice t 0 slash))) r.insertPoint, tag.stop⟩

/-- The splice that gives content to a tag that closes itself. -/
def openUp (t : Text) (r : Record) (content : Text) : Splice :=
  ⟨selfClosingEnd t r, '>' :: content ++ "</".toList ++ r.tag ++ ['>']⟩

def setContent (t : Text) (r : Record) (content : Text) : Splice :=
  match r.inner with
  | some inner => ⟨inner, content⟩
  | none => openUp t r content

def updateSplices (t : Text) (r : Record) (e : Edit) : List Splice :=
  setAttributes r (e.attributes.getD []) ++ (e.payload.map (setContent t r)).toList

def isTagName (tag : Text) : Bool :=
  tag.head?.any Char.isAlpha &&
    tag.all fun c => c.isAlphanum || ['-', '_', ':', '.'].contains c

def wrapSplices (r : Record) (e : Edit) : Except Error (List Splice) := do
  let tag ← e.requiredPayload
  if isTagName tag then
    let attributes := (e.attributes.getD []).flatMap fun (name, value) => ' ' :: assignment name value
    return [Splice.insertion r.outer.start ('<' :: tag ++ attributes ++ ['>']),
      Splice.insertion r.outer.stop ("</".toList ++ tag ++ ['>'])]
  else .error (.invalidArgument ('\x27' :: tag ++ "' is not a valid wrapper tag name".toList))

def appendSplices (t : Text) (r : Record) (e : Edit) : Except Error (List Splice) := do
  let markup ← e.requiredPayload
  if (Document.read markup).records.isEmpty then
    .error (.invalidArgument ("Append content is not markup: ".toList ++ markup))
  else
    match r.inner with
    | some inner => return [Splice.insertion inner.stop markup]
    | none => return [openUp t r markup]

def target (d : Document) (e : Edit) : Except Error Record := do
  let found ← d.selectText e.path
  match found.head?.bind d.record? with
  | some r => return r
  | none => .error (.elementNotFound e.path)

def splices (t : Text) (e : Edit) : Except Error (List Splice) := do
  let r ← e.target (Document.read t)
  match e.kind with
  | .update => return updateSplices t r e
  | .wrap => wrapSplices r e
  | .append => appendSplices t r e

def apply (t : Text) (e : Edit) : Outcome Text :=
  match e.splices t with
  | .ok splices => Outcome.ofOption (Splice.applyAll? t splices)
  | .error error => .failed error

/-- The text after several edits, each made in the text that the one before left. -/
def applyAll (t : Text) (edits : List Edit) : Outcome Text := edits.foldlM apply t

end Edit

end TemplateMarkup
