import TemplateMarkup.Document.Attribute
import TemplateMarkup.Document.Outline

/-!
Documents: the elements of a text in document order. An element is known by its index; its path, such
as `/div[1]/span[2]`, numbers it among its siblings with the same tag.
-/
namespace TemplateMarkup

open Markup

/-- An element of a document, with its place in the text. -/
structure Record where
  tag : Text
  path : Text
  /-- The line the element starts on, counted from 1. -/
  line : Nat
  attributes : List Attribute
  parent : Option Nat
  children : List Nat
  /-- The index after those of the element and its descendants. -/
  subtreeEnd : Nat
  outer : Span
  /-- The opening tag. -/
  startTag : Span
  tagName : Span
  /-- What lies between the tags; nothing for a tag that closes itself. -/
  inner : Option Span
  selfClosing : Bool
  innerText : Text
deriving DecidableEq, Repr

namespace Record

def attribute? (r : Record) (name : Text) : Option Attribute := Attribute.find? r.attributes name

def attributeValue? (r : Record) (name : Text) : Option Text :=
  (r.attribute? name).map (·.valueText)

/-- Where a new attribute goes: after the last one or after the name of the tag. -/
def insertPoint (r : Record) : Nat := (r.attributes.getLast?.map (·.span.stop)).getD r.tagName.stop

mutual

def textSpans : Node → List Span
  | ⟨kind, span, _, _, children⟩ => if kind.isTextual then [span] else textSpansAll children

def textSpansAll : List Node → List Span
  | [] => []
  | n :: ns => textSpans n ++ textSpansAll ns

end

/-- Joins the texts of spans; a space goes between two that blanks separate. `last` is the end of the
span before. -/
def joinSpans (t : Text) (last : Option Nat) : List Span → Text
  | [] => []
  | s :: ss =>
    let gap : Text := match last with
      | some stop => if stop < s.start && (Text.slice t stop s.start).any isBlank then [' '] else []
      | none => []
    gap ++ s.slice t ++ joinSpans t (some s.stop) ss

def innerTextOf (t : Text) (n : Node) : Text := Text.trim (joinSpans t none (textSpans n))

/-- What lies between the tags of an element. -/
def innerOf (o : Outline) : Option Span :=
  if o.tag.kind.isSelfClosingTag then none
  else if !o.node.kind.isElement then some (Span.point o.tag.span.stop)
  else
    let stop := ((o.node.child? Kind.isEndTag).map (·.span.start)).getD o.node.span.stop
    some ⟨o.tag.span.stop, max stop o.tag.span.stop⟩

/-- The path of an element that is the `ordinal`-th of its tag below the given path. -/
def pathBelow (path tag : Text) (ordinal : Nat) : Text :=
  path ++ '/' :: tag ++ '[' :: Text.decimal ordinal ++ [']']

/-- The indices of elements in a row, the first of which has the index given. -/
def indicesFrom (index : Nat) : List Outline → List Nat
  | [] => []
  | o :: os => index :: indicesFrom (index + o.size) os

mutual

/-- The records of an element and its descendants; its own index is `index`, and `before` are the
tags of its earlier siblings. -/
def ofOutline (t : Text) (parent : Option Nat) (path : Text) (before : List Text) (index : Nat) :
    Outline → List Record
  | ⟨node, tag, name, children⟩ =>
    let label := name.span.slice t
    let here := pathBelow path label (before.count label + 1)
    { tag := label, path := here, line := node.line
      attributes := Attribute.ofTag t tag
      parent
      children := indicesFrom (index + 1) children
      subtreeEnd := index + 1 + Outline.sizeAll children
      outer := node.span, startTag := tag.span, tagName := name.span
      inner := innerOf ⟨node, tag, name, children⟩
      selfClosing := tag.kind.isSelfClosingTag
      innerText := innerTextOf t node } ::
    ofOutlines t (some index) here [] (index + 1) children

def ofOutlines (t : Text) (parent : Option Nat) (path : Text) (before : List Text) (index : Nat) :
    List Outline → List Record
  | [] => []
  | o :: os =>
    ofOutline t parent path before index o ++
      ofOutlines t parent path (o.name.span.slice t :: before) (index + o.size) os

end

end Record

structure Document where
  source : Text
  records : List Record
  roots : List Nat
deriving Repr

namespace Document

def ofNode (t : Text) (root : Node) : Document :=
  let outlines := Outline.ofRoot root
  { source := t
    records := Record.ofOutlines t none [] [] 0 outlines
    roots := Record.indicesFrom 0 outlines }

def read (t : Text) : Document := ofNode t (Node.read t)

def size (d : Document) : Nat := d.records.length

def record? (d : Document) (i : Nat) : Option Record := d.records[i]?

def childrenOf (d : Document) : Option Nat → List Nat
  | some i => ((d.record? i).map (·.children)).getD []
  | none => d.roots

/-- The indices of the descendants of an element, or of all elements: from the first number up to,
not including, the second. -/
def descendants (d : Document) : Option Nat → Nat × Nat
  | some i => (i + 1, ((d.record? i).map (·.subtreeEnd)).getD (i + 1))
  | none => (0, d.size)

end Document

end TemplateMarkup
