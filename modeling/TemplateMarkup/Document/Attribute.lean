import TemplateMarkup.Markup.Node

/-!
Attributes of a tag, with the places of their parts, and attribute maps, in which each name occurs
once. A name is looked up as written first and up to the case of ASCII letters second.
-/
namespace TemplateMarkup

open Markup

structure Attribute where
  name : Text
  /-- Nothing for an attribute without a value. -/
  value : Option Text
  span : Span
  nameSpan : Span
  /-- The span of the value inside its quotes. -/
  valueSpan : Option Span
  quote : Option Char
deriving DecidableEq, Repr

namespace Attribute

def valueText (a : Attribute) : Text := a.value.getD []

def readValue (t : Text) (n : Node) : Option Text × Option Span × Option Char :=
  match n.child? Kind.isQuotedValue with
  | some quoted =>
    let quote := (quoted.span.slice t).head?
    match quoted.child? Kind.isAttributeValue with
    | some v => (some (v.span.slice t), some v.span, quote)
    | none => (some [], some (Span.point (min (quoted.span.start + 1) quoted.span.stop)), quote)
  | none =>
    match n.child? Kind.isAttributeValue with
    | some v => (some (v.span.slice t), some v.span, none)
    | none => (none, none, none)

def ofNode? (t : Text) (n : Node) : Option Attribute :=
  if n.kind.isAttribute then
    (n.child? Kind.isAttributeName).map fun name =>
      let (value, valueSpan, quote) := readValue t n
      { name := name.span.slice t, value, span := n.span, nameSpan := name.span, valueSpan, quote }
  else none

def ofTag (t : Text) (tag : Node) : List Attribute := tag.children.filterMap (ofNode? t)

/-- The first attribute with the name as written, else the first with the name up to case. -/
def find? (attributes : List Attribute) (name : Text) : Option Attribute :=
  (attributes.find? fun a => a.name == name) <|>
    attributes.find? fun a => Text.equalsFold a.name name

end Attribute

/-- Names with their values, in the order in which the names came in; each name occurs once. -/
structure AttributeMap where
  entries : List (Text × Text) := []
deriving DecidableEq, Repr

namespace AttributeMap

def names (m : AttributeMap) : List Text := m.entries.map (·.1)

def contains (m : AttributeMap) (name : Text) : Bool := m.entries.any fun e => e.1 == name

/-- Adds a name unless it is there already; tells whether it was added. -/
def insertFirst (m : AttributeMap) (name value : Text) : AttributeMap × Bool :=
  if m.contains name then (m, false) else (⟨m.entries ++ [(name, value)]⟩, true)

/-- The value of a name as written, else of the first name that is equal up to case. -/
def get? (m : AttributeMap) (name : Text) : Option Text :=
  ((m.entries.find? fun e => e.1 == name) <|>
    m.entries.find? fun e => Text.equalsFold e.1 name).map (·.2)

/-- The map of a list of attributes: the first value of each name counts. -/
def ofAttributes (attributes : List Attribute) : AttributeMap :=
  attributes.foldl (fun m a => (m.insertFirst a.name a.valueText).1) {}

end AttributeMap

end TemplateMarkup
