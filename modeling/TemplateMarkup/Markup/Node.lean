import TemplateMarkup.Markup.Reader
import TemplateMarkup.Span

/-!
The syntax tree of a text as its users see it: nodes with a kind, the bytes they cover and the line
they start on. Grouping and implied symbols leave no node of their own.
-/
namespace TemplateMarkup.Markup

inductive Kind
  | terminal (t : Terminal)
  | nonterminal (n : Nonterminal)
  | fault
deriving DecidableEq, Repr

namespace Kind

/-- Elements: plain ones and those with raw text. -/
def isElement : Kind → Bool
  | nonterminal .element | nonterminal .scriptElement | nonterminal .styleElement => true
  | _ => false

def isStartTag : Kind → Bool
  | nonterminal .startTag | nonterminal .scriptStartTag | nonterminal .styleStartTag => true
  | _ => false

def isSelfClosingTag (k : Kind) : Bool := k == nonterminal .selfClosingTag

def isEndTag (k : Kind) : Bool := k == nonterminal .endTag

def isTag (k : Kind) : Bool := k.isStartTag || k.isSelfClosingTag || k.isEndTag

def isTagName : Kind → Bool
  | terminal .startName | terminal .scriptName | terminal .styleName | terminal .endName => true
  | _ => false

def isAttribute (k : Kind) : Bool := k == nonterminal .tagAttribute

def isAttributeName (k : Kind) : Bool := k == terminal .attributeName

def isQuotedValue (k : Kind) : Bool := k == nonterminal .quotedValue

def isAttributeValue : Kind → Bool
  | terminal .attributeValue | terminal .apostropheText | terminal .quotationText => true
  | _ => false

/-- Leaves whose characters are content to read. -/
def isTextual : Kind → Bool
  | terminal .text | terminal .entity | terminal .rawText => true
  | _ => false

def isStrayEndTag (k : Kind) : Bool := k == nonterminal .strayEndTag

def isStrayEndName (k : Kind) : Bool := k == terminal .strayEndName

end Kind

structure Node where
  kind : Kind
  span : Span
  /-- The line the node starts on, counted from 1. -/
  line : Nat
  /-- The text lacks this node. -/
  missing : Bool
  children : List Node

namespace Node

/-- The first child whose kind satisfies `p`. -/
def child? (n : Node) (p : Kind → Bool) : Option Node := n.children.find? fun c => p c.kind

mutual

/-- The nodes that a tree shows: itself, or the nodes of its children if it only groups them. -/
def shown : Tree → List Node
  | ⟨label, info, children⟩ =>
    let here (kind : Kind) : List Node :=
      [{ kind, span := ⟨info.start.offset, info.stop.offset⟩, line := info.start.line + 1
         missing := info.missing, children := shownAll children }]
    match label with
    | .terminal t => if t.isShown then here (.terminal t) else shownAll children
    | .nonterminal n => if n.isShown then here (.nonterminal n) else shownAll children
    | .fault => here .fault
    | .skipped => shownAll children

def shownAll : List Tree → List Node
  | [] => []
  | t :: ts => shown t ++ shownAll ts

end

/-- The syntax tree of a text. Every text has one; what fits no rule stands in nodes of the kind
`fault`. -/
def read (t : Text) : Node :=
  match shown (Reader.read t) with
  | root :: _ => root
  | [] => ⟨.nonterminal .document, ⟨0, 0⟩, 1, false, []⟩

end Node

end TemplateMarkup.Markup
