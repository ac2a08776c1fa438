import TemplateMarkup.Markup.Grammar

/-!
The states of the automaton that reads markup. A state says how far the rule in progress has come and
what may stand after it: at the top of a document the text may end, inside an element the element
may end. Each state has at most one reduction, tried before any shift.
-/
namespace TemplateMarkup.Markup

inductive Place
  | top
  | nested
deriving DecidableEq, Repr

/-- Elements whose content is kept as raw text. -/
inductive RawKind
  | script
  | style
deriving DecidableEq, Repr

/-- The opening tag that an attribute belongs to; the tag of a raw element cannot close itself. -/
inductive Opener
  | plain
  | raw
deriving DecidableEq, Repr

inductive Quote
  | single
  | double
deriving DecidableEq, Repr

inductive State
  /-- Reading goes on after a fault. -/
  | recovery
  | start
  | finished
  /-- At the top of a document, after at least one node. -/
  | topNodes
  /-- After two runs of nodes that join into one. -/
  | joinNodes (place : Place)
  | elementOpened (place : Place)
  | elementContent (place : Place)
  | elementSelfClosed (place : Place)
  | elementEmptyClosed (place : Place)
  | elementEmptyImplied (place : Place)
  | elementClosed (place : Place)
  | elementImplied (place : Place)
  | rawOpened (kind : RawKind) (place : Place)
  | rawContent (kind : RawKind) (place : Place)
  | rawEmptyClosed (kind : RawKind) (place : Place)
  | rawClosed (kind : RawKind) (place : Place)
  | tagOpened (place : Place)
  | tagNamed (place : Place)
  | tagAttributes (place : Place)
  | rawTagNamed (kind : RawKind)
  | rawTagAttributes (kind : RawKind)
  | startTagBare
  | startTagFull
  | selfTagBare (place : Place)
  | selfTagFull (place : Place)
  | rawTagBare (kind : RawKind)
  | rawTagFull (kind : RawKind)
  /-- After two runs of attributes that join into one. -/
  | joinAttributes (opener : Opener)
  | attributeNamed (opener : Opener)
  | attributeEquals (opener : Opener)
  | attributePlain (opener : Opener)
  | attributeQuoted (opener : Opener)
  | quoteOpened (quote : Quote) (opener : Opener)
  | quoteText (quote : Quote) (opener : Opener)
  | quoteEmpty (quote : Quote) (opener : Opener)
  | quoteFull (quote : Quote) (opener : Opener)
  /-- After `</` in the content of an element that stands at the place. -/
  | endOpened (place : Place)
  /-- After `</` in a raw element. -/
  | rawEndOpened (place : Place)
  | endNamed (place : Place)
  | endClosed (place : Place)
  /-- After `</` where no element can end. -/
  | strayOpened (place : Place)
  | strayNamed (place : Place)
  | strayClosed (place : Place)
  | declarationOpened (place : Place)
  | declarationWord (place : Place)
  | declarationBody (place : Place)
  | declarationClosed (place : Place)
deriving DecidableEq, Repr

namespace Place

def allows (place : Place) : Terminal → Bool
  | .declarationOpen | .tagOpen | .endOpen | .entity | .text => true
  | .endOfText => place == .top
  | .impliedEnd => place == .nested
  | _ => false

end Place

namespace Opener

def allows (opener : Opener) : Terminal → Bool
  | .tagClose | .attributeName => true
  | .selfClose => opener == .plain
  | _ => false

end Opener

namespace RawKind

def element : RawKind → Nonterminal
  | script => .scriptElement
  | style => .styleElement

def startTag : RawKind → Nonterminal
  | script => .scriptStartTag
  | style => .styleStartTag

end RawKind

namespace Quote

def mark : Quote → Terminal
  | single => .apostrophe
  | double => .quotationMark

def text : Quote → Terminal
  | single => .apostropheText
  | double => .quotationText

end Quote

/-- The first tokens of a node at a place lead into the rules that begin with them; `after` is the
state once a whole node has been read. -/
def Place.shift (place : Place) (after endAfter : State) : Terminal → Option State
  | .declarationOpen => some (.declarationOpened place)
  | .tagOpen => some (.tagOpened place)
  | .endOpen => some endAfter
  | .entity | .text => some after
  | _ => none

/-- The state after a part of a node at a place; `after` is the state after a whole node. -/
def Place.goto (place : Place) (after : State) : Nonterminal → Option State
  | .doctype | .element | .scriptElement | .styleElement | .strayEndTag | .nodes => some after
  | .startTag => some (.elementOpened place)
  | .selfClosingTag => some (.elementSelfClosed place)
  | .scriptStartTag => some (.rawOpened .script place)
  | .styleStartTag => some (.rawOpened .style place)
  | _ => none

namespace State

def shift? : State → Terminal → Option State
  | start, t => Place.top.shift topNodes (strayOpened .top) t
  | topNodes, t => Place.top.shift (joinNodes .top) (strayOpened .top) t
  | joinNodes p, t => p.shift (joinNodes p) (strayOpened p) t
  | elementOpened p, .impliedEnd => some (elementEmptyImplied p)
  | elementOpened p, t => Place.nested.shift (elementContent p) (endOpened p) t
  | elementContent p, .impliedEnd => some (elementImplied p)
  | elementContent p, t => Place.nested.shift (joinNodes .nested) (endOpened p) t
  | rawOpened k p, .rawText => some (rawContent k p)
  | rawOpened _ p, .endOpen => some (rawEndOpened p)
  | rawContent _ p, .endOpen => some (rawEndOpened p)
  | tagOpened p, .startName => some (tagNamed p)
  | tagOpened _, .scriptName => some (rawTagNamed .script)
  | tagOpened _, .styleName => some (rawTagNamed .style)
  | tagNamed _, .tagClose => some startTagBare
  | tagNamed p, .selfClose => some (selfTagBare p)
  | tagNamed _, .attributeName => some (attributeNamed .plain)
  | tagAttributes _, .tagClose => some startTagFull
  | tagAttributes p, .selfClose => some (selfTagFull p)
  | tagAttributes _, .attributeName => some (attributeNamed .plain)
  | rawTagNamed k, .tagClose => some (rawTagBare k)
  | rawTagNamed _, .attributeName => some (attributeNamed .raw)
  | rawTagAttributes k, .tagClose => some (rawTagFull k)
  | rawTagAttributes _, .attributeName => some (attributeNamed .raw)
  | joinAttributes o, .attributeName => some (attributeNamed o)
  | attributeNamed o, .equals => some (attributeEquals o)
  | attributeEquals o, .attributeValue => some (attributePlain o)
  | attributeEquals o, .apostrophe => some (quoteOpened .single o)
  | attributeEquals o, .quotationMark => some (quoteOpened .double o)
  | quoteOpened q o, t =>
    if t = q.text then some (quoteText q o) else if t = q.mark then some (quoteEmpty q o) else none
  | quoteText q o, t => if t = q.mark then some (quoteFull q o) else none
  | endOpened p, .endName => some (endNamed p)
  | endOpened _, .strayEndName => some (strayNamed .nested)
  | rawEndOpened p, .endName => some (endNamed p)
  | endNamed p, .tagClose => some (endClosed p)
  | strayOpened p, .strayEndName => some (strayNamed p)
  | strayNamed p, .tagClose => some (strayClosed p)
  | declarationOpened p, .doctypeWord => some (declarationWord p)
  | declarationWord p, .declarationBody => some (declarationBody p)
  | declarationBody p, .tagClose => some (declarationClosed p)
  | _, _ => none

def goto? : State → Nonterminal → Option State
  | start, .document => some finished
  | start, n => Place.top.goto topNodes n
  | topNodes, n => Place.top.goto (joinNodes .top) n
  | joinNodes p, n => p.goto (joinNodes p) n
  | elementOpened p, .endTag => some (elementEmptyClosed p)
  | elementOpened p, n => Place.nested.goto (elementContent p) n
  | elementContent p, .endTag => some (elementClosed p)
  | elementContent _, n => Place.nested.goto (joinNodes .nested) n
  | rawOpened k p, .endTag => some (rawEmptyClosed k p)
  | rawContent k p, .endTag => some (rawClosed k p)
  | tagNamed p, .tagAttribute | tagNamed p, .attributes => some (tagAttributes p)
  | tagAttributes _, .tagAttribute | tagAttributes _, .attributes => some (joinAttributes .plain)
  | rawTagNamed k, .tagAttribute | rawTagNamed k, .attributes => some (rawTagAttributes k)
  | rawTagAttributes _, .tagAttribute | rawTagAttributes _, .attributes => some (joinAttributes .raw)
  | joinAttributes o, .tagAttribute | joinAttributes o, .attributes => some (joinAttributes o)
  | attributeEquals o, .quotedValue => some (attributeQuoted o)
  | _, _ => none

/-- The rule that is complete in a state: what it builds and from how many parts. -/
def completed? : State → Option (Nonterminal × Nat)
  | start => some (.document, 0)
  | topNodes => some (.document, 1)
  | joinNodes _ => some (.nodes, 2)
  | elementSelfClosed _ => some (.element, 1)
  | elementEmptyClosed _ | elementEmptyImplied _ => some (.element, 2)
  | elementClosed _ | elementImplied _ => some (.element, 3)
  | rawEmptyClosed k _ => some (k.element, 2)
  | rawClosed k _ => some (k.element, 3)
  | startTagBare => some (.startTag, 3)
  | startTagFull => some (.startTag, 4)
  | selfTagBare _ => some (.selfClosingTag, 3)
  | selfTagFull _ => some (.selfClosingTag, 4)
  | rawTagBare k => some (k.startTag, 3)
  | rawTagFull k => some (k.startTag, 4)
  | joinAttributes _ => some (.attributes, 2)
  | attributeNamed _ => some (.tagAttribute, 1)
  | attributePlain _ | attributeQuoted _ => some (.tagAttribute, 3)
  | quoteEmpty _ _ => some (.quotedValue, 2)
  | quoteFull _ _ => some (.quotedValue, 3)
  | endClosed _ => some (.endTag, 3)
  | strayClosed _ => some (.strayEndTag, 3)
  | declarationClosed _ => some (.doctype, 4)
  | _ => none

def endsBefore : State → Terminal → Bool
  | start, t | topNodes, t => t == .endOfText
  | joinNodes p, t | elementSelfClosed p, t | elementEmptyClosed p, t | elementEmptyImplied p, t
  | elementClosed p, t | elementImplied p, t | rawEmptyClosed _ p, t | rawClosed _ p, t
  | selfTagBare p, t | selfTagFull p, t | endClosed p, t | strayClosed p, t
  | declarationClosed p, t => p.allows t
  | startTagBare, t | startTagFull, t => Place.nested.allows t
  | rawTagBare _, t | rawTagFull _, t => t == .endOpen || t == .rawText
  | joinAttributes o, t | attributeNamed o, t | attributePlain o, t | attributeQuoted o, t
  | quoteEmpty _ o, t | quoteFull _ o, t => o.allows t
  | _, _ => false

def reduce? (s : State) (t : Terminal) : Option (Nonterminal × Nat) :=
  if s.endsBefore t then s.completed? else none

/-- Whether a terminal means anything in a state. Comments may stand everywhere. -/
def accepts (s : State) (t : Terminal) : Bool :=
  t == .comment || (s.shift? t).isSome || (s.reduce? t).isSome || (s == finished && t == .endOfText)

/-- The state after a terminal, where a comment changes nothing. -/
def next? (s : State) (t : Terminal) : Option State :=
  if t = .comment then some s else s.shift? t

end State

end TemplateMarkup.Markup
