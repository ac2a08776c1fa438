/-!
The symbols of markup: the terminals that the readers of tokens produce, and the nonterminals that
the automaton builds from them.
-/
namespace TemplateMarkup.Markup

inductive Terminal
  | endOfText
  /-- `<!` -/
  | declarationOpen
  /-- What a declaration holds after its keyword. -/
  | declarationBody
  /-- `>` -/
  | tagClose
  /-- The keyword of a document type declaration. -/
  | doctypeWord
  /-- `<` -/
  | tagOpen
  /-- `/>` -/
  | selfClose
  /-- `</` -/
  | endOpen
  | equals
  | attributeName
  | attributeValue
  | entity
  | apostrophe
  | apostropheText
  | quotationMark
  | quotationText
  | text
  | startName
  | scriptName
  | styleName
  | endName
  | strayEndName
  | impliedEnd
  | rawText
  | comment
deriving DecidableEq, Repr

namespace Terminal

/-- All terminals but the end of the text, in the order in which a missing one is looked for. -/
def insertable : List Terminal :=
  [declarationOpen, declarationBody, tagClose, doctypeWord, tagOpen, selfClose, endOpen, equals,
    attributeName, attributeValue, entity, apostrophe, apostropheText, quotationMark,
    quotationText, text, startName, scriptName, styleName, endName, strayEndName, impliedEnd,
    rawText, comment]

def rank (t : Terminal) : Nat := if t = endOfText then 0 else 1 + insertable.idxOf t

/-- Implied end tags and the body of a declaration leave no node in the finished tree. -/
def isShown : Terminal → Bool
  | endOfText | declarationBody | impliedEnd => false
  | _ => true

end Terminal

inductive Nonterminal
  | document
  | doctype
  | element
  | scriptElement
  | styleElement
  | startTag
  | scriptStartTag
  | styleStartTag
  | selfClosingTag
  | endTag
  | strayEndTag
  | tagAttribute
  | quotedValue
  | nodes
  | attributes
deriving DecidableEq, Repr

namespace Nonterminal

def rank : Nonterminal → Nat
  | document => 25
  | doctype => 26
  | element => 28
  | scriptElement => 29
  | styleElement => 30
  | startTag => 31
  | scriptStartTag => 32
  | styleStartTag => 33
  | selfClosingTag => 34
  | endTag => 35
  | strayEndTag => 36
  | tagAttribute => 37
  | quotedValue => 38
  | nodes => 39
  | attributes => 40

/-- Runs of nodes and of attributes only group their members. -/
def isShown : Nonterminal → Bool
  | nodes | attributes => false
  | _ => true

end Nonterminal

end TemplateMarkup.Markup
