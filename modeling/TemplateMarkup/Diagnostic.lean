import TemplateMarkup.Markup.Node

/-!
Diagnostics: the outermost faults of a syntax tree, one line of text for each.
-/
namespace TemplateMarkup

open Markup

inductive Fault
  | missing (kind : Kind)
  | unexpected (snippet : Text)
  | strayEnd (name : Text)
deriving DecidableEq, Repr

structure Diagnostic where
  line : Nat
  fault : Fault
deriving DecidableEq, Repr

namespace Diagnostic

def terminalName : Terminal → Text
  | .endOfText => "end"
  | .declarationOpen => "<!"
  | .declarationBody => "declaration"
  | .tagClose => "'>'"
  | .doctypeWord => "doctype"
  | .tagOpen => "<"
  | .selfClose => "'/>'"
  | .endOpen => "</"
  | .equals => "="
  | .attributeName => "attribute name"
  | .attributeValue | .apostropheText | .quotationText => "attribute value"
  | .entity => "entity"
  | .apostrophe => "'\x27'"
  | .quotationMark => "'\"'"
  | .text => "text"
  | .startName | .scriptName | .styleName | .endName => "tag name"
  | .strayEndName => "erroneous end tag name"
  | .impliedEnd => "implied end tag"
  | .rawText => "raw text"
  | .comment => "comment"

def nonterminalName : Nonterminal → Text
  | .document => "document"
  | .doctype => "doctype"
  | .element => "element"
  | .scriptElement => "script element"
  | .styleElement => "style element"
  | .startTag | .scriptStartTag | .styleStartTag => "start tag"
  | .selfClosingTag => "self closing tag"
  | .endTag => "end tag"
  | .strayEndTag => "erroneous end tag"
  | .tagAttribute => "attribute"
  | .quotedValue => "quoted attribute value"
  | .nodes => "nodes"
  | .attributes => "attributes"

def kindName : Kind → Text
  | .terminal t => terminalName t
  | .nonterminal n => nonterminalName n
  | .fault => "ERROR"

def snippetLimit : Nat := 30

/-- The first line of a text, cut after the limit. -/
def snippet (t : Text) : Text :=
  let line := (Text.lines (Text.trim t)).headD []
  if snippetLimit < line.length then line.take snippetLimit ++ "..." else line

def faultOf? (t : Text) (n : Node) : Option Fault :=
  if n.missing then some (.missing n.kind)
  else if n.kind = .fault then some (.unexpected (snippet (n.span.slice t)))
  else if n.kind.isStrayEndTag then
    some (.strayEnd (((n.child? Kind.isStrayEndName).map fun c => c.span.slice t).getD "?"))
  else none

mutual

/-- The faults of a tree that lie in no other fault, in order. -/
def ofNode (t : Text) : Node → List Diagnostic
  | ⟨kind, span, line, missing, children⟩ =>
    match faultOf? t ⟨kind, span, line, missing, children⟩ with
    | some fault => [⟨line, fault⟩]
    | none => ofNodes t children

def ofNodes (t : Text) : List Node → List Diagnostic
  | [] => []
  | n :: ns => ofNode t n ++ ofNodes t ns

end

def message (d : Diagnostic) : Text :=
  let start := "Line ".toList ++ Text.decimal d.line ++ ": ".toList
  match d.fault with
  | .missing kind => start ++ "Missing ".toList ++ kindName kind
  | .unexpected snippet => start ++ "Unexpected content '".toList ++ snippet ++ "'".toList
  | .strayEnd name => start ++ "End tag </".toList ++ name ++ "> has no matching start tag".toList

end Diagnostic

/-- The diagnostics of a text, none if its structure is sound. -/
def diagnose (t : Text) : List Diagnostic := Diagnostic.ofNode t (Markup.Node.read t)

end TemplateMarkup
