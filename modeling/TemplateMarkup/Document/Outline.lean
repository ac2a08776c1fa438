import TemplateMarkup.Markup.Node

/-!
The outline of a syntax tree: its elements, nested as they are in the tree. An element is a node of
an element kind whose tag has a name, or an opening tag with a name that stands outside of such
nodes. All other nodes are looked through, except the tags of elements.
-/
namespace TemplateMarkup

open Markup

/-- An element of a syntax tree: its node, its opening tag and the name in it. -/
structure Outline where
  node : Node
  tag : Node
  name : Node
  children : List Outline

namespace Outline

/-- The opening tag of a node, if the node can be an element. A tag outside of elements is its own
tag. -/
def tagOf? (inElement : Bool) (n : Node) : Option Node :=
  if n.kind.isElement then n.child? Kind.isStartTag <|> n.child? Kind.isSelfClosingTag
  else if (n.kind.isStartTag || n.kind.isSelfClosingTag) && !inElement then some n
  else none

def head? (inElement : Bool) (n : Node) : Option (Node × Node) :=
  (tagOf? inElement n).bind fun tag => (tag.child? Kind.isTagName).map fun name => (tag, name)

mutual

/-- The outermost elements of a node. `inElement` says that the node is a child of an element. -/
def ofNode (inElement : Bool) : Node → List Outline
  | ⟨kind, span, line, missing, children⟩ =>
    let n : Node := ⟨kind, span, line, missing, children⟩
    match head? inElement n with
    | some (tag, name) =>
      [{ node := n, tag, name
         children := if kind.isElement then ofNodes true children else [] }]
    | none =>
      if kind.isTag && inElement then [] else ofNodes kind.isElement children

def ofNodes (inElement : Bool) : List Node → List Outline
  | [] => []
  | n :: ns => ofNode inElement n ++ ofNodes inElement ns

end

def ofRoot (root : Node) : List Outline := ofNodes root.kind.isElement root.children

mutual

def size : Outline → Nat
  | ⟨_, _, _, children⟩ => 1 + sizeAll children

def sizeAll : List Outline → Nat
  | [] => 0
  | o :: os => size o + sizeAll os

end

end Outline

end TemplateMarkup
