import TemplateMarkup.Document.Basic

/-!
Elements as values: an element with its attributes, its children and its text, without places.
-/
namespace TemplateMarkup

structure Element where
  tag : Text
  id : Option Text
  classes : Option Text
  path : Text
  attributes : AttributeMap
  children : List Element
  text : Text
deriving Repr

namespace Element

mutual

def descendantsAndSelf : Element → List Element
  | ⟨tag, id, classes, path, attributes, children, text⟩ =>
    ⟨tag, id, classes, path, attributes, children, text⟩ :: descendantsOfAll children

def descendantsOfAll : List Element → List Element
  | [] => []
  | e :: es => descendantsAndSelf e ++ descendantsOfAll es

end

mutual

/-- Elements of the same shape agree in tags, attributes and children, whatever their text. -/
def sameShape : Element → Element → Bool
  | ⟨tag, _, _, _, attributes, children, _⟩, ⟨tag', _, _, _, attributes', children', _⟩ =>
    tag == tag' && attributes == attributes' && sameShapes children children'

def sameShapes : List Element → List Element → Bool
  | [], [] => true
  | e :: es, f :: fs => sameShape e f && sameShapes es fs
  | _, _ => false

end

end Element

namespace Document

/-- The element with a given index, as far as the fuel goes into its descendants. -/
def elementFrom (d : Document) : (fuel : Nat) → Nat → Option Element
  | 0, _ => none
  | fuel + 1, i =>
    (d.record? i).map fun r =>
      { tag := r.tag
        id := r.attributeValue? "id".toList
        classes := r.attributeValue? "class".toList
        path := r.path
        attributes := AttributeMap.ofAttributes r.attributes
        children := r.children.filterMap (elementFrom d fuel)
        text := r.innerText }

def element? (d : Document) (i : Nat) : Option Element := d.elementFrom (d.size + 1) i

def elements (d : Document) : List Element := d.roots.filterMap d.element?

end Document

end TemplateMarkup
