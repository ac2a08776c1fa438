import TemplateMarkup.Edit.Attributes
import TemplateMarkup.Outcome

/-!
Merging the looks of one template into another: elements are matched by the value of an attribute, and
chosen attributes take their values from the design.
-/
namespace TemplateMarkup

structure MergeOptions where
  /-- The attribute that tells which elements belong together. -/
  idAttribute : Text := "data-mcp-id".toList
  attributes : List Text := ["class".toList, "style".toList]
deriving DecidableEq, Repr

structure MergeResult where
  content : Text
  /-- The number of elements with a match in the design. -/
  merged : Nat
deriving DecidableEq, Repr

namespace MergeOptions

/-- The last element of a design with the given id, which must not be empty. -/
def findDesign? (o : MergeOptions) (design : Document) (id : Text) : Option Record :=
  if id.isEmpty then none
  else design.records.reverse.find? fun r => r.attributeValue? o.idAttribute == some id

/-- The attributes that an element of the design passes on, ordered by name. -/
def changes (o : MergeOptions) (r : Record) : List (Text × Text) :=
  Text.ofNamed (o.attributes.filterMap fun name => (r.attributeValue? name).map fun v => (name, v))

/-- The splices for one element; nothing if it has no match. -/
def splices? (o : MergeOptions) (design : Document) (r : Record) : Option (List Splice) :=
  (r.attributeValue? o.idAttribute).bind fun id =>
    (o.findDesign? design id).map fun d => Edit.setAttributes r (o.changes d)

/-- The text of `logic` with the looks of `design`. -/
def merge (o : MergeOptions) (logic design : Text) : Outcome MergeResult :=
  if (Text.trim o.idAttribute).isEmpty then
    .failed (.invalidArgument "merge id attribute must not be empty")
  else
    let designDocument := Document.read design
    let splices := (Document.read logic).records.filterMap (o.splices? designDocument)
    Outcome.ofOption ((Splice.applyAll? logic splices.flatten).map fun content =>
      { content, merged := splices.length })

end MergeOptions

end TemplateMarkup
