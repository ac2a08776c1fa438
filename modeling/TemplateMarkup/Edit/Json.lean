import TemplateMarkup.Edit.Basic
import TemplateMarkup.Edit.Merge
import TemplateMarkup.Json.Shape

/-!
Edits and merge options as JSON.
-/
namespace TemplateMarkup

namespace Edit

def checkKind (name : Text) : Option Text :=
  match EditKind.ofName name with
  | .ok _ => none
  | .error e => some e.message

def shape : Json.Shape :=
  .record "EditOperation" [("type".toList, .refused, .checked checkKind),
    ("xpath".toList, .refused, .text), ("content".toList, .defaulted, .optional .text),
    ("attributes".toList, .defaulted, .optional (.dictionary .text))]

def ofShaped (j : Json) : Edit :=
  { kind := (((j.get? "type".toList).bind Json.asText?).bind EditKind.ofName?).getD .update
    path := ((j.get? "xpath".toList).bind Json.asText?).getD []
    payload := (j.get? "content".toList).bind Json.asText?
    attributes := ((j.get? "attributes".toList).bind Json.asObject?).map fun members =>
      members.filterMap fun (n, v) => v.asText?.map fun t => (n, t) }

def ofJson (j : Json) : Except Json.Complaint Edit := (shape.ofValue j).map ofShaped

def ofJsonText (t : Text) : Except Json.Failure Edit := (shape.ofText t).map ofShaped

end Edit

namespace MergeOptions

def shape : Json.Shape :=
  .record "MergeOptions" [("idAttribute".toList, .defaulted, .text),
    ("attributesToMerge".toList, .defaulted, .list .text)]

def ofShaped (j : Json) : MergeOptions :=
  let default : MergeOptions := {}
  { idAttribute := ((j.get? "idAttribute".toList).bind Json.asText?).getD default.idAttribute
    attributes := (((j.get? "attributesToMerge".toList).bind Json.asArray?).map
      fun items => items.filterMap Json.asText?).getD default.attributes }

def ofJson (j : Json) : Except Json.Complaint MergeOptions := (shape.ofValue j).map ofShaped

end MergeOptions

end TemplateMarkup
