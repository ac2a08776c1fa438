import TemplateMarkup.Document.Element
import TemplateMarkup.Json.Basic

/-!
Elements and attribute maps in JSON.
-/
namespace TemplateMarkup

def AttributeMap.jsonText (m : AttributeMap) : Text :=
  '\x7b' :: Text.joinWith [','] (m.entries.map fun e => Json.quote e.1 ++ ':' :: Json.quote e.2) ++
    ['\x7d']

def AttributeMap.toJson (m : AttributeMap) : Json :=
  Json.ofMembers (m.entries.map fun e => (e.1, .string e.2))

namespace Element

mutual

/-- An element with its children; `id` and `class` are left out where the element has none. -/
def toJson : Element → Json
  | ⟨tag, id, classes, path, attributes, children, text⟩ =>
    Json.record
      ([("type", .string tag), ("xpath", .string path), ("attributes", attributes.toJson),
        ("children", .array (toJsonAll children)), ("text", .string text)] ++
        (id.map fun v => ("id", Json.string v)).toList ++
        (classes.map fun v => ("class", Json.string v)).toList)

def toJsonAll : List Element → List Json
  | [] => []
  | e :: es => toJson e :: toJsonAll es

end

end Element

end TemplateMarkup
