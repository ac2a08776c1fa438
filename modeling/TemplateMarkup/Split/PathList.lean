import TemplateMarkup.Json.Shape

/-!
Lists of paths: a JSON list of strings, or one path on each line.
-/
namespace TemplateMarkup.PathList

def tidy (paths : List Text) : List Text := (paths.map Text.trim).filter fun p => !p.isEmpty

def ofJson? (t : Text) : Option (List Text) :=
  match (Json.Shape.list .text).ofText t with
  | .ok j => some ((j.asArray?.getD []).filterMap Json.asText?)
  | .error _ => none

/-- The paths that a text lists. A text that starts like JSON but is none is read by lines. -/
def read (content : Text) : List Text :=
  let start := Text.trimStart content
  match if Text.startsWith start "[" then ofJson? start else none with
  | some paths => tidy paths
  | none => tidy (Text.lines content)

end TemplateMarkup.PathList
