import TemplateMarkup.FileTree.Search
import TemplateMarkup.Json.Shape

/-!
The configuration of a project: which of its files are templates, and where the classes are listed that
are never orphans.
-/
namespace TemplateMarkup

structure Config where
  /-- The globs of the files that count; none stand for all files. -/
  included : List Text := []
  excluded : List Text :=
    ["**/bin".toList, "**/bin/**".toList, "**/obj".toList, "**/obj/**".toList,
      "**/node_modules".toList, "**/node_modules/**".toList, "**/.*".toList, "**/.*/**".toList]
  recursive : Bool := true
  /-- The stylesheet for all templates. -/
  globalStylesheet : Option Text := none
  /-- The list of patterns to ignore. -/
  ignoreFile : Text := "tailwind-ignore.txt".toList
  extensions : List Text := ["razor".toList]
deriving Repr

namespace Config

def fileName : Text := "razormarkup.json"

def shape : Json.Shape :=
  .record "RazorConfig" [("include".toList, .defaulted, .list .text),
    ("exclude".toList, .defaulted, .list .text), ("recursive".toList, .defaulted, .boolean),
    ("globalCss".toList, .defaulted, .optional .path), ("ignoreFile".toList, .defaulted, .path),
    ("extensions".toList, .defaulted, .list .text)]

def texts? (j : Json) (name : Text) : Option (List Text) :=
  ((j.get? name).bind Json.asArray?).map fun items => items.filterMap Json.asText?

def ofShaped (j : Json) : Config :=
  let default : Config := {}
  { included := (texts? j "include").getD default.included
    excluded := (texts? j "exclude").getD default.excluded
    recursive := ((j.get? "recursive").bind Json.asBool?).getD default.recursive
    globalStylesheet := (j.get? "globalCss").bind Json.asText?
    ignoreFile := ((j.get? "ignoreFile").bind Json.asText?).getD default.ignoreFile
    extensions := (texts? j "extensions").getD default.extensions }

/-- The configuration in a file; the default one if the file cannot be read. -/
def load (t : FileTree) (path : Text) : Config :=
  match t.read path with
  | .ok content =>
    match shape.ofText content with
    | .ok j => ofShaped j
    | .error _ => {}
  | .error _ => {}

/-- The configuration of a directory. Its paths lead from the directory. -/
def loadDir (t : FileTree) (dir : Text) : Config :=
  let c := load t (Path.join dir fileName)
  { c with
    globalStylesheet := c.globalStylesheet.map (Path.join dir)
    ignoreFile := Path.join dir c.ignoreFile }

def templateFiles (c : Config) (t : FileTree) (dir : Text) : Except Error (List Text) := do
  t.requireDir dir
  let matcher ← PathMatcher.ofLists c.included c.excluded
  let search : FileSearch :=
    { extensions := c.extensions, recursive := c.recursive, matcher := some matcher }
  return search.filesIn t dir

end Config

end TemplateMarkup
