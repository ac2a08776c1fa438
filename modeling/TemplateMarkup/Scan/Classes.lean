import TemplateMarkup.Config
import TemplateMarkup.Orphan

/-!
The classes that template files use, and the orphans among them.
-/
namespace TemplateMarkup

def templateExtension : Text := "razor"

def markupExtensions : List Text := [templateExtension, "cshtml".toList, "html".toList]

namespace OrphanOptions

/-- The patterns that a file lists, or none if it cannot be read. -/
def loadIgnored (t : FileTree) (path : Text) : List IgnorePattern :=
  match t.read path with
  | .ok content => IgnorePattern.readAll content
  | .error _ => []

def loadWhitelist (t : FileTree) (path : Text) : Outcome (List Text) := do
  return Stylesheet.definedClasses (← t.readText path)

/-- The options of a project; files that cannot be read add nothing. -/
def ofConfig (t : FileTree) (c : Config) : OrphanOptions :=
  let known := match c.globalStylesheet.map (loadWhitelist t) with
    | some (.done names) => names
    | _ => []
  ofLists known (loadIgnored t c.ignoreFile)

end OrphanOptions

namespace Scan

/-- The text of the stylesheet that belongs to a template, if there is one. -/
def stylesheet? (t : FileTree) (path : Text) : Outcome (Option Text) :=
  let css := Path.companionStylesheet path
  if t.has css then some <$> t.readText css else pure none

def orphans (t : FileTree) (options : OrphanOptions) (path : Text) : Outcome (List Text) := do
  let template ← t.readText path
  let stylesheet ← stylesheet? t path
  Outcome.ofOption (findOrphans? template stylesheet options)

def classes (t : FileTree) (path : Text) : Outcome (List Text) := do
  Outcome.ofOption (usedClasses? (← t.readText path))

/-- The names found in some files, ascending and each once. Files where the search fails are passed
over. -/
def gather (search : Text → Outcome (List Text)) (files : List Text) : Outcome (List Text) := do
  let found ← files.mapM fun f =>
    match search f with
    | .done names => .done names
    | .failed _ => .done []
    | .brokenOff => .brokenOff
  return Text.sortDistinct found.flatten

def orphansInDir (t : FileTree) (options : OrphanOptions) (dir : Text) (recursive : Bool) :
    Outcome (List Text) := do
  let files ← Outcome.ofExcept (t.findFiles dir [templateExtension] recursive)
  gather (orphans t options) files

def classesInDir (t : FileTree) (dir : Text) (recursive : Bool) : Outcome (List Text) := do
  let files ← Outcome.ofExcept (t.findFiles dir markupExtensions recursive)
  gather (classes t) files

end Scan

end TemplateMarkup
