import TemplateMarkup.FileTree.Search
import TemplateMarkup.Region
import TemplateMarkup.Split.CodeBehind
import TemplateMarkup.Split.PathList
import TemplateMarkup.Split.Project
import TemplateMarkup.Scan.Classes

/-!
Splitting template files: code and style move to files beside the template. A batch goes on where one
of its files fails.
-/
namespace TemplateMarkup

namespace Split

structure Parts where
  code : Text
  style : Option Text
  markup : Text
deriving Repr

def partsOf (template : Text) : Parts :=
  { code := Text.joinWith "\n\n"
      (((Region.codeIn template).map (·.content)).filter fun c => !Text.isBlankText c)
    style := (Region.firstStyle? template).filter fun s => !Text.isBlankText s
    markup := Region.markupOf template }

/-- The file for code or style, if one is needed and exists already. -/
def conflict? (t : FileTree) (path : Text) (p : Parts) : Option Text :=
  let cs := Path.codeBehind path
  let css := Path.companionStylesheet path
  if !p.code.isEmpty && t.has cs then some cs
  else if p.style.isSome && t.has css then some css
  else none

def nameOf (path : Text) : Text :=
  (Path.fileName? path).getD (Path.stem path ++ '.' :: templateExtension)

/-- Splits a template; tells so. -/
def file (path : Text) : FileAction Text := do
  if !(← FileAction.look fun t => t.isFile path) then FileAction.fail (.fileNotFound path)
  else
    let template ← FileAction.read path
    let parts := partsOf template
    match ← FileAction.look fun t => conflict? t path parts with
    | some taken => FileAction.fail (.alreadyExists taken)
    | none =>
      if !parts.code.isEmpty then
        let scope ← FileAction.look fun t => Namespace.resolve t template path
        FileAction.write (Path.codeBehind path)
          (CodeBehind.render scope (Namespace.sanitize (Path.stem path)) parts.code)
      if let some style := parts.style then
        FileAction.write (Path.companionStylesheet path) style
      FileAction.write path parts.markup
      return "Successfully split ".toList ++ nameOf path

end Split

inductive BatchStatus
  | ok
  | skipped (reason : Text)
  | failed (reason : Text)
deriving DecidableEq, Repr

structure BatchItem where
  path : Text
  status : BatchStatus
deriving DecidableEq, Repr

structure BatchReport where
  items : List BatchItem := []
deriving Repr

namespace BatchStatus

def isOk : BatchStatus → Bool
  | ok => true
  | _ => false

def isSkipped : BatchStatus → Bool
  | skipped _ => true
  | _ => false

def failure? : BatchStatus → Option Text
  | failed reason => some reason
  | _ => none

end BatchStatus

namespace BatchReport

def processed (r : BatchReport) : Nat := r.items.length

def succeeded (r : BatchReport) : Nat := r.items.countP fun i => i.status.isOk

def skipped (r : BatchReport) : Nat := r.items.countP fun i => i.status.isSkipped

def failed (r : BatchReport) : Nat := r.items.countP fun i => i.status.failure?.isSome

def errors (r : BatchReport) : List (Text × Text) :=
  r.items.filterMap fun i => i.status.failure?.map fun reason => (i.path, reason)

def itemText (i : BatchItem) : Text :=
  let name := (Path.fileName? i.path).getD i.path
  match i.status with
  | .ok => "[OK] ".toList ++ name ++ ['\n']
  | .skipped reason => "[SKIP] ".toList ++ name ++ " (".toList ++ reason ++ ")\n".toList
  | .failed reason => "[ERROR] ".toList ++ name ++ ": ".toList ++ reason ++ ['\n']

def text (r : BatchReport) : Text :=
  "Batch Complete. Processed: ".toList ++ Text.decimal r.processed ++ ", Success: ".toList ++
    Text.decimal r.succeeded ++ ", Skipped: ".toList ++ Text.decimal r.skipped ++
    ", Failed: ".toList ++ Text.decimal r.failed ++ ['\n'] ++ r.items.flatMap itemText

end BatchReport

namespace Split

def batchItem (path : Text) : FileAction BatchItem := do
  if !(← FileAction.look fun t => t.isFile path) then return ⟨path, .skipped "Not Found"⟩
  else
    match ← (file path).attempt with
    | .ok _ => return ⟨path, .ok⟩
    | .error e => return ⟨path, .failed e.message⟩

def batch (paths : List Text) : FileAction BatchReport := do
  return ⟨← paths.mapM batchItem⟩

def loadPaths (t : FileTree) (list : Text) : Outcome (List Text) := do
  return PathList.read (← t.readText list)

def batchOfList (list : Text) : FileAction BatchReport := do
  batch (← FileAction.observe fun t => loadPaths t list)

/-- Splits a template, or all templates of a directory; tells what was done. -/
def path (p : Text) : FileAction Text := do
  if ← FileAction.look fun t => t.isDir p then
    let files ← FileAction.observe fun t => .ofExcept (t.findFiles p [templateExtension] true)
    return (← batch files).text
  else file p

end Split

end TemplateMarkup
