import TemplateMarkup.Edit.Basic
import TemplateMarkup.Edit.Merge
import TemplateMarkup.Edit.Rename
import TemplateMarkup.FileTree.Search
import TemplateMarkup.Scan.Classes

/-!
Edits, merges and renamings in files.
-/
namespace TemplateMarkup

namespace Edit

def file (path : Text) (edits : List Edit) : FileAction Unit := do
  let text ← FileAction.read path
  let edited ← FileAction.ofOutcome (Edit.applyAll text edits)
  FileAction.write path edited

end Edit

namespace MergeOptions

/-- Merges the attributes of one file into another one, which is backed up; tells how many elements
took part. -/
def mergeFiles (o : MergeOptions) (logic design : Text) : FileAction Nat := do
  let logicText ← FileAction.read logic
  let designText ← FileAction.read design
  let result ← FileAction.ofOutcome (o.merge logicText designText)
  FileAction.backupOverwrite logic logicText
  FileAction.write logic result.content
  return result.merged

end MergeOptions

structure RenameReport where
  processed : Nat := 0
  modified : List Text := []
  /-- The files that failed, with the reasons. -/
  errors : List (Text × Text) := []
  replacements : Nat := 0
deriving Repr

namespace RenameReport

def text (r : RenameReport) : Text :=
  "Batch Rename Complete. Processed: ".toList ++ Text.decimal r.processed ++ ", Modified: ".toList ++
    Text.decimal r.modified.length ++ ", Replacements: ".toList ++ Text.decimal r.replacements ++
    ", Errors: ".toList ++ Text.decimal r.errors.length ++ ['\n'] ++
    r.modified.flatMap (fun f => "[OK] ".toList ++ f ++ ['\n']) ++
    r.errors.flatMap fun e => "[ERROR] ".toList ++ e.1 ++ ": ".toList ++ e.2 ++ ['\n']

def add (r : RenameReport) (file : Text) : Except Error Nat → RenameReport
  | .ok 0 => { r with processed := r.processed + 1 }
  | .ok n =>
    { r with
      processed := r.processed + 1
      modified := r.modified ++ [file]
      replacements := r.replacements + n }
  | .error e => { r with processed := r.processed + 1, errors := r.errors ++ [(file, e.message)] }

end RenameReport

namespace Rename

/-- Renames a class in a file, which is backed up if it changes; tells how often. -/
def file (old new path : Text) : FileAction Nat := do
  let text ← FileAction.read path
  let (renamed, count) ← FileAction.ofOutcome (.ofOption (Edit.renameClass? text old new))
  if 0 < count then
    let _ ← FileAction.backupOnce path text
    FileAction.write path renamed
  return count

def files (old new : Text) (report : RenameReport) : List Text → FileAction RenameReport
  | [] => return report
  | f :: fs => do files old new (report.add f (← (file old new f).attempt)) fs

def inDir (dir old new : Text) (recursive : Bool) : FileAction RenameReport := do
  FileAction.ofOutcome (.ofExcept (Edit.checkClassName "old" old))
  FileAction.ofOutcome (.ofExcept (Edit.checkClassName "new" new))
  let found ← FileAction.observe fun t => .ofExcept (t.findFiles dir [templateExtension] recursive)
  files old new {} found

end Rename

end TemplateMarkup
