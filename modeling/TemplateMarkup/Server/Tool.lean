import TemplateMarkup.Diagnostic
import TemplateMarkup.Document.Json
import TemplateMarkup.Edit.Json
import TemplateMarkup.Report

/-!
The tools that requests call, each with the shape of its arguments.
-/
namespace TemplateMarkup.Server

/-- Arguments read against the shape of a tool; absent ones are those of an empty object. -/
def readArguments (shape : Json.Shape) (params : Json) : Outcome Json :=
  match shape.ofValue (if params.isNull then .object [] else params) with
  | .ok j => .done j
  | .error c => .failed (.invalidArgument c.message)

def textArgument (args : Json) (name : Text) : Text := ((args.get? name).bind Json.asText?).getD []

def requireExisting (path : Text) : FileAction Unit := FileAction.observe fun t =>
  if t.has path then .done () else .failed (.fileNotFound path)

inductive Analysis
  | usedClasses
  | orphans
  | tagHelpers
  | validation
  | patterns
  | audit
deriving DecidableEq, Repr

namespace Analysis

def all : List (String × Analysis) :=
  [("usedclasses", usedClasses), ("orphans", orphans), ("taghelpers", tagHelpers),
    ("validation", validation), ("patterns", patterns), ("audit", audit)]

def ofName (name : Text) : Outcome Analysis :=
  match all.find? fun a => a.1.toList == Text.lowerAscii name with
  | some a => .done a.2
  | none =>
    .failed (.invalidArgument ("unknown analysis type '".toList ++ name ++
      "' (expected UsedClasses, Orphans, TagHelpers, Validation, Patterns or Audit)".toList))

def shape : Json.Shape :=
  .record "AnalyzeArgs" [("path".toList, .refused, .path), ("analysisType".toList, .refused, .text),
    ("options".toList, .defaulted, .record "AnalysisOptions"
      [("recursive".toList, .nullable, .optional .boolean),
        ("globalCssPath".toList, .nullable, .optional .path),
        ("ignoreFilePath".toList, .nullable, .optional .path)])]

def config (t : FileTree) (path : Text) (options : Json) : Config :=
  let root := if t.isDir path then path else (Path.parent? path).getD ['.']
  let c := Config.loadDir t root
  { c with
    recursive := ((options.get? "recursive").bind Json.asBool?).getD c.recursive
    globalStylesheet :=
      ((options.get? "globalCssPath").bind Json.asText?).orElse fun _ => c.globalStylesheet
    ignoreFile := ((options.get? "ignoreFilePath").bind Json.asText?).getD c.ignoreFile }

/-- The components that the templates of a directory use; templates that use none are left out. -/
def componentsInDir (t : FileTree) (c : Config) (dir : Text) : Outcome Json := do
  let files ← Outcome.ofExcept (c.templateFiles t dir)
  let uses ← files.mapM fun f => do
    return (Path.relativeTo dir f, Component.usesIn (← t.readText f))
  return .ofMembers ((uses.filter fun u => !u.2.isEmpty).map fun u =>
    (u.1, .array (u.2.map ComponentUse.toJson)))

def run (t : FileTree) (path : Text) (c : Config) : Analysis → Outcome Json
  | usedClasses =>
    .strings <$> if t.isDir path then Scan.classesInDir t path c.recursive else Scan.classes t path
  | orphans =>
    let options := OrphanOptions.ofConfig t c
    .strings <$>
      if t.isDir path then Scan.orphansInDir t options path c.recursive
      else Scan.orphans t options path
  | tagHelpers =>
    if t.isDir path then componentsInDir t c path
    else do return .array ((Component.usesIn (← t.readText path)).map ComponentUse.toJson)
  | validation => do
    return .strings ((diagnose (← t.readText path)).map Diagnostic.message)
  | patterns => do
    return .array ((Repetition.allIn (← t.readText path)).map Repetition.toJson)
  | audit => AuditReport.toJson <$> Audit.run t (OrphanOptions.ofConfig t c) path

end Analysis

def analyze (params : Json) : FileAction Json := do
  let args ← FileAction.ofOutcome (readArguments Analysis.shape params)
  let path := textArgument args "path"
  requireExisting path
  let analysis ← FileAction.ofOutcome (Analysis.ofName (textArgument args "analysisType"))
  FileAction.observe fun t =>
    analysis.run t path (Analysis.config t path ((args.get? "options").getD .null))

namespace Inspection

def shape : Json.Shape :=
  .record "InspectArgs" [("path".toList, .refused, .path),
    ("xpath".toList, .defaulted, .optional .text)]

end Inspection

/-- The elements of a template, all of them or those that a query describes. -/
def inspect (params : Json) : FileAction Json := do
  let args ← FileAction.ofOutcome (readArguments Inspection.shape params)
  let d := Document.read (← FileAction.read (textArgument args "path"))
  let query := textArgument args "xpath"
  if query.all isBlank then return .array (Element.toJsonAll d.elements)
  else
    let found ← FileAction.ofOutcome (.ofExcept (d.selectText query))
    return .array (Element.toJsonAll (found.filterMap d.element?))

namespace Editing

def shape : Json.Shape :=
  .record "EditArgs" [("path".toList, .refused, .path),
    ("operations".toList, .defaulted, .list Edit.shape)]

end Editing

/-- Makes edits in a template; tells how many. -/
def edit (params : Json) : FileAction Json := do
  let args ← FileAction.ofOutcome (readArguments Editing.shape params)
  let path := textArgument args "path"
  let edits := (((args.get? "operations").bind Json.asArray?).getD []).map Edit.ofShaped
  if !(← FileAction.look fun t => t.isFile path) then FileAction.fail (.fileNotFound path)
  else if edits.isEmpty then return .string "No operations provided."
  else
    Edit.file path edits
    return .string ("Applied ".toList ++ Text.decimal edits.length ++ " DOM operations to ".toList ++
      path)

inductive Refactoring
  | split
  | batchSplit
  | batchRename
deriving DecidableEq, Repr

namespace Refactoring

def all : List (String × Refactoring) :=
  [("split", split), ("batchsplit", batchSplit), ("batchrenameclass", batchRename)]

def ofName (name : Text) : Outcome Refactoring :=
  match all.find? fun r => r.1.toList == Text.lowerAscii name with
  | some r => .done r.2
  | none =>
    .failed (.invalidArgument ("unknown refactoring type '".toList ++ name ++
      "' (expected Split, BatchSplit or BatchRenameClass)".toList))

def shape : Json.Shape :=
  .record "RefactorArgs" [("path".toList, .refused, .path),
    ("refactoringType".toList, .refused, .text),
    ("options".toList, .defaulted, .record "RefactorOptions"
      [("oldClass".toList, .nullable, .optional .text),
        ("newClass".toList, .nullable, .optional .text),
        ("recursive".toList, .nullable, .optional .boolean)])]

def rename (path : Text) (options : Json) : FileAction Json :=
  match (options.get? "oldClass").bind Json.asText?, (options.get? "newClass").bind Json.asText? with
  | some old, some new =>
    RenameReport.toJson <$>
      Rename.inDir path old new (((options.get? "recursive").bind Json.asBool?).getD true)
  | _, _ => FileAction.fail (.invalidArgument "BatchRenameClass requires oldClass and newClass")

def run (path : Text) (options : Json) : Refactoring → FileAction Json
  | split => Json.string <$> Split.path path
  | batchSplit => do return .string (← Split.batchOfList path).text
  | batchRename => rename path options

end Refactoring

def refactor (params : Json) : FileAction Json := do
  let args ← FileAction.ofOutcome (readArguments Refactoring.shape params)
  let path := textArgument args "path"
  requireExisting path
  let refactoring ← FileAction.ofOutcome (Refactoring.ofName (textArgument args "refactoringType"))
  refactoring.run path ((args.get? "options").getD .null)

namespace Merging

def shape : Json.Shape :=
  .record "MergeArgs" [("logicPath".toList, .refused, .path), ("designPath".toList, .refused, .path),
    ("options".toList, .defaulted, .optional MergeOptions.shape)]

end Merging

/-- Merges a design into a template; tells how many elements took part. -/
def merge (params : Json) : FileAction Json := do
  let args ← FileAction.ofOutcome (readArguments Merging.shape params)
  let logic := textArgument args "logicPath"
  let design := textArgument args "designPath"
  let options := MergeOptions.ofShaped ((args.get? "options").getD .null)
  let merged ← options.mergeFiles logic design
  return .string ("Merged ".toList ++ Text.decimal merged ++ " elements from ".toList ++ design ++
    " into ".toList ++ logic ++ " (backup: ".toList ++ logic ++ FileAction.backupSuffix ++ [')'])

def tools : List (String × (Json → FileAction Json)) :=
  [("analyze_razor", analyze), ("inspect_razor_dom", inspect), ("edit_razor_dom", edit),
    ("refactor_razor", refactor), ("merge_razor", merge)]

def tool? (name : Text) : Option (Json → FileAction Json) :=
  (tools.find? fun t => t.1.toList == name).map (·.2)

end TemplateMarkup.Server
