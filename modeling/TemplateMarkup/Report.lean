import TemplateMarkup.Component
import TemplateMarkup.Edit.File
import TemplateMarkup.Json.Basic
import TemplateMarkup.Repetition
import TemplateMarkup.Scan.Audit
import TemplateMarkup.Split.File

/-!
Findings and reports in JSON.
-/
namespace TemplateMarkup

def ComponentUse.toJson (u : ComponentUse) : Json :=
  .record [("tag", .string u.tag), ("attributes", .strings u.attributes), ("line", .ofNat u.line)]

def Repetition.toJson (r : Repetition) : Json :=
  .record [("pattern_preview", .string r.preview), ("occurrence_count", .ofNat r.count),
    ("locations", .array (r.lines.map .ofNat))]

/-- The finding has one member: the orphans or the error. -/
def AuditEntry.toJson (e : AuditEntry) : Json :=
  match e.finding with
  | .orphans names => .record [("file", .string e.file), ("orphans", .strings names)]
  | .failed m => .record [("file", .string e.file), ("error", .string m)]

def AuditReport.toJson (r : AuditReport) : Json :=
  .record [("files_scanned", .ofNat r.filesScanned), ("parse_errors", .ofNat r.failures),
    ("files_with_orphans", .ofNat r.filesWithOrphans), ("total_orphans", .ofNat r.totalOrphans),
    ("entries", .array (r.entries.map AuditEntry.toJson))]

def BatchItem.toJson (i : BatchItem) : Json :=
  match i.status with
  | .ok => .record [("path", .string i.path), ("status", .string "ok")]
  | .skipped reason =>
    .record [("path", .string i.path), ("status", .string "skipped"), ("detail", .string reason)]
  | .failed reason =>
    .record [("path", .string i.path), ("status", .string "error"), ("detail", .string reason)]

def BatchReport.toJson (r : BatchReport) : Json :=
  .record [("items", .array (r.items.map BatchItem.toJson))]

def failuresJson (errors : List (Text × Text)) : Json :=
  .array (errors.map fun e => .record [("path", .string e.1), ("reason", .string e.2)])

def RenameReport.toJson (r : RenameReport) : Json :=
  .record [("processed", .ofNat r.processed), ("modified_files", .strings r.modified),
    ("errors", failuresJson r.errors), ("total_replacements", .ofNat r.replacements)]

end TemplateMarkup
