import TemplateMarkup.Scan.Classes

/-!
Audits: the templates of a directory that cannot be read, and those with a stylesheet of their own that
use classes it does not define.
-/
namespace TemplateMarkup

inductive AuditFinding
  | orphans (names : List Text)
  | failed (message : Text)
deriving DecidableEq, Repr

structure AuditEntry where
  /-- The path of the template from the directory of the audit. -/
  file : Text
  finding : AuditFinding
deriving DecidableEq, Repr

structure AuditReport where
  filesScanned : Nat
  /-- The templates that cannot be read. -/
  failures : Nat := 0
  filesWithOrphans : Nat := 0
  totalOrphans : Nat := 0
  entries : List AuditEntry := []
deriving DecidableEq, Repr

namespace AuditFinding

def names : AuditFinding → List Text
  | orphans ns => ns
  | failed _ => []

def isFailure : AuditFinding → Bool
  | orphans _ => false
  | failed _ => true

/-- The number of orphans that a report shows for a file. -/
def previewLimit : Nat := 5

def text : AuditFinding → Text
  | failed m => "  [Critical] Parse Error: ".toList ++ m ++ ['\n']
  | orphans ns =>
    "  [Warning] Found ".toList ++ Text.decimal ns.length ++
      " potential orphan classes:\n".toList ++
      (ns.take previewLimit).flatMap (fun n => "    - ".toList ++ n ++ ['\n']) ++
      if previewLimit < ns.length then
        "    ... and ".toList ++ Text.decimal (ns.length - previewLimit) ++ " more.\n".toList
      else []

end AuditFinding

namespace AuditReport

/-- Counts what was found in a file and adds the entry. -/
def add (r : AuditReport) (file : Text) : Option AuditFinding → AuditReport
  | none => r
  | some (.orphans names) =>
    { r with
      filesWithOrphans := r.filesWithOrphans + 1
      totalOrphans := r.totalOrphans + names.length
      entries := r.entries ++ [⟨file, .orphans names⟩] }
  | some (.failed message) =>
    { r with
      failures := r.failures + 1
      entries := r.entries ++ [⟨file, .failed message⟩] }

def text (r : AuditReport) : Text :=
  r.entries.flatMap (fun e => "FILE: ".toList ++ e.file ++ ['\n'] ++ e.finding.text) ++
    "Audit Complete.\nFiles Scanned: ".toList ++ Text.decimal r.filesScanned ++
    "\nParse Errors: ".toList ++ Text.decimal r.failures ++ ['\n'] ++
    if r.totalOrphans = 0 then []
    else
      "Orphan Warnings: ".toList ++ Text.decimal r.totalOrphans ++ " classes in ".toList ++
        Text.decimal r.filesWithOrphans ++ " files.\n".toList

end AuditReport

namespace Audit

/-- What there is to report on a template. Without a stylesheet of its own it has no orphans. -/
def finding? (t : FileTree) (options : OrphanOptions) (file : Text) : Outcome (Option AuditFinding) :=
  let found : Outcome (List Text) := do
    let _ ← t.readText file
    if t.has (Path.companionStylesheet file) then Scan.orphans t options file else return []
  match found with
  | .done [] => .done none
  | .done names => .done (some (.orphans names))
  | .failed e => .done (some (.failed e.message))
  | .brokenOff => .brokenOff

def run (t : FileTree) (options : OrphanOptions) (dir : Text) : Outcome AuditReport := do
  let files ← Outcome.ofExcept (t.findFiles dir [templateExtension] true)
  files.foldlM (fun r f => do return r.add (Path.relativeTo dir f) (← finding? t options f))
    { filesScanned := files.length }

end Audit

end TemplateMarkup
