import TemplateMarkup.Server.Basic

/-!
The command line: an audit of a directory, or the server.
-/
namespace TemplateMarkup.CommandLine

inductive Command
  | audit (dir : Text)
  | serve
  | unknown
deriving DecidableEq, Repr

def Command.ofArguments : List Text → Command
  | [] => .serve
  | [name, dir] => if name = "audit".toList then .audit dir else .unknown
  | _ => .unknown

def usage : Text := "usage: razor-markup [audit <dir>]"

/-- What a run of the program leaves: its exit code and its output. -/
structure Exit where
  code : Nat
  output : Text := []
deriving DecidableEq, Repr

def brokenCode : Nat := 101

def audit (t : FileTree) (dir : Text) : Exit :=
  match Audit.run t (OrphanOptions.ofConfig t (Config.loadDir t dir)) dir with
  | .done report => ⟨0, report.text ++ ['\n']⟩
  | .failed _ => ⟨1, []⟩
  | .brokenOff => ⟨brokenCode, []⟩

def exitCode : Server.Ending → Nat
  | .closed => 0
  | .notText => 1
  | .brokenOff => brokenCode

def run (t : FileTree) (arguments : List Text) (input : List Nat) : Exit × FileTree :=
  match Command.ofArguments arguments with
  | .audit dir => (audit t dir, t)
  | .serve =>
    let session := Server.serve t input
    (⟨exitCode session.ending, session.output⟩, session.files)
  | .unknown => (⟨2, []⟩, t)

end TemplateMarkup.CommandLine
