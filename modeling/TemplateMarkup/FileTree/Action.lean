import TemplateMarkup.FileTree.Basic
import TemplateMarkup.Outcome

/-!
Actions on a tree of files: what becomes of them, and the tree that they leave.
-/
namespace TemplateMarkup

def FileFault.toError (path : Text) : FileFault → Error
  | notFound => .fileNotFound path
  | fault => .io path fault.message

def FileAction (α : Type) : Type := FileTree → Outcome α × FileTree

namespace FileAction

instance : Monad FileAction where
  pure a := fun t => (.done a, t)
  bind x f := fun t =>
    match x t with
    | (.done a, t) => f a t
    | (.failed e, t) => (.failed e, t)
    | (.brokenOff, t) => (.brokenOff, t)

def fail {α : Type} (e : Error) : FileAction α := fun t => (.failed e, t)

def ofOutcome {α : Type} (x : Outcome α) : FileAction α := fun t => (x, t)

/-- What only looks at the files. -/
def look {α : Type} (f : FileTree → α) : FileAction α := fun t => (.done (f t), t)

/-- What only looks at the files and may fail. -/
def observe {α : Type} (f : FileTree → Outcome α) : FileAction α := fun t => (f t, t)

/-- What becomes of an action, as a value; an action that is broken off stays so. -/
def attempt {α : Type} (x : FileAction α) : FileAction (Except Error α) := fun t =>
  match x t with
  | (.done a, t) => (.done (.ok a), t)
  | (.failed e, t) => (.done (.error e), t)
  | (.brokenOff, t) => (.brokenOff, t)

end FileAction

namespace FileTree

def readText (t : FileTree) (path : Text) : Outcome Text :=
  match t.read path with
  | .ok text => .done text
  | .error fault => .failed (fault.toError path)

end FileTree

namespace FileAction

def read (path : Text) : FileAction Text := observe fun t => t.readText path

def write (path content : Text) : FileAction Unit := fun t =>
  match t.write path (.text content) with
  | .ok t => (.done (), t)
  | .error fault => (.failed (fault.toError path), t)

def backupSuffix : Text := ".bak"

/-- Backs up a file unless there is a backup already; tells whether it did. -/
def backupOnce (path content : Text) : FileAction Bool := do
  let backup := path ++ backupSuffix
  if ← look fun t => t.has backup then return false
  else
    write backup content
    return true

def backupOverwrite (path content : Text) : FileAction Unit := write (path ++ backupSuffix) content

end FileAction

end TemplateMarkup
