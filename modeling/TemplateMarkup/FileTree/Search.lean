import TemplateMarkup.FileTree.Action
import TemplateMarkup.Glob.PathMatcher

/-!
Searching directories for files.
-/
namespace TemplateMarkup

structure FileSearch where
  extensions : List Text
  recursive : Bool := true
  /-- Without one, hidden directories and those of build output are passed over. -/
  matcher : Option PathMatcher := none

namespace FileSearch

/-- The directories that hold what builds leave behind. -/
def outputDirs : List Text := ["bin".toList, "obj".toList, "node_modules".toList]

/-- The search goes into a directory with the given name, at a path below the root of the search. -/
def entersDir (s : FileSearch) (name relative : Text) : Bool :=
  s.recursive &&
    match s.matcher with
    | some m => m.entersDir relative
    | none => name.head? != some '.' && !outputDirs.contains name

def takesFile (s : FileSearch) (name relative : Text) : Bool :=
  (Path.extension? name).any (fun e => s.extensions.any fun x => Text.equalsFold x e) &&
    s.matcher.all fun m => m.takesFile relative

/-- The files found in a directory and in those below it. -/
def collect (s : FileSearch) (t : FileTree) (root : Text) : (depth : Nat) → (dir : Text) → Place →
    List Text
  | 0, _, _ => []
  | depth + 1, dir, place =>
    let files := (t.fileNames place).filterMap fun name =>
      let path := Path.join dir name
      if s.takesFile name (Path.relativeTo root path) then some path else none
    files ++ (t.dirNames place).flatMap fun name =>
      let path := Path.join dir name
      if s.entersDir name (Path.relativeTo root path) then
        collect s t root depth path (place ++ [name])
      else []

/-- The files found in a directory, in the order of paths. No directory lies deeper than there are
directories. -/
def filesIn (s : FileSearch) (t : FileTree) (dir : Text) : List Text :=
  match t.dirPlace? dir with
  | some place => Path.sort (s.collect t dir (t.dirs.length + 1) dir place)
  | none => []

end FileSearch

namespace FileTree

def requireDir (t : FileTree) (dir : Text) : Except Error Unit :=
  if t.isDir dir then .ok () else .error (.fileNotFound dir)

def findFiles (t : FileTree) (dir : Text) (extensions : List Text) (recursive : Bool) :
    Except Error (List Text) := do
  t.requireDir dir
  return { extensions, recursive : FileSearch }.filesIn t dir

end FileTree

end TemplateMarkup
