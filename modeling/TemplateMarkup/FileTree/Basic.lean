import TemplateMarkup.Path
import TemplateMarkup.Text.Bytes

/-!
Trees of files. A tree holds all files, or those below a working directory. A path is followed part by
part, from the working directory or from the top; what it leads to can be a directory, a file, or a
vacant place in a directory.
-/
namespace TemplateMarkup

/-- What a file holds: a text, or bytes that are the UTF-8 form of none. -/
inductive Content
  | text (t : Text)
  | binary (bytes : List Nat)
deriving DecidableEq, Repr

def Content.ofBytes (bytes : List Nat) : Content :=
  match Text.decode? bytes with
  | some t => .text t
  | none => .binary bytes

/-- The names that lead from the top of a tree to a file or directory. -/
abbrev Place := List Text

structure FileTree where
  dirs : List Place := []
  files : List (Place × Content) := []
  /-- The working directory in a tree of all files. Without one it is the top of the tree, and nothing
  is known of the directories above it. -/
  workingDir? : Option Place := none
deriving DecidableEq, Repr

/-- Why a path cannot be read or written. -/
inductive FileFault
  | notFound
  | notDirectory
  | isDirectory
  | nameTooLong
  | zeroByte
  | notText
deriving DecidableEq, Repr

def FileFault.message : FileFault → Text
  | notFound => "No such file or directory (os error 2)"
  | notDirectory => "Not a directory (os error 20)"
  | isDirectory => "Is a directory (os error 21)"
  | nameTooLong => "File name too long (os error 36)"
  | zeroByte => "file name contained an unexpected NUL byte"
  | notText => "stream did not contain valid UTF-8"

inductive Found
  | dir (place : Place)
  | file (place : Place) (content : Content)
  | vacant (place : Place)
  /-- A directory above the tree, of which nothing is known. -/
  | above
deriving DecidableEq, Repr

namespace FileTree

def isDirPlace (t : FileTree) (place : Place) : Bool := place.isEmpty || t.dirs.contains place

def content? (t : FileTree) (place : Place) : Option Content :=
  (t.files.find? fun f => f.1 == place).map (·.2)

def lookup (t : FileTree) (place : Place) : Found :=
  if t.isDirPlace place then .dir place
  else
    match t.content? place with
    | some c => .file place c
    | none => .vacant place

def maxName : Nat := 255

def root (t : FileTree) : Found := if t.workingDir?.isSome then .dir [] else .above

def step (t : FileTree) (found : Found) (piece : Text) : Except FileFault Found :=
  match found with
  | .file _ _ => .error .notDirectory
  | .vacant _ => .error .notFound
  | .above =>
    if piece = [] ∨ piece = ['.'] ∨ piece = ['.', '.'] then .ok .above else .error .notFound
  | .dir place =>
    if piece = [] ∨ piece = ['.'] then .ok (.dir place)
    else if piece = ['.', '.'] then
      if place.isEmpty then .ok t.root else .ok (.dir place.dropLast)
    else if maxName < Text.bytes piece then .error .nameTooLong
    else .ok (t.lookup (place ++ [piece]))

def start (t : FileTree) (path : Text) : Found :=
  if Path.isAbsolute path then t.root else .dir (t.workingDir?.getD [])

def find (t : FileTree) (path : Text) : Except FileFault Found :=
  if path.isEmpty then .error .notFound
  else if path.contains '\x00' then .error .zeroByte
  else (Path.pieces path).foldlM t.step (t.start path)

def isFile (t : FileTree) (path : Text) : Bool :=
  match t.find path with
  | .ok (.file _ _) => true
  | _ => false

def isDir (t : FileTree) (path : Text) : Bool :=
  match t.find path with
  | .ok (.dir _) | .ok .above => true
  | _ => false

def has (t : FileTree) (path : Text) : Bool := t.isFile path || t.isDir path

def read (t : FileTree) (path : Text) : Except FileFault Text :=
  match t.find path with
  | .ok (.file _ (.text text)) => .ok text
  | .ok (.file _ (.binary _)) => .error .notText
  | .ok (.dir _) | .ok .above => .error .isDirectory
  | .ok (.vacant _) => .error .notFound
  | .error fault => .error fault

def put (t : FileTree) (place : Place) (content : Content) : FileTree :=
  if t.files.any fun f => f.1 == place then
    { t with files := t.files.map fun f => if f.1 == place then (place, content) else f }
  else { t with files := t.files ++ [(place, content)] }

def write (t : FileTree) (path : Text) (content : Content) : Except FileFault FileTree :=
  match t.find path with
  | .ok (.file place _) | .ok (.vacant place) => .ok (t.put place content)
  | .ok (.dir _) | .ok .above => .error .isDirectory
  | .error fault => .error fault

def nameIn? (place other : Place) : Option Text :=
  if !other.isEmpty && other.dropLast == place then other.getLast? else none

def dirNames (t : FileTree) (place : Place) : List Text := t.dirs.filterMap (nameIn? place)

def fileNames (t : FileTree) (place : Place) : List Text :=
  t.files.filterMap fun f => nameIn? place f.1

def dirPlace? (t : FileTree) (path : Text) : Option Place :=
  match t.find path with
  | .ok (.dir place) => some place
  | _ => none

def parents : Place → List Place
  | [] => []
  | place => (List.range place.length).map fun n => place.take n

/-- Makes a directory and those above it. -/
def addDir (t : FileTree) (place : Place) : FileTree :=
  let missing := (parents place ++ [place]).filter fun p => !p.isEmpty && !t.dirs.contains p
  { t with dirs := t.dirs ++ missing }

/-- Puts content at a place and makes the directories above it. -/
def addFile (t : FileTree) (place : Place) (content : Content) : FileTree :=
  (t.addDir place.dropLast).put place content

end FileTree

end TemplateMarkup
