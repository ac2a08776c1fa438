import TemplateMarkup.FileTree.Basic
import TemplateMarkup.Split.Namespace

/-!
Namespaces from projects: a template belongs to the nearest project file above it, and its namespace is
the name of the project with the directories that lead from there to the template.
-/
namespace TemplateMarkup

structure Project where
  /-- The path of the project file. -/
  path : Text
  /-- The names that lead from the project down to the directory it was looked for from. -/
  route : List Text
deriving Repr

namespace Project

def extension : Text := "csproj"

def fileIn? (t : FileTree) (place : Place) : Option Text :=
  (((t.fileNames place).filter fun n =>
    (Path.extension? n).any (Text.equalsFold extension)).mergeSort Text.le).head?

def placeText (place : Place) : Text := Text.joinWith ['/'] place

/-- The path that leads to a place from everywhere, or from the top of a tree with nothing known above. -/
def pathTo (t : FileTree) (place : Place) : Text :=
  if t.workingDir?.isSome then '/' :: placeText place else placeText place

/-- The project in the directory that the first names of a place lead to. -/
def atDepth? (t : FileTree) (place : Place) (depth : Nat) : Option Project :=
  (fileIn? t (place.take depth)).map fun name =>
    ⟨pathTo t (place.take depth ++ [name]), place.drop depth⟩

def above? (t : FileTree) (place : Place) : Option Project :=
  (List.range (place.length + 1)).reverse.findSome? (atDepth? t place)

def onPath? (t : FileTree) (start dir : Text) : Option Project := do
  let name ← fileIn? t (← t.dirPlace? dir)
  let route ← Path.dropParts? (Path.parts start) (Path.parts dir)
  return ⟨Path.join dir name, route.map Path.Part.text⟩

/-- The project that a directory belongs to. A path that leads nowhere is followed upwards by its
text. -/
def find? (t : FileTree) (start : Text) : Option Project :=
  match t.find start with
  | .ok (.dir place) | .ok (.file place _) => above? t place
  | .ok .above => none
  | .ok (.vacant _) | .error _ => (Path.ancestors start).findSome? (onPath? t start)

def namespace? (t : FileTree) (dir : Text) : Option Text :=
  (find? t dir).map fun p =>
    Text.joinWith ['.'] ((Path.stem p.path :: p.route).map Namespace.sanitize)

end Project

/-- The namespace of a template: the one it names, or that of its directory, or the one for templates
about which nothing is known. -/
def Namespace.resolve (t : FileTree) (template path : Text) : Text :=
  match Namespace.explicit? template with
  | some name => name
  | none =>
    let parent := (Path.parent? path).getD []
    (Project.namespace? t (if parent.isEmpty then ['.'] else parent)).getD Namespace.fallback

end TemplateMarkup
