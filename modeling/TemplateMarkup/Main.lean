import TemplateMarkup.CommandLine

/-!
The program. It reads standard input and writes standard output. Before each request the files that it
can come upon are read, and those it has changed are written afterwards.
-/
namespace TemplateMarkup.Main

def pathOf (place : Place) : String := String.ofList ('/' :: Project.placeText place)

/-- The place that a path leads to, if it leads anywhere. -/
def placeOf? (path : Text) : IO (Option Place) := do
  try
    let real := (← IO.FS.realPath (String.ofList path)).toString
    return some ((Path.pieces real.toList).filter fun p => !p.isEmpty)
  catch _ => return none

def contentAt (place : Place) : IO Content := do
  return Content.ofBytes ((← IO.FS.readBinFile (pathOf place)).toList.map UInt8.toNat)

/-- Adds the files of a directory whose names are wanted, and if asked those of the directories below it.
What cannot be read is left out. -/
partial def addDir (deep : Bool) (wanted : Text → Bool) (t : FileTree) (place : Place) :
    IO FileTree := do
  try
    let entries ← (← IO.FS.realPath (pathOf place)).readDir
    entries.foldlM (fun t entry => do
      let inner := place ++ [entry.fileName.toList]
      if ← entry.path.isDir then
        if deep then addDir deep wanted t inner else return t.addDir inner
      else if wanted entry.fileName.toList then
        try return t.addFile inner (← contentAt inner)
        catch _ => return t
      else return t) (t.addDir place)
  catch _ => return t

/-- Adds what a path leads to, with its neighbours if it is a file, and the projects above it. -/
def addPath (t : FileTree) (path : Text) : IO FileTree := do
  let some place ← placeOf? path | return t
  let isDir ← (← IO.FS.realPath (pathOf place)).isDir
  let t ← addDir isDir (fun _ => true) t (if isDir then place else place.dropLast)
  let isProject (name : Text) := (Path.extension? name).any (Text.equalsFold Project.extension)
  (FileTree.parents place).foldlM (addDir false isProject) t

/-- The files that stand below the working directory or are named by paths. -/
def files (paths : List Text) : IO FileTree := do
  let here ← placeOf? ['.']
  (['.'] :: paths).foldlM addPath { workingDir? := here }

/-- Writes the files that differ from those before. -/
def save (before after : FileTree) : IO Unit := do
  for file in after.files do
    if before.content? file.1 != some file.2 then
      let bytes := match file.2 with
        | .text t => Text.encode t
        | .binary bytes => bytes
      IO.FS.writeBinFile (pathOf file.1) (ByteArray.mk (bytes.map Nat.toUInt8).toArray)

/-- The next line of the input, with the bytes read so far in reverse. -/
partial def readLine (input : IO.FS.Stream) (done : List Nat) : IO (List Nat × Bool) := do
  let next ← input.read 1
  match next.toList with
  | [] => return (done.reverse, false)
  | b :: _ => if b = 0x0A then return (done.reverse, true) else readLine input (b.toNat :: done)

partial def textsIn : Json → List Text
  | .string t => [t]
  | .array items => items.flatMap textsIn
  | .object members => members.flatMap fun m => textsIn m.2
  | _ => []

def pathsIn (line : List Nat) : List Text :=
  match (Text.decode? line).map Server.Request.read with
  | some (.ok request) => textsIn request.params
  | _ => []

partial def serve (input output : IO.FS.Stream) : IO UInt32 := do
  let line ← readLine input []
  if line.1.isEmpty && !line.2 then return 0
  else
    let before ← files (pathsIn line.1)
    let session := Server.serveLines before [line]
    save before session.files
    output.putStr (String.ofList session.output)
    output.flush
    if session.ending = .closed then serve input output
    else return (CommandLine.exitCode session.ending).toUInt32

end TemplateMarkup.Main

open TemplateMarkup in
def main (args : List String) : IO UInt32 := do
  let output ← IO.getStdout
  match CommandLine.Command.ofArguments (args.map String.toList) with
  | .serve => Main.serve (← IO.getStdin) output
  | .audit dir =>
    let done := CommandLine.audit (← Main.files [dir]) dir
    output.putStr (String.ofList done.output)
    return done.code.toUInt32
  | .unknown =>
    (← IO.getStderr).putStrLn (String.ofList CommandLine.usage)
    return 2
