import TemplateMarkup.Server.Message
import TemplateMarkup.Server.Tool

/-!
The server reads requests line by line. Each finds the files as those before it left them.
-/
namespace TemplateMarkup

/-- A member of an object is smaller than the object. -/
theorem Json.sizeOf_get? {j v : Json} {name : Text} (h : j.get? name = some v) :
    sizeOf v < sizeOf j := by
  cases j with
  | object members =>
    obtain ⟨⟨n, w⟩, found, rfl⟩ := Option.map_eq_some_iff.1 h
    have size := List.sizeOf_lt_of_mem (List.mem_of_find?_eq_some found)
    rw [Prod.mk.sizeOf_spec] at size
    show sizeOf w < sizeOf (Json.object members)
    rw [Json.object.sizeOf_spec]
    omega
  | _ => cases h

namespace Server

def callMethod : Text := "tools/call"

/-- The method and the arguments that a request comes down to; calls may be nested. -/
def resolve (method : Text) (params : Json) : Except Error (Text × Json) :=
  if method = callMethod then
    match (params.get? "name").bind Json.asText? with
    | none => .error (.invalidArgument "tools/call requires a tool name")
    | some name =>
      match h : params.get? "arguments" with
      | none => if name = callMethod then
          .error (.invalidArgument "tools/call requires a tool name")
        else .ok (name, .null)
      | some arguments =>
        have := Json.sizeOf_get? h
        resolve name arguments
  else .ok (method, params)
termination_by sizeOf params

def perform (r : Request) : FileAction Reply :=
  match resolve r.method r.params with
  | .error e => return .failed e
  | .ok (method, params) =>
    match tool? method with
    | none => return .unknownMethod method
    | some tool => do
      match ← (tool params).attempt with
      | .ok value => return .result value
      | .error e => return .failed e

/-- The answer to a line. A request without an id is carried out but not answered. -/
def respond (line : Text) : FileAction (Option Response) :=
  match Request.read line with
  | .error f => return some ⟨.malformed f, .null⟩
  | .ok r => do
    let reply ← perform r
    return r.id.map fun id => ⟨reply, id⟩

def byteLines : List Nat → List (List Nat × Bool)
  | [] => []
  | b :: bs =>
    if b = 0x0A then ([], true) :: byteLines bs
    else
      match byteLines bs with
      | [] => [([b], false)]
      | (line, ended) :: rest => (b :: line, ended) :: rest

/-- The text of a line without what ends it; nothing if it is not UTF-8. -/
def lineOf? (line : List Nat × Bool) : Option Text :=
  (Text.decode? line.1).map fun t => if line.2 then Text.dropReturn t else t

inductive Ending
  | closed
  | notText
  | brokenOff
deriving DecidableEq, Repr

structure Session where
  output : Text
  ending : Ending
  files : FileTree

def serveLines (t : FileTree) : List (List Nat × Bool) → Session
  | [] => ⟨[], .closed, t⟩
  | line :: rest =>
    match lineOf? line with
    | none => ⟨[], .notText, t⟩
    | some text =>
      if text.all isBlank then serveLines t rest
      else
        match respond text t with
        | (.done (some r), t) =>
          let s := serveLines t rest
          { s with output := r.text ++ '\n' :: s.output }
        | (.done none, t) | (.failed _, t) => serveLines t rest
        | (.brokenOff, t) => ⟨[], .brokenOff, t⟩

def serve (t : FileTree) (input : List Nat) : Session := serveLines t (byteLines input)

end Server

end TemplateMarkup
