import TemplateMarkup.Error
import TemplateMarkup.Json.Shape

/-!
Requests and responses, each a line of JSON.
-/
namespace TemplateMarkup.Server

structure Request where
  method : Text
  params : Json := .null
  /-- A request without one is not answered. -/
  id : Option Json := none
deriving Repr

inductive Reply
  | result (value : Json)
  | unknownMethod (method : Text)
  | failed (error : Error)
  /-- The line is no request. -/
  | malformed (failure : Json.Failure)

structure Response where
  reply : Reply
  id : Json

namespace Request

def shape : Json.Shape :=
  .record "JsonRpcRequest" [("jsonrpc".toList, .defaulted, .optional .text),
    ("method".toList, .refused, .text), ("params".toList, .defaulted, .any),
    ("id".toList, .defaulted, .optional .any)]

def ofShaped (j : Json) : Request :=
  { method := ((j.get? "method").bind Json.asText?).getD []
    params := (j.get? "params").getD .null
    id := (j.get? "id").filter fun id => !id.isNull }

def read (line : Text) : Except Json.Failure Request := (shape.ofText line).map ofShaped

end Request

namespace Reply

/-- The number of an error and what is said about it; nothing for a result. -/
def error? : Reply → Option (Int × Text)
  | result _ => none
  | unknownMethod m => some (-32601, "Method not found: ".toList ++ m)
  | failed e => some (if e.isInvalidArgument then -32602 else -32000, e.message)
  | malformed f => some (-32700, "Parse error: ".toList ++ f.message)

end Reply

namespace Response

def member (name : Text) (value : Text) : Text := Json.quote name ++ ':' :: value ++ [',']

def body (r : Reply) : Text :=
  match r with
  | .result value => member "result" value.compact
  | r =>
    match r.error? with
    | some (code, message) =>
      member "error" ('\x7b' :: member "code" (Json.wholeText code) ++ "\"message\":".toList ++
        Json.quote message ++ ['\x7d'])
    | none => []

def text (r : Response) : Text :=
  '\x7b' :: member "jsonrpc" "\"2.0\"" ++ body r.reply ++ "\"id\":".toList ++ r.id.compact ++
    ['\x7d']

end Response

end TemplateMarkup.Server
