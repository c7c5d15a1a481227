import ScriptAssist.Json.Reader
import ScriptAssist.Session.Server

/-!
# Replies and notices as message values

How a client sees what the server sends: findings, answers, refusals with
their numbers, and notices under their method names.
-/

namespace ScriptAssist

def Severity.code : Severity → Nat
  | .error => 1
  | .warning => 2
  | .information => 3
  | .hint => 4

def Diagnostic.toJson (diagnostic : Diagnostic) : Json :=
  .obj [
    ("range", diagnostic.range.toJson),
    ("severity", .nat diagnostic.severity.code),
    ("source", .str diagnostic.source),
    ("message", .str diagnostic.message)]

namespace Refusal

def code : Refusal → Int
  | .methodNotFound => -32601
  | .notStarted => -32002
  | .invalidRequest => -32600
  | .invalidParams => -32602

def message? : Refusal → Option String
  | .methodNotFound => some "Method not found"
  | .notStarted => some "Server not initialized"
  | .invalidRequest => some "Invalid request"
  -- No words are fixed for parameters that do not fit.
  | .invalidParams => none

def toJson (refusal : Refusal) : Json :=
  .ofFields [("code", some (.int refusal.code)), ("message", refusal.message?.map .str)]

end Refusal

namespace Answer

def serverInfo : Json :=
  .obj [("name", .str "bamc-lsp"), ("version", .str "0.1.0")]

def toJson : Answer → Json
  | .handshake options =>
      .obj [("capabilities", options.capabilities), ("serverInfo", serverInfo)]
  | .candidates items => .arr (items.map Item.toJson)
  | .resolved item => item.toJson
  | .nothing => .null

end Answer

def Reply.field? : Reply → Option (String × Json)
  | .answer content => some ("result", content.toJson)
  | .refusal reason => some ("error", reason.toJson)
  | .silence | .ended => none

namespace Notice

def method : Notice → String
  | .publish .. => "textDocument/publishDiagnostics"
  | .ready => "window/logMessage"

def params : Notice → Json
  | .publish uri version diagnostics =>
      .ofFields [
        ("uri", some (.str uri)),
        ("diagnostics", some (.arr (diagnostics.map Diagnostic.toJson))),
        ("version", version.map .int)]
  | .ready =>
      -- A message for the log has the number 3.
      .obj [("type", .nat 3), ("message", .str "BAMC language server ready")]

end Notice

/-!
# Envelopes

On the wire, messages in both directions are objects with a version mark.  A
request carries an identifier, which its response repeats.  The bytes of a
message follow a header that tells their number.
-/

structure Envelope where
  id : Option Json
  message : Message

namespace Envelope

def versionMark : String × Json :=
  ("jsonrpc", .str "2.0")

def ofJson? (value : Json) : Option Envelope := do
  let record ← value.asObject?
  let method ← record.required? "method" Json.asString?
  let id := record "id"
  return {
    id
    message := {
      method
      form := if id.isSome then .request else .notification
      params := record "params" } }

/-- What the server sends when it reacts to a message: its notices, then the
response, if there is one. -/
def outgoing (envelope : Envelope) (reaction : Reaction) : List Json :=
  let notices := reaction.notices.map fun notice =>
    Json.obj [versionMark, ("method", .str notice.method), ("params", notice.params)]
  let response :=
    match envelope.id, reaction.reply.field? with
    | some id, some field => [Json.obj [versionMark, ("id", id), field]]
    | _, _ => []
  notices ++ response

def lengthHeader : Text :=
  "Content-Length:".toList

def length? (line : Text) : Option Nat :=
  if lengthHeader.isPrefixOf line then
    let digits := Text.trim (line.drop lengthHeader.length)
    if !digits.isEmpty && digits.all Char.isDigit then
      some (digits.foldl (fun value c => 10 * value + (c.toNat - '0'.toNat)) 0)
    else
      none
  else
    none

def frame (value : Json) : String :=
  let body := value.write
  String.ofList lengthHeader ++ " " ++ toString body.utf8ByteSize ++ "\r\n\r\n" ++ body

end Envelope
end ScriptAssist
