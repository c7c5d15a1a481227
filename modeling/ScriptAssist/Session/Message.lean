import ScriptAssist.Completion.Item
import ScriptAssist.Document.Store
import ScriptAssist.Session.ClientShape
import ScriptAssist.Session.Options

/-!
# Messages of a client

A message names a method and may carry parameters.  A request waits for a
response, a notification does not.  A message whose parameters fit its method
is a call; the form in which a method has to be sent is part of the method.
-/

namespace ScriptAssist

/-- What a session takes from the place where it runs. `parseUri?` gives the
normal form of a text that is a URI; two texts name the same document if they
have the same normal form. `accepts` tells whether the parameters of a method
that the server has no use for can be read. -/
structure Host where
  platform : Platform
  parseUri? : String → Option String
  accepts : String → Option Json → Bool

namespace Host

def isUri (host : Host) (text : String) : Bool :=
  (host.parseUri? text).isSome

def uriOf? (host : Host) (value : Json) : Option String :=
  value.asString?.bind host.parseUri?

end Host

inductive Form where
  | request
  | notification
  deriving DecidableEq, Repr

structure Message where
  method : String
  form : Form
  params : Option Json
  deriving Repr

/-- The methods that the server knows. Those of the protocol that it has no use
for are known too, and differ from each other by name and form only. -/
inductive Method where
  | handshake
  | ready
  | shutdown
  | exit
  | cancel
  | didOpen
  | didChange
  | didClose
  | completion
  | hover
  | resolve
  | unserved (form : Form) (name : String)
  deriving DecidableEq, Repr

/-- A message whose parameters have been read. -/
inductive Call where
  | handshake (options : Option Json)
  | ready
  | shutdown
  | opened (uri : String) (document : Document)
  | changed (uri : String) (version : Int) (changes : List Change)
  | closed (uri : String)
  | completion (uri : String) (caret : Position)
  | hover (uri : String) (caret : Position)
  | resolve (item : Item)
  | unserved (form : Form) (name : String)

namespace Method

/-!
# Names of methods
-/

def unservedRequests : List String :=
  ["textDocument/willSaveWaitUntil", "textDocument/declaration",
   "textDocument/definition", "textDocument/typeDefinition",
   "textDocument/implementation", "textDocument/references",
   "textDocument/prepareCallHierarchy", "callHierarchy/incomingCalls",
   "callHierarchy/outgoingCalls", "textDocument/prepareTypeHierarchy",
   "typeHierarchy/supertypes", "typeHierarchy/subtypes",
   "textDocument/documentHighlight", "textDocument/documentLink",
   "documentLink/resolve", "textDocument/codeLens", "codeLens/resolve",
   "textDocument/foldingRange", "textDocument/selectionRange",
   "textDocument/documentSymbol", "textDocument/semanticTokens/full",
   "textDocument/semanticTokens/full/delta", "textDocument/semanticTokens/range",
   "textDocument/inlineValue", "textDocument/inlayHint", "inlayHint/resolve",
   "textDocument/moniker", "textDocument/diagnostic", "workspace/diagnostic",
   "textDocument/signatureHelp", "textDocument/codeAction", "codeAction/resolve",
   "textDocument/documentColor", "textDocument/colorPresentation",
   "textDocument/formatting", "textDocument/rangeFormatting",
   "textDocument/onTypeFormatting", "textDocument/rename",
   "textDocument/prepareRename", "textDocument/linkedEditingRange",
   "workspace/symbol", "workspaceSymbol/resolve", "workspace/willCreateFiles",
   "workspace/willRenameFiles", "workspace/willDeleteFiles",
   "workspace/executeCommand"]

def unservedNotifications : List String :=
  ["textDocument/willSave", "textDocument/didSave",
   "workspace/didChangeConfiguration", "workspace/didChangeWorkspaceFolders",
   "workspace/didCreateFiles", "workspace/didRenameFiles",
   "workspace/didDeleteFiles", "workspace/didChangeWatchedFiles"]

def ofUnservedName? (name : String) : Option Method :=
  if unservedRequests.contains name then some (.unserved .request name)
  else if unservedNotifications.contains name then some (.unserved .notification name)
  else none

def ofName? : String → Option Method
  | "initialize" => some .handshake
  | "initialized" => some .ready
  | "shutdown" => some .shutdown
  | "exit" => some .exit
  | "$/cancelRequest" => some .cancel
  | "textDocument/didOpen" => some .didOpen
  | "textDocument/didChange" => some .didChange
  | "textDocument/didClose" => some .didClose
  | "textDocument/completion" => some .completion
  | "textDocument/hover" => some .hover
  | "completionItem/resolve" => some .resolve
  | name => ofUnservedName? name

def form : Method → Form
  | .handshake | .shutdown | .completion | .hover | .resolve => .request
  | .ready | .exit | .cancel | .didOpen | .didChange | .didClose => .notification
  | .unserved form _ => form

/-!
# Reading parameters

Each reader takes all of its parameters or nothing: a URI that the host does not
read, or one unreadable change among many, makes the whole message unreadable.
-/

section Reading

variable (host : Host)

def readUri? (value : Json) : Option String := do
  let record ← value.asRecord? ["uri"]
  record.required? "uri" host.uriOf?

def readHandshake? (params : Json) : Option Call := do
  let params ← (ClientShape.handshake host.isUri).take? params
  let record ← params.asRecord? ((ClientShape.handshakeFields host.isUri).map Prod.fst)
  -- Of what a client tells about itself, only the options matter to the server.
  return .handshake (← record.optional? "initializationOptions" some)

def readReady? (params : Json) : Option Call := do
  let _ ← params.asRecord? []
  return .ready

def readOpened? (params : Json) : Option Call := do
  let record ← params.asRecord? ["textDocument"]
  let document ← record.required? "textDocument"
    (Json.asRecord? ["uri", "languageId", "version", "text"])
  let _ ← document.required? "languageId" Json.asString?
  return .opened (← document.required? "uri" host.uriOf?) {
    version := ← document.required? "version" Json.asInt32?
    text := (← document.required? "text" Json.asString?).toList }

def readChanged? (params : Json) : Option Call := do
  let record ← params.asRecord? ["textDocument", "contentChanges"]
  let document ← record.required? "textDocument" (Json.asRecord? ["uri", "version"])
  return .changed (← document.required? "uri" host.uriOf?)
    (← document.required? "version" Json.asInt32?)
    (← record.required? "contentChanges" (Json.asList? Change.ofJson?))

def readClosed? (params : Json) : Option Call := do
  let record ← params.asRecord? ["textDocument"]
  return .closed (← record.required? "textDocument" (readUri? host))

def readPlace? (record : Json.Record) : Option (String × Position) := do
  let _ ← record.optional? "workDoneToken" ClientShape.token.take?
  return (← record.required? "textDocument" (readUri? host),
    ← record.required? "position" Position.ofJson?)

def readCompletion? (params : Json) : Option Call := do
  let record ← params.asObject?
  let _ ← record.optional? "partialResultToken" ClientShape.token.take?
  let _ ← record.optional? "context" ClientShape.trigger.take?
  let (uri, caret) ← readPlace? host record
  return .completion uri caret

def readHover? (params : Json) : Option Call := do
  let (uri, caret) ← readPlace? host (← params.asObject?)
  return .hover uri caret

/-- Reads the parameters of a method, if they fit it. A shutdown takes none. -/
def readCall? (method : Method) (params : Option Json) : Option Call :=
  match method, params with
  | .handshake, some params => readHandshake? host params
  | .ready, some params => readReady? params
  | .shutdown, none => some .shutdown
  | .didOpen, some params => readOpened? host params
  | .didChange, some params => readChanged? host params
  | .didClose, some params => readClosed? host params
  | .completion, some params => readCompletion? host params
  | .hover, some params => readHover? host params
  | .resolve, some params => (Item.ofJson? params).map .resolve
  | .unserved form name, params =>
      if host.accepts name params then some (.unserved form name) else none
  | _, _ => none

end Reading

end Method
end ScriptAssist
