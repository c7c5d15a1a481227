import ScriptAssist.Completion.Candidates
import ScriptAssist.Script.Diagnostic
import ScriptAssist.Session.Message

/-!
# Sessions

A session goes through phases: it waits for the handshake, runs, is stopped,
and ends.  Documents are followed and questions answered while it runs.  All
that a server does is a function from its state and a message to its next
state, a reply and the notices that it sends to the client on its own account.
The host on which it runs has a part in this by its platform and by what it
takes for a URI.
-/

namespace ScriptAssist

inductive Phase where
  | waiting
  | running
  | stopped
  | ended
  deriving DecidableEq, Repr

structure Server where
  phase : Phase
  options : Options
  store : Store

inductive Refusal where
  | methodNotFound
  | notStarted
  | invalidRequest
  | invalidParams
  deriving DecidableEq, Repr

inductive Answer where
  | handshake (options : Options)
  | candidates (items : List Item)
  | resolved (item : Item)
  | nothing

inductive Reply where
  | silence
  | answer (content : Answer)
  | refusal (reason : Refusal)
  | ended

inductive Notice where
  -- All findings about a document, in place of earlier ones.
  | publish (uri : String) (version : Option Int) (diagnostics : List Diagnostic)
  | ready
  deriving DecidableEq, Repr

/-- What a message brings about outside the server. -/
structure Reaction where
  reply : Reply
  notices : List Notice := []

namespace Server

def fresh (host : Host) : Server where
  phase := .waiting
  options := .standard host.platform
  store := .empty

def diagnose (server : Server) (text : Text) : List Diagnostic :=
  if server.options.diagnostics then Script.diagnostics text else []

def publish (server : Server) (uri : String) (document : Document) : Notice :=
  .publish uri (some document.version) (server.diagnose document.text)

def refuse (form : Form) (reason : Refusal) : Reaction :=
  match form with
  | .request => { reply := .refusal reason }
  | .notification => { reply := .silence }

/-!
# Calls

What a running server does when a message has been read.  Findings are told only
to a client that wants them, and of a refusal only a request is told.
-/

section Steps

variable (host : Host)

/-- What a running server does on a call. -/
def perform (server : Server) : Call → Server × Reaction
  | .handshake options =>
      let chosen := Options.ofRequest host.platform options
      ({ server with phase := .running, options := chosen },
        { reply := .answer (.handshake chosen) })
  | .ready => (server, { reply := .silence, notices := [.ready] })
  | .shutdown => (server, { reply := .answer .nothing })
  | .opened uri document =>
      ({ server with store := server.store.insert uri document },
        { reply := .silence, notices := [server.publish uri document] })
  | .changed uri version changes =>
      match server.store.get? uri with
      | none => (server, { reply := .silence })
      | some document =>
          ({ server with store := server.store.change uri version changes },
            { reply := .silence
              notices := [server.publish uri (document.update version changes)] })
  | .closed uri =>
      ({ server with store := server.store.close uri },
        { reply := .silence, notices := [.publish uri none []] })
  | .completion uri caret =>
      let items :=
        match server.store.get? uri with
        | none => []
        | some document => Script.completions document.text caret
      (server,
        { reply := .answer (if items.isEmpty then .nothing else .candidates items) })
  | .hover _ _ => (server, { reply := .answer .nothing })
  | .resolve item => (server, { reply := .answer (.resolved item.resolve) })
  | .unserved form _ => (server, refuse form .methodNotFound)

/-!
# Messages

A message with a known method has to come in a phase that allows it and in the
form of its method, with parameters that can be read.  After the end of the
session nothing happens any more.
-/

def dispatch (server : Server) (method : Method) (message : Message) :
    Server × Reaction :=
  if message.form ≠ method.form then
    (server, refuse message.form .invalidRequest)
  else
    match method.readCall? host message.params with
    | none => (server, refuse message.form .invalidParams)
    | some call => server.perform host call

/-- Handles a message with a known method. A shutdown takes effect in whatever
form it is sent. To cancel a request is of no avail, since every request is
answered before the next message is read. -/
def handle (server : Server) (method : Method) (message : Message) :
    Server × Reaction :=
  match method, server.phase with
  | .exit, _ => ({ server with phase := .ended }, { reply := .silence })
  | .cancel, _ => (server, refuse message.form .invalidRequest)
  | .handshake, .waiting => server.dispatch host method message
  | .handshake, _ => (server, refuse message.form .invalidRequest)
  | _, .waiting => (server, refuse message.form .notStarted)
  | .shutdown, .running => { server with phase := .stopped }.dispatch host method message
  | _, .running => server.dispatch host method message
  | _, _ => (server, refuse message.form .invalidRequest)

def passOver (message : Message) : Reaction :=
  -- Methods that start with these characters may be passed over by any server.
  if ['$', '/'].isPrefixOf message.method.toList then { reply := .silence }
  else refuse message.form .methodNotFound

/-- Handles one message: what the server is afterwards, and how it reacts. -/
def step (server : Server) (message : Message) : Server × Reaction :=
  if server.phase = .ended then
    (server, { reply := .ended })
  else
    match Method.ofName? message.method with
    | none => (server, passOver message)
    | some method => server.handle host method message

def run (server : Server) : List Message → Server × List Reaction
  | [] => (server, [])
  | message :: rest =>
      let now := server.step host message
      let later := now.1.run rest
      (later.1, now.2 :: later.2)

theorem run_append (server : Server) (first second : List Message) :
    server.run host (first ++ second) =
      (((server.run host first).1.run host second).1,
        (server.run host first).2 ++ ((server.run host first).1.run host second).2) := by
  induction first generalizing server with
  | nil =>
      rfl
  | cons message rest ih =>
      simp [run, ih]

end Steps

end Server
end ScriptAssist
