import ScriptAssist.Session.Server

/-!
# What a message can bring about

A message leaves the documents and the options of a session alone, or it is a
call that the server performs.  This module says so once, with the conditions
under which each case occurs, so that facts about whole runs do not have to go
through the checks on the way of a message again.
-/

namespace ScriptAssist

variable {host : Host}

/-!
# Calls and their methods

Every call belongs to one method, and the parameters of a method read as calls
of that method only.
-/

namespace Call

def method : Call → Method
  | .handshake _ => .handshake
  | .ready => .ready
  | .shutdown => .shutdown
  | .opened _ _ => .didOpen
  | .changed _ _ _ => .didChange
  | .closed _ => .didClose
  | .completion _ _ => .completion
  | .hover _ _ => .hover
  | .resolve _ => .resolve
  | .unserved form name => .unserved form name

def InSession (call : Call) : Prop :=
  call.method ≠ .handshake ∧ call.method ≠ .shutdown

end Call

namespace Method

theorem eq_of_readCall?_unserved {form : Form} {name : String} {params : Option Json}
    {call : Call} (h : (unserved form name).readCall? host params = some call) :
    call = .unserved form name := by
  rw [readCall?] at h
  split at h
  · exact (Option.some.inj h).symm
  · cases h

theorem method_of_readCall? {method : Method} {params : Option Json} {call : Call}
    (h : method.readCall? host params = some call) : call.method = method := by
  cases params with
  | none =>
      cases method with
      | shutdown =>
          cases h
          rfl
      | unserved form name =>
          rw [eq_of_readCall?_unserved h]
          rfl
      | _ =>
          cases h
  | some value =>
      cases method with
      | handshake =>
          simp only [readCall?, readHandshake?, Option.bind_eq_bind,
            Option.bind_eq_some_iff, Option.pure_def, Option.some.injEq] at h
          rcases h with ⟨_, _, _, _, _, _, rfl⟩
          rfl
      | ready =>
          simp only [readCall?, readReady?, Option.bind_eq_bind,
            Option.bind_eq_some_iff, Option.pure_def, Option.some.injEq] at h
          rcases h with ⟨_, _, rfl⟩
          rfl
      | shutdown =>
          cases h
      | exit =>
          cases h
      | cancel =>
          cases h
      | didOpen =>
          simp only [readCall?, readOpened?, Option.bind_eq_bind,
            Option.bind_eq_some_iff, Option.pure_def, Option.some.injEq] at h
          rcases h with ⟨_, _, _, _, _, _, _, _, _, _, _, _, rfl⟩
          rfl
      | didChange =>
          simp only [readCall?, readChanged?, Option.bind_eq_bind,
            Option.bind_eq_some_iff, Option.pure_def, Option.some.injEq] at h
          rcases h with ⟨_, _, _, _, _, _, _, _, _, _, rfl⟩
          rfl
      | didClose =>
          simp only [readCall?, readClosed?, Option.bind_eq_bind,
            Option.bind_eq_some_iff, Option.pure_def, Option.some.injEq] at h
          rcases h with ⟨_, _, _, _, rfl⟩
          rfl
      | completion =>
          simp only [readCall?, readCompletion?, Option.bind_eq_bind,
            Option.bind_eq_some_iff, Option.pure_def, Option.some.injEq] at h
          rcases h with ⟨_, _, _, _, _, _, _, _, rfl⟩
          rfl
      | hover =>
          simp only [readCall?, readHover?, Option.bind_eq_bind,
            Option.bind_eq_some_iff, Option.pure_def, Option.some.injEq] at h
          rcases h with ⟨_, _, _, _, rfl⟩
          rfl
      | resolve =>
          simp only [readCall?, Option.map_eq_some_iff] at h
          rcases h with ⟨_, _, rfl⟩
          rfl
      | unserved form name =>
          rw [eq_of_readCall?_unserved h]
          rfl

end Method

/-- Whether a message has a form and parameters with which its method is a call. -/
def Message.ReadsAs (host : Host) (message : Message) (call : Call) : Prop :=
  Method.ofName? message.method = some call.method ∧
    message.form = call.method.form ∧
    call.method.readCall? host message.params = some call

namespace Server

/-!
# One step

Only the first two cases of an effect leave the phase as it is whatever the
message says; in the last two the server performs a call.
-/

inductive Effect (host : Host) (server : Server) (message : Message) :
    Server × Reaction → Prop where
  | finished :
      server.phase = .ended →
      Effect host server message (server, { reply := .ended })
  | declined (reply : Reply) :
      server.phase ≠ .ended →
      (reply = .silence ∨ ∃ reason, reply = .refusal reason) →
      Effect host server message (server, { reply })
  | exited :
      server.phase ≠ .ended →
      Method.ofName? message.method = some .exit →
      Effect host server message ({ server with phase := .ended }, { reply := .silence })
  -- A shutdown takes effect even if it cannot be answered.
  | stopped (reply : Reply) :
      server.phase = .running →
      Method.ofName? message.method = some .shutdown →
      (reply = .answer .nothing ∨
        reply = .silence ∨ ∃ reason, reply = .refusal reason) →
      Effect host server message ({ server with phase := .stopped }, { reply })
  | started (options : Option Json) :
      server.phase = .waiting →
      message.ReadsAs host (.handshake options) →
      Effect host server message (server.perform host (.handshake options))
  | performed (call : Call) :
      server.phase = .running →
      call.InSession →
      message.ReadsAs host call →
      Effect host server message (server.perform host call)

theorem refuse_eq (form : Form) (reason : Refusal) :
    ∃ reply, (reply = .silence ∨ ∃ reason, reply = .refusal reason) ∧
      refuse form reason = { reply } := by
  cases form with
  | request =>
      exact ⟨.refusal reason, Or.inr ⟨reason, rfl⟩, rfl⟩
  | notification =>
      exact ⟨.silence, Or.inl rfl, rfl⟩

theorem passOver_eq (message : Message) :
    ∃ reply, (reply = .silence ∨ ∃ reason, reply = .refusal reason) ∧
      passOver message = { reply } := by
  unfold passOver
  split
  · exact ⟨.silence, Or.inl rfl, rfl⟩
  · exact refuse_eq message.form .methodNotFound

theorem effect_refuse {server : Server} (message : Message) (reason : Refusal)
    (hphase : server.phase ≠ .ended) :
    Effect host server message (server, refuse message.form reason) := by
  rcases refuse_eq message.form reason with ⟨reply, hreply, heq⟩
  rw [heq]
  exact .declined reply hphase hreply

theorem dispatch_eq (server : Server) {method : Method} {message : Message}
    (hmethod : Method.ofName? message.method = some method) :
    (∃ reason, server.dispatch host method message = (server, refuse message.form reason)) ∨
      ∃ call, call.method = method ∧ message.ReadsAs host call ∧
        server.dispatch host method message = server.perform host call := by
  unfold dispatch
  by_cases hform : message.form = method.form
  · rw [if_neg (not_not_intro hform)]
    cases hread : method.readCall? host message.params with
    | none =>
        exact Or.inl ⟨.invalidParams, rfl⟩
    | some call =>
        have hcall : call.method = method := Method.method_of_readCall? hread
        subst hcall
        exact Or.inr ⟨call, rfl, ⟨hmethod, hform, hread⟩, rfl⟩
  · rw [if_pos hform]
    exact Or.inl ⟨.invalidRequest, rfl⟩

theorem effect_dispatch_waiting {server : Server} {message : Message}
    (hphase : server.phase = .waiting)
    (hmethod : Method.ofName? message.method = some .handshake) :
    Effect host server message (server.dispatch host .handshake message) := by
  rcases server.dispatch_eq hmethod with ⟨reason, heq⟩ | ⟨call, hcall, hread, heq⟩
  · rw [heq]
    exact effect_refuse message reason (by simp [hphase])
  · rw [heq]
    cases call with
    | handshake options =>
        exact .started options hphase hread
    | _ =>
        cases hcall

theorem effect_dispatch_running {server : Server} {method : Method} {message : Message}
    (hphase : server.phase = .running)
    (hmethod : Method.ofName? message.method = some method)
    (hstart : method ≠ .handshake) (hstop : method ≠ .shutdown) :
    Effect host server message (server.dispatch host method message) := by
  rcases server.dispatch_eq hmethod with ⟨reason, heq⟩ | ⟨call, hcall, hread, heq⟩
  · rw [heq]
    exact effect_refuse message reason (by simp [hphase])
  · rw [heq]
    refine .performed call hphase ?_ hread
    rw [Call.InSession, hcall]
    exact ⟨hstart, hstop⟩

theorem effect_dispatch_shutdown {server : Server} {message : Message}
    (hphase : server.phase = .running)
    (hmethod : Method.ofName? message.method = some .shutdown) :
    Effect host server message
      ({ server with phase := .stopped }.dispatch host .shutdown message) := by
  rcases dispatch_eq { server with phase := .stopped } hmethod with
    ⟨reason, heq⟩ | ⟨call, hcall, _, heq⟩
  · rcases refuse_eq message.form reason with ⟨reply, hreply, hrefuse⟩
    rw [heq, hrefuse]
    exact .stopped reply hphase hmethod (Or.inr hreply)
  · rw [heq]
    cases call with
    | shutdown =>
        exact .stopped (.answer .nothing) hphase hmethod (Or.inl rfl)
    | _ =>
        cases hcall

theorem effect_handle {server : Server} {method : Method} {message : Message}
    (hphase : server.phase ≠ .ended)
    (hmethod : Method.ofName? message.method = some method) :
    Effect host server message (server.handle host method message) := by
  -- one goal for each row of the table of methods and phases, in its order
  unfold handle
  split
  · exact .exited hphase hmethod
  · exact effect_refuse message .invalidRequest hphase
  · exact effect_dispatch_waiting ‹_› hmethod
  · exact effect_refuse message .invalidRequest hphase
  · exact effect_refuse message .notStarted hphase
  · exact effect_dispatch_shutdown ‹_› hmethod
  · exact effect_dispatch_running ‹_› hmethod (by assumption) (by assumption)
  · exact effect_refuse message .invalidRequest hphase

/-- Whatever the state and the message, a step has one of the effects. -/
theorem effect_step (host : Host) (server : Server) (message : Message) :
    Effect host server message (server.step host message) := by
  unfold step
  by_cases hphase : server.phase = .ended
  · rw [if_pos hphase]
    exact .finished hphase
  · rw [if_neg hphase]
    cases hmethod : Method.ofName? message.method with
    | none =>
        rcases passOver_eq message with ⟨reply, hreply, heq⟩
        simp only [heq]
        exact .declined reply hphase hreply
    | some method =>
        exact effect_handle hphase hmethod

theorem dispatch_of_readsAs (server : Server) {message : Message} {call : Call}
    (hread : message.ReadsAs host call) :
    server.dispatch host call.method message = server.perform host call := by
  rcases hread with ⟨_, hform, hparams⟩
  rw [dispatch, if_neg (not_not_intro hform), hparams]

/-- A running server performs every call that reaches it, except those that start or
stop it. -/
theorem step_of_readsAs {server : Server} {message : Message} {call : Call}
    (hphase : server.phase = .running) (hsession : call.InSession)
    (hread : message.ReadsAs host call) :
    server.step host message = server.perform host call := by
  have hhandle : server.handle host call.method message =
      server.dispatch host call.method message := by
    unfold handle
    rw [hphase]
    cases call with
    | handshake options =>
        exact absurd rfl hsession.1
    | shutdown =>
        exact absurd rfl hsession.2
    | _ =>
        rfl
  unfold step
  rw [if_neg (by simp [hphase]), hread.1]
  exact hhandle.trans (server.dispatch_of_readsAs hread)

/-!
# Runs

What every step keeps up, between the state and all reactions so far, holds
after every run.
-/

theorem run_invariant {Inv : Server → List Reaction → Prop}
    (hstep : ∀ server past message, Inv server past →
      Inv (server.step host message).1 (past ++ [(server.step host message).2]))
    {server : Server} {past : List Reaction} (h : Inv server past)
    (messages : List Message) :
    Inv (server.run host messages).1 (past ++ (server.run host messages).2) := by
  induction messages generalizing server past with
  | nil =>
      simpa [run] using h
  | cons message rest ih =>
      have hnext := ih (hstep server past message h)
      simpa [run, List.append_assoc] using hnext

theorem run_take (host : Host) (server : Server) (messages : List Message) (count : Nat) :
    (server.run host (messages.take count)).2 = (server.run host messages).2.take count := by
  induction messages generalizing server count with
  | nil =>
      simp [run]
  | cons message rest ih =>
      cases count with
      | zero =>
          rfl
      | succ count =>
          simp [run, ih]

theorem length_run (host : Host) (server : Server) (messages : List Message) :
    (server.run host messages).2.length = messages.length := by
  induction messages generalizing server with
  | nil =>
      rfl
  | cons message rest ih =>
      simp [run, ih]

theorem getElem?_run (host : Host) (server : Server) (messages : List Message) (step : Nat) :
    (server.run host messages).2[step]? =
      messages[step]?.map
        fun message => ((server.run host (messages.take step)).1.step host message).2 := by
  induction messages generalizing server step with
  | nil =>
      simp [run]
  | cons message rest ih =>
      cases step with
      | zero =>
          rfl
      | succ step =>
          exact ih (server.step host message).1 step

end Server

/-!
# Messages as clients write them

The messages of small sessions, and a host on which one script is known, by the
normal form of its URI and by another spelling.
-/

def Host.ofScript : Host where
  platform := .other
  parseUri? text :=
    [("file:///script", "file:///script"),
      ("file:///./script", "file:///script")].lookup text
  accepts _ _ := true

namespace Message

def handshake (fields : Json.Fields) : Message :=
  ⟨"initialize", .request, some (.obj (("capabilities", .obj []) :: fields))⟩

def opening (uri text : String) : Message :=
  ⟨"textDocument/didOpen", .notification, some (.obj [("textDocument", .obj [
    ("uri", .str uri), ("languageId", .str "bamc"), ("version", .nat 1),
    ("text", .str text)])])⟩

def reporting (uri : String) (version : Nat) (changes : List Json) : Message :=
  ⟨"textDocument/didChange", .notification, some (.obj [
    ("textDocument", .obj [("uri", .str uri), ("version", .nat version)]),
    ("contentChanges", .arr changes)])⟩

def closing (uri : String) : Message :=
  ⟨"textDocument/didClose", .notification, some (.obj [
    ("textDocument", .obj [("uri", .str uri)])])⟩

def completing (uri : String) (caret : Position) : Message :=
  ⟨"textDocument/completion", .request, some (.obj [
    ("textDocument", .obj [("uri", .str uri)]),
    ("position", caret.toJson)])⟩

end Message
end ScriptAssist
