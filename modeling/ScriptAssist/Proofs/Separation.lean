import ScriptAssist.Proofs.Steps

/-!
# Documents do not interfere

Two servers agree on a document if they are in the same phase, have the same
options and hold the same text of it, whatever else they hold.  A message about
another document keeps up this agreement although only one of the two gets it,
and every other message is answered alike by both.  So the messages about other
documents can be left out of a session, and nothing that is left can tell.
-/

namespace ScriptAssist

variable {host : Host}

/-!
# The document that a message is about

A document goes by the normal form of its URI.  Two spellings of one URI name
the same document, and a text that is no URI names none.
-/

namespace Method

/-- The document that the parameters of a method name, for the methods that are
about one.  All but the name may be unreadable. -/
def addressee? (host : Host) : Method → Json → Option String
  | .didOpen, params => do
      let record ← params.asRecord? ["textDocument"]
      let document ← record.required? "textDocument"
        (Json.asRecord? ["uri", "languageId", "version", "text"])
      document.required? "uri" host.uriOf?
  | .didChange, params => do
      let record ← params.asRecord? ["textDocument", "contentChanges"]
      let document ← record.required? "textDocument" (Json.asRecord? ["uri", "version"])
      document.required? "uri" host.uriOf?
  | .didClose, params => do
      let record ← params.asRecord? ["textDocument"]
      record.required? "textDocument" (readUri? host)
  | .completion, params | .hover, params => do
      let record ← params.asObject?
      record.required? "textDocument" (readUri? host)
  | _, _ => none

end Method

def Message.addressee? (host : Host) (message : Message) : Option String := do
  let method ← Method.ofName? message.method
  method.addressee? host (← message.params)

/-- Whether a message is not about another document than the given one. -/
def Message.concerns (host : Host) (uri : String) (message : Message) : Bool :=
  (message.addressee? host).all (· == uri)

def Call.uri? : Call → Option String
  | .opened uri _ | .changed uri _ _ | .closed uri | .completion uri _ | .hover uri _ =>
      some uri
  | .handshake _ | .ready | .shutdown | .resolve _ | .unserved _ _ => none

theorem Method.addressee?_eq_uri? {method : Method} {params : Json} {call : Call}
    (h : method.readCall? host (some params) = some call) :
    method.addressee? host params = call.uri? := by
  have hmethod := method_of_readCall? h
  cases method with
  | didOpen =>
      simp only [readCall?, readOpened?, Option.bind_eq_bind, Option.bind_eq_some_iff,
        Option.pure_def, Option.some.injEq] at h
      rcases h with ⟨record, hrecord, document, hdocument, _, _, uri, huri, _, _, _, _, rfl⟩
      simp [addressee?, hrecord, hdocument, huri, Call.uri?]
  | didChange =>
      simp only [readCall?, readChanged?, Option.bind_eq_bind, Option.bind_eq_some_iff,
        Option.pure_def, Option.some.injEq] at h
      rcases h with ⟨record, hrecord, document, hdocument, uri, huri, _, _, _, _, rfl⟩
      simp [addressee?, hrecord, hdocument, huri, Call.uri?]
  | didClose =>
      simp only [readCall?, readClosed?, Option.bind_eq_bind, Option.bind_eq_some_iff,
        Option.pure_def, Option.some.injEq] at h
      rcases h with ⟨record, hrecord, uri, huri, rfl⟩
      simp [addressee?, hrecord, huri, Call.uri?]
  | completion =>
      simp only [readCall?, readCompletion?, readPlace?, Option.bind_eq_bind,
        Option.bind_eq_some_iff, Option.pure_def, Option.some.injEq] at h
      rcases h with ⟨record, hrecord, _, _, _, _, _,
        ⟨_, _, uri, huri, _, _, rfl⟩, rfl⟩
      simp [addressee?, hrecord, huri, Call.uri?]
  | hover =>
      simp only [readCall?, readHover?, readPlace?, Option.bind_eq_bind,
        Option.bind_eq_some_iff, Option.pure_def, Option.some.injEq] at h
      rcases h with ⟨record, hrecord, _, ⟨_, _, uri, huri, _, _, rfl⟩, rfl⟩
      simp [addressee?, hrecord, huri, Call.uri?]
  | _ =>
      cases call <;> first | rfl | cases hmethod

theorem Message.addressee?_eq_uri? {message : Message} {method : Method} {call : Call}
    (hmethod : Method.ofName? message.method = some method)
    (hread : method.readCall? host message.params = some call) :
    message.addressee? host = call.uri? := by
  rw [Message.addressee?, hmethod]
  cases hparams : message.params with
  | none =>
      rw [hparams] at hread
      cases method with
      | shutdown =>
          cases hread
          rfl
      | unserved form name =>
          rw [Method.eq_of_readCall?_unserved hread]
          rfl
      | _ =>
          cases hread
  | some params =>
      rw [hparams] at hread
      exact Method.addressee?_eq_uri? hread

theorem Message.eq_of_concerns {uri : String} {message : Message}
    (h : message.concerns host uri = true) :
    ∀ name ∈ message.addressee? host, name = uri := by
  intro name hname
  rw [concerns, Option.mem_def.mp hname] at h
  exact eq_of_beq h

theorem Message.exists_other {uri : String} {message : Message}
    (h : message.concerns host uri = false) :
    ∃ name, message.addressee? host = some name ∧ uri ≠ name := by
  cases hname : message.addressee? host with
  | none =>
      rw [concerns, hname] at h
      cases h
  | some name =>
      rw [concerns, hname] at h
      exact ⟨name, rfl, (ne_of_beq_false h).symm⟩

namespace Server

/-!
# Servers that agree on a document
-/

structure Agree (uri : String) (left right : Server) : Prop where
  phase : left.phase = right.phase
  options : left.options = right.options
  document : left.store.get? uri = right.store.get? uri

theorem Agree.refl (uri : String) (server : Server) : Agree uri server server :=
  ⟨rfl, rfl, rfl⟩

theorem Agree.trans {uri : String} {left middle right : Server}
    (hleft : Agree uri left middle) (hright : Agree uri middle right) :
    Agree uri left right :=
  ⟨hleft.phase.trans hright.phase, hleft.options.trans hright.options,
    hleft.document.trans hright.document⟩

theorem Agree.withPhase {uri : String} {left right : Server} (h : Agree uri left right)
    (phase : Phase) : Agree uri { left with phase } { right with phase } :=
  ⟨rfl, h.options, h.document⟩

theorem Agree.publish {uri : String} {left right : Server} (h : Agree uri left right)
    (name : String) (document : Document) :
    left.publish name document = right.publish name document := by
  rw [Server.publish, Server.publish, diagnose, diagnose, h.options]

/-!
# Messages about other documents
-/

theorem agree_perform_other {uri name : String} (hname : uri ≠ name) (server : Server)
    {call : Call} (hcall : call.uri? = some name) :
    Agree uri (server.perform host call).1 server := by
  cases call with
  | opened other document =>
      cases hcall
      exact ⟨rfl, rfl, Store.get?_insert_of_ne server.store hname document⟩
  | changed other version changes =>
      cases hcall
      cases hopen : server.store.get? name with
      | none =>
          simp only [perform, hopen]
          exact Agree.refl uri server
      | some document =>
          simp only [perform, hopen]
          exact ⟨rfl, rfl, Store.get?_change_of_ne server.store hname version changes⟩
  | closed other =>
      cases hcall
      exact ⟨rfl, rfl, Store.get?_close_of_ne server.store hname⟩
  | completion other caret =>
      exact Agree.refl uri server
  | hover other caret =>
      exact Agree.refl uri server
  | _ =>
      cases hcall

theorem agree_step_other {uri name : String} (hname : uri ≠ name) (server : Server)
    {message : Message} (hmessage : message.addressee? host = some name) :
    Agree uri (server.step host message).1 server := by
  have hlifecycle : ∀ method : Method, (∀ params, method.addressee? host params = none) →
      Method.ofName? message.method ≠ some method := by
    intro method hnone hmethod
    rw [Message.addressee?, hmethod] at hmessage
    cases hparams : message.params with
    | none =>
        rw [hparams] at hmessage
        cases hmessage
    | some params =>
        rw [hparams] at hmessage
        exact absurd ((hnone params).symm.trans hmessage) (by simp)
  have heffect := server.effect_step host message
  generalize server.step host message = outcome at heffect ⊢
  cases heffect with
  | finished hphase =>
      exact Agree.refl uri server
  | declined reply hphase hreply =>
      exact Agree.refl uri server
  | exited hphase hmethod =>
      exact absurd hmethod (hlifecycle .exit fun _ => rfl)
  | stopped reply hphase hmethod hreply =>
      exact absurd hmethod (hlifecycle .shutdown fun _ => rfl)
  | started options hphase hread =>
      exact absurd hread.1 (hlifecycle .handshake fun _ => rfl)
  | performed call hphase hcall hread =>
      have huri := Message.addressee?_eq_uri? hread.1 hread.2.2
      exact agree_perform_other hname server (huri.symm.trans hmessage)

/-!
# Messages that both servers get
-/

theorem Agree.perform {uri : String} {left right : Server} (h : Agree uri left right)
    {call : Call} (hcall : ∀ name ∈ call.uri?, name = uri) :
    (left.perform host call).2 = (right.perform host call).2 ∧
      Agree uri (left.perform host call).1 (right.perform host call).1 := by
  cases call with
  | handshake options =>
      exact ⟨rfl, rfl, rfl, h.document⟩
  | opened name document =>
      cases hcall name rfl
      constructor
      · simp only [Server.perform, h.publish]
      · exact ⟨h.phase, h.options, (Store.get?_insert_self _ _ _).trans
          (Store.get?_insert_self _ _ _).symm⟩
  | changed name version changes =>
      cases hcall name rfl
      simp only [Server.perform, h.document]
      cases right.store.get? uri with
      | none =>
          exact ⟨rfl, h⟩
      | some document =>
          refine ⟨?_, h.phase, h.options, ?_⟩
          · simp only [h.publish]
          · simp only [Store.get?_change_self, h.document]
  | closed name =>
      cases hcall name rfl
      refine ⟨rfl, h.phase, h.options, ?_⟩
      simp only [Server.perform, Store.get?_close_self]
  | completion name caret =>
      cases hcall name rfl
      constructor
      · simp only [Server.perform, h.document]
      · exact h
  | _ =>
      exact ⟨rfl, h⟩

theorem Agree.dispatch {uri : String} {left right : Server} (h : Agree uri left right)
    {method : Method} {message : Message}
    (hmethod : Method.ofName? message.method = some method)
    (hmessage : ∀ name ∈ message.addressee? host, name = uri) :
    (left.dispatch host method message).2 = (right.dispatch host method message).2 ∧
      Agree uri (left.dispatch host method message).1
        (right.dispatch host method message).1 := by
  unfold Server.dispatch
  by_cases hform : message.form = method.form
  · rw [if_neg (not_not_intro hform), if_neg (not_not_intro hform)]
    cases hread : method.readCall? host message.params with
    | none =>
        exact ⟨rfl, h⟩
    | some call =>
        rw [Message.addressee?_eq_uri? hmethod hread] at hmessage
        exact h.perform hmessage
  · rw [if_pos hform, if_pos hform]
    exact ⟨rfl, h⟩

theorem Agree.handle {uri : String} {left right : Server} (h : Agree uri left right)
    {method : Method} {message : Message}
    (hmethod : Method.ofName? message.method = some method)
    (hmessage : ∀ name ∈ message.addressee? host, name = uri) :
    (left.handle host method message).2 = (right.handle host method message).2 ∧
      Agree uri (left.handle host method message).1
        (right.handle host method message).1 := by
  simp only [Server.handle, h.phase]
  -- one goal for each row of the table of methods and phases, in its order
  split
  · exact ⟨rfl, h.withPhase .ended⟩
  · exact ⟨rfl, h⟩
  · exact h.dispatch hmethod hmessage
  · exact ⟨rfl, h⟩
  · exact ⟨rfl, h⟩
  · exact (h.withPhase .stopped).dispatch hmethod hmessage
  · exact h.dispatch hmethod hmessage
  · exact ⟨rfl, h⟩

theorem Agree.step {uri : String} {left right : Server} (h : Agree uri left right)
    {message : Message} (hmessage : message.concerns host uri = true) :
    (left.step host message).2 = (right.step host message).2 ∧
      Agree uri (left.step host message).1 (right.step host message).1 := by
  unfold Server.step
  rw [h.phase]
  by_cases hended : right.phase = .ended
  · rw [if_pos hended, if_pos hended]
    exact ⟨rfl, h⟩
  · rw [if_neg hended, if_neg hended]
    cases hmethod : Method.ofName? message.method with
    | none =>
        exact ⟨rfl, h⟩
    | some method =>
        exact h.handle hmethod (Message.eq_of_concerns hmessage)

/-!
# Runs
-/

theorem Agree.run {uri : String} {left right : Server} (h : Agree uri left right)
    (messages : List Message) :
    (right.run host (messages.filter (Message.concerns host uri))).2 =
      ((messages.zip (left.run host messages).2).filter
        fun step => step.1.concerns host uri).map Prod.snd := by
  induction messages generalizing left right with
  | nil =>
      rfl
  | cons message rest ih =>
      rw [Server.run, List.zip_cons_cons]
      cases hconcerns : message.concerns host uri with
      | true =>
          rcases h.step hconcerns with ⟨hreaction, hnext⟩
          simp only [List.filter_cons, hconcerns, if_true]
          rw [Server.run, List.map_cons, ih hnext, hreaction]
      | false =>
          rcases Message.exists_other hconcerns with ⟨name, hmessage, hname⟩
          simp only [List.filter_cons, hconcerns, Bool.false_eq_true, if_false]
          exact ih ((agree_step_other hname left hmessage).trans h)

/-- Without the messages about all documents but one, a session reacts to each of the
others as it does with them. -/
theorem documents_separate (host : Host) (uri : String) (messages : List Message) :
    ((fresh host).run host (messages.filter (Message.concerns host uri))).2 =
      ((messages.zip ((fresh host).run host messages).2).filter
        fun step => step.1.concerns host uri).map Prod.snd :=
  (Agree.refl uri (fresh host)).run messages

-- A document goes by the normal form of its URI, however a message spells it.
example : (Message.closing "file:///./script").concerns .ofScript "file:///script" := by
  decide

end Server
end ScriptAssist
