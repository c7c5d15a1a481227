import ScriptAssist.Proofs.Separation

/-!
# Messages that leave no trace

Questions, messages that come at the wrong time and messages that cannot be
read leave the server as it was.  What it does on the messages before and after
such a message is therefore what it does without it.  In particular a report of
changes is followed as a whole or not at all.
-/

namespace ScriptAssist

variable {host : Host}

/-!
# Lists of changes that cannot be read
-/

theorem Json.asList?_eq_none {α : Type} {element? : Json → Option α}
    {elements : List Json} {element : Json} (hmem : element ∈ elements)
    (h : element? element = none) : Json.asList? element? (.arr elements) = none := by
  rw [Json.asList?]
  induction elements with
  | nil =>
      cases hmem
  | cons first rest ih =>
      rw [List.mapM_cons]
      rcases List.mem_cons.mp hmem with rfl | hrest
      · rw [h]
        rfl
      · rw [ih hrest]
        cases element? first <;> rfl

theorem Method.readCall?_didChange_eq_none {params : Json} {record : Json.Record}
    {changes : List Json} {change : Json}
    (hrecord : params.asRecord? ["textDocument", "contentChanges"] = some record)
    (hchanges : record "contentChanges" = some (.arr changes))
    (hmem : change ∈ changes) (h : Change.ofJson? change = none) :
    Method.didChange.readCall? host (some params) = none := by
  have hlist : record.required? "contentChanges" (Json.asList? Change.ofJson?) = none := by
    rw [Json.Record.required?, hchanges]
    exact Json.asList?_eq_none hmem h
  rw [Option.eq_none_iff_forall_not_mem]
  intro call hcall
  simp only [readCall?, readChanged?, Option.mem_def, Option.bind_eq_bind,
    Option.bind_eq_some_iff, Option.pure_def, Option.some.injEq] at hcall
  rcases hcall with ⟨read, hread, _, _, _, _, _, _, list, hall, _⟩
  rw [hrecord] at hread
  cases hread
  rw [hlist] at hall
  cases hall

def Phase.Admits : Phase → Method → Prop
  | .waiting, method => method = .handshake ∨ method = .exit
  | .running, method => method ≠ .handshake
  | .stopped, method => method = .exit
  | .ended, _ => False

namespace Server

/-!
# The messages
-/

/-- Whether a message is one of those that a server does not take account of. -/
inductive Traceless (host : Host) (server : Server) (message : Message) : Prop where
  -- A question, or word that the client is ready.
  | question (method : Method) :
      Method.ofName? message.method = some method →
      method ∈ [.completion, .hover, .resolve, .ready] →
      Traceless host server message
  | unknown :
      Method.ofName? message.method = none →
      Traceless host server message
  -- A method of the protocol that the server has no use for.
  | unserved (form : Form) (name : String) :
      Method.ofName? message.method = some (.unserved form name) →
      Traceless host server message
  -- A change or the end of a document that is not open.
  | unopened (method : Method) (uri : String) :
      Method.ofName? message.method = some method →
      method ∈ [.didChange, .didClose] →
      message.addressee? host = some uri →
      server.store.get? uri = none →
      Traceless host server message
  -- The phase of the session does not allow the message.
  | untimely (method : Method) :
      Method.ofName? message.method = some method →
      ¬ server.phase.Admits method →
      Traceless host server message
  -- The parameters are missing or of the wrong shape.
  | unreadable (method : Method) :
      Method.ofName? message.method = some method →
      method ≠ .shutdown → method ≠ .exit →
      method.readCall? host message.params = none →
      Traceless host server message
  -- A report of changes of which one is malformed.
  | malformed (params : Json) (record : Json.Record) (changes : List Json)
      (change : Json) :
      Method.ofName? message.method = some .didChange →
      message.params = some params →
      params.asRecord? ["textDocument", "contentChanges"] = some record →
      record "contentChanges" = some (.arr changes) →
      change ∈ changes → Change.ofJson? change = none →
      Traceless host server message
  -- A request sent as a notification, or a notification sent as a request.
  | wrongForm (method : Method) :
      Method.ofName? message.method = some method →
      method ≠ .shutdown → method ≠ .exit →
      message.form ≠ method.form →
      Traceless host server message

/-!
# One step
-/

/-- A message to which a server does not stay as it is gets through in its phase; it
is an exit, a shutdown, or a call that the server performs. -/
theorem step_eq_self_or_acts (host : Host) (server : Server) (message : Message) :
    (server.step host message).1 = server ∨
      ∃ method, Method.ofName? message.method = some method ∧
        server.phase.Admits method ∧
        (method = .exit ∨ method = .shutdown ∨
          ∃ call, message.ReadsAs host call ∧ call.method = method ∧
            (server.step host message).1 = (server.perform host call).1) := by
  have heffect := server.effect_step host message
  generalize server.step host message = outcome at heffect ⊢
  cases heffect with
  | finished hphase =>
      exact Or.inl rfl
  | declined reply hphase hreply =>
      exact Or.inl rfl
  | exited hphase hmethod =>
      refine Or.inr ⟨.exit, hmethod, ?_, Or.inl rfl⟩
      cases h : server.phase <;> simp_all [Phase.Admits]
  | stopped reply hphase hmethod hreply =>
      refine Or.inr ⟨.shutdown, hmethod, ?_, Or.inr (Or.inl rfl)⟩
      simp [hphase, Phase.Admits]
  | started options hphase hread =>
      refine Or.inr ⟨.handshake, hread.1, ?_, Or.inr (Or.inr ⟨_, hread, rfl, rfl⟩)⟩
      simp [hphase, Phase.Admits]
  | performed call hphase hcall hread =>
      refine Or.inr ⟨call.method, hread.1, ?_, Or.inr (Or.inr ⟨call, hread, rfl, rfl⟩)⟩
      rw [hphase]
      exact hcall.1

theorem perform_question (host : Host) (server : Server) {call : Call}
    (h : call.method ∈ [.completion, .hover, .resolve, .ready]) :
    (server.perform host call).1 = server := by
  cases call with
  | completion uri caret =>
      rfl
  | hover uri caret =>
      rfl
  | resolve item =>
      rfl
  | ready =>
      rfl
  | _ =>
      simp [Call.method] at h

theorem perform_unopened {server : Server} {call : Call} {uri : String}
    (hcall : call.method ∈ [.didChange, .didClose]) (huri : call.uri? = some uri)
    (hopen : server.store.get? uri = none) : (server.perform host call).1 = server := by
  cases call with
  | changed name version changes =>
      cases huri
      simp only [perform, hopen]
  | closed name =>
      cases huri
      simp only [perform, Store.close_of_not_open hopen]
  | _ =>
      simp [Call.method] at hcall

theorem step_eq_self {server : Server} {message : Message} {method : Method}
    (hmethod : Method.ofName? message.method = some method)
    (hends : server.phase.Admits method → method ≠ .exit ∧ method ≠ .shutdown)
    (hcalls : ∀ call, message.ReadsAs host call → call.method = method →
      server.phase.Admits method → (server.perform host call).1 = server) :
    (server.step host message).1 = server := by
  rcases server.step_eq_self_or_acts host message with
    hsame | ⟨other, hother, hadmits, hacts⟩
  · exact hsame
  · cases hmethod.symm.trans hother
    rcases hacts with hexit | hshutdown | ⟨call, hread, hcall, hperform⟩
    · exact absurd hexit (hends hadmits).1
    · exact absurd hshutdown (hends hadmits).2
    · exact hperform.trans (hcalls call hread hcall hadmits)

theorem step_of_calls {server : Server} {message : Message} {method : Method}
    (hmethod : Method.ofName? message.method = some method)
    (hshutdown : method ≠ .shutdown) (hexit : method ≠ .exit)
    (hcalls : ∀ call, message.ReadsAs host call → call.method = method →
      (server.perform host call).1 = server) :
    (server.step host message).1 = server := by
  apply step_eq_self hmethod
  · intro _
    exact ⟨hexit, hshutdown⟩
  · intro call hread hcall _
    exact hcalls call hread hcall

theorem Traceless.step {server : Server} {message : Message}
    (h : Traceless host server message) : (server.step host message).1 = server := by
  cases h with
  | question method hmethod hquestion =>
      refine step_of_calls hmethod ?_ ?_ ?_
      · intro hshutdown
        simp [hshutdown] at hquestion
      · intro hexit
        simp [hexit] at hquestion
      · intro call _ hcall
        rw [← hcall] at hquestion
        exact server.perform_question host hquestion
  | unknown hmethod =>
      rcases server.step_eq_self_or_acts host message with hsame | ⟨method, hknown, _⟩
      · exact hsame
      · rw [hmethod] at hknown
        cases hknown
  | unserved form name hmethod =>
      refine step_of_calls hmethod (by simp) (by simp) ?_
      intro call hread hcall
      have hparams := hread.2.2
      rw [hcall] at hparams
      rw [Method.eq_of_readCall?_unserved hparams]
      rfl
  | unopened method uri hmethod hchanges huri hopen =>
      refine step_of_calls hmethod ?_ ?_ ?_
      · intro hshutdown
        simp [hshutdown] at hchanges
      · intro hexit
        simp [hexit] at hchanges
      · intro call hread hcall
        rw [← hcall] at hchanges
        rw [Message.addressee?_eq_uri? hread.1 hread.2.2] at huri
        exact perform_unopened hchanges huri hopen
  | untimely method hmethod hphase =>
      apply step_eq_self hmethod
      · intro hadmits
        exact absurd hadmits hphase
      · intro call _ _ hadmits
        exact absurd hadmits hphase
  | unreadable method hmethod hshutdown hexit hunread =>
      refine step_of_calls hmethod hshutdown hexit ?_
      intro call hread hcall
      have hparams := hread.2.2
      rw [hcall, hunread] at hparams
      cases hparams
  | malformed params record changes change hmethod hparams hrecord hchanges hmem hbad =>
      refine step_of_calls hmethod (by simp) (by simp) ?_
      intro call hread hcall
      have hcalled := hread.2.2
      rw [hcall, hparams,
        Method.readCall?_didChange_eq_none hrecord hchanges hmem hbad] at hcalled
      cases hcalled
  | wrongForm method hmethod hshutdown hexit hform =>
      refine step_of_calls hmethod hshutdown hexit ?_
      intro call hread hcall
      rw [← hcall] at hform
      exact absurd hread.2.1 hform

/-!
# Runs
-/

/-- A session reacts to all messages but a traceless one as it does without it. -/
theorem traceless_unnoticed (host : Host) (before after : List Message)
    (message : Message) (h : Traceless host ((fresh host).run host before).1 message) :
    ((fresh host).run host (before ++ message :: after)).2.eraseIdx before.length =
      ((fresh host).run host (before ++ after)).2 := by
  rw [run_append, run_append]
  simp only [run, h.step]
  rw [List.eraseIdx_append_of_length_le
      (Nat.le_of_eq (length_run host (fresh host) before)),
    length_run, Nat.sub_self, List.eraseIdx_cons_zero]

def openedSession : List Message :=
  [.handshake [], .opening "file:///script" "nope"]

-- The first change of the report could be made, the second has no text.
def partlyMalformed : Message :=
  .reporting "file:///./script" 2 [.obj [("text", .str "visit")], .obj [("text", .null)]]

theorem traceless_unnoticed_malformed :
    Traceless .ofScript ((fresh .ofScript).run .ofScript openedSession).1
        partlyMalformed ∧
      ((fresh .ofScript).run .ofScript (openedSession ++
          partlyMalformed :: [.reporting "file:///./script" 3 []])).2.eraseIdx 2 =
        ((fresh .ofScript).run .ofScript
          (openedSession ++ [.reporting "file:///./script" 3 []])).2 ∧
      (((fresh .ofScript).run .ofScript
          (openedSession ++ [.reporting "file:///./script" 3 []])).2.map
          fun reaction => reaction.notices.length) = [0, 1, 1] := by
  have h : Traceless .ofScript ((fresh .ofScript).run .ofScript openedSession).1
      partlyMalformed :=
    .malformed _ _ _ (.obj [("text", .null)]) rfl rfl rfl rfl (by simp) rfl
  exact ⟨h, traceless_unnoticed .ofScript openedSession _ _ h, by decide +kernel⟩

end Server
end ScriptAssist
