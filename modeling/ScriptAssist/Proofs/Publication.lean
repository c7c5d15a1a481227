import ScriptAssist.Proofs.Steps

/-!
# Published findings are never out of date

Whatever a client sends, the last set of findings that it was sent about a
document is the one that belongs to the text and the version which the server
holds, and a document that is not open has no findings left.  The invariant
behind this joins the phase to the documents: as long as the options may still
change, no document is open and nothing has been published.
-/

namespace ScriptAssist

structure Publication where
  version : Option Int
  diagnostics : List Diagnostic
  deriving DecidableEq, Repr

def Notice.publication? (uri : String) : Notice → Option Publication
  | .publish name version diagnostics =>
      if name = uri then some ⟨version, diagnostics⟩ else none
  | .ready => none

def Reaction.publications (uri : String) (reaction : Reaction) : List Publication :=
  reaction.notices.filterMap (Notice.publication? uri)

namespace Server

def publications (uri : String) (reactions : List Reaction) : List Publication :=
  reactions.flatMap (Reaction.publications uri)

/-- Whether a set of findings is what the client has to see last about a document:
the findings about its text when it is open, and none, if there is a set at all,
when it is not. -/
def Current (server : Server) (uri : String) (last : Option Publication) : Prop :=
  match server.store.get? uri with
  | some document =>
      last = some {
        version := some document.version
        diagnostics :=
          if server.options.diagnostics then Script.diagnostics document.text else [] }
  | none => last = none ∨ last = some { version := none, diagnostics := [] }

theorem current_of_get?_some {server : Server} {uri : String} {document : Document}
    (h : server.store.get? uri = some document) :
    server.Current uri
      (some ⟨some document.version, server.diagnose document.text⟩) := by
  rw [Current, h]
  rfl

theorem current_of_get?_none {server : Server} {uri : String}
    (h : server.store.get? uri = none) :
    server.Current uri (some ⟨none, []⟩) := by
  rw [Current, h]
  exact Or.inr rfl

theorem current_congr (server next : Server) {uri : String} {last : Option Publication}
    (hdocument : next.store.get? uri = server.store.get? uri)
    (hoptions : next.options = server.options) :
    next.Current uri last ↔ server.Current uri last := by
  rw [Current, Current, hdocument, hoptions]

theorem publications_append (uri : String) (past : List Reaction) (reaction : Reaction) :
    publications uri (past ++ [reaction]) =
      publications uri past ++ reaction.publications uri := by
  simp [publications]

/-!
# The invariant
-/

structure UpToDate (server : Server) (past : List Reaction) : Prop where
  unopened : server.phase = .waiting →
    ∀ uri, server.store.get? uri = none ∧ publications uri past = []
  current : ∀ uri, server.Current uri (publications uri past).getLast?

theorem upToDate_fresh (host : Host) : UpToDate (fresh host) [] where
  unopened := by
    intro _ uri
    exact ⟨Store.get?_empty uri, rfl⟩
  current := by
    intro uri
    exact Or.inl rfl

/-- A step that publishes nothing keeps the invariant if it touches neither the
documents nor, once there may be some, the options. -/
theorem UpToDate.of_unpublished {server next : Server} {past : List Reaction}
    {reaction : Reaction} (h : UpToDate server past)
    (hstore : next.store = server.store)
    (hoptions : next.options = server.options ∨ server.phase = .waiting)
    (hphase : next.phase = .waiting → server.phase = .waiting)
    (hsilent : ∀ uri, reaction.publications uri = []) :
    UpToDate next (past ++ [reaction]) where
  unopened := by
    intro hwaiting uri
    rw [publications_append, hsilent, List.append_nil, hstore]
    exact h.unopened (hphase hwaiting) uri
  current := by
    intro uri
    rw [publications_append, hsilent, List.append_nil]
    rcases hoptions with hoptions | hwaiting
    · exact (current_congr server next (by rw [hstore]) hoptions).mpr (h.current uri)
    · rcases h.unopened hwaiting uri with ⟨hclosed, hnothing⟩
      rw [hnothing, Current, hstore, hclosed]
      exact Or.inl rfl

theorem UpToDate.of_published {server : Server} {past : List Reaction}
    (h : UpToDate server past) (hphase : server.phase = .running)
    {store : Store} {name : String} {version : Option Int}
    {diagnostics : List Diagnostic} {reply : Reply}
    (hothers : ∀ uri, uri ≠ name → store.get? uri = server.store.get? uri)
    (hself : { server with store }.Current name (some ⟨version, diagnostics⟩)) :
    UpToDate { server with store }
      (past ++ [{ reply, notices := [.publish name version diagnostics] }]) where
  unopened := by
    intro hwaiting
    rw [hphase] at hwaiting
    cases hwaiting
  current := by
    intro uri
    rw [publications_append]
    by_cases huri : uri = name
    · subst huri
      simpa [Reaction.publications, Notice.publication?] using hself
    · have hother : { server with store }.Current uri (publications uri past).getLast? :=
        (current_congr server { server with store } (hothers uri huri) rfl).mpr
          (h.current uri)
      simpa [Reaction.publications, Notice.publication?, Ne.symm huri] using hother

/-!
# Every step keeps it
-/

theorem publications_refuse (uri : String) (form : Form) (reason : Refusal) :
    (refuse form reason).publications uri = [] := by
  cases form <;> rfl

theorem UpToDate.perform (host : Host) {server : Server} {past : List Reaction}
    (h : UpToDate server past) (hphase : server.phase = .running)
    {call : Call} (hcall : call.InSession) :
    UpToDate (server.perform host call).1 (past ++ [(server.perform host call).2]) := by
  have hquiet : ∀ reaction : Reaction, (∀ uri, reaction.publications uri = []) →
      UpToDate server (past ++ [reaction]) := by
    intro reaction hsilent
    exact h.of_unpublished rfl (Or.inl rfl) id hsilent
  cases call with
  | handshake options =>
      exact absurd rfl hcall.1
  | shutdown =>
      exact absurd rfl hcall.2
  | ready =>
      exact hquiet _ fun uri => rfl
  | opened name document =>
      have hself : { server with store := server.store.insert name document }.Current
          name (some ⟨some document.version, server.diagnose document.text⟩) :=
        current_of_get?_some (Store.get?_insert_self server.store name document)
      exact h.of_published hphase
        (fun uri huri => Store.get?_insert_of_ne server.store huri document) hself
  | changed name version changes =>
      cases hopen : server.store.get? name with
      | none =>
          simp only [Server.perform, hopen]
          exact hquiet _ fun uri => rfl
      | some document =>
          have hchanged :
              (server.store.change name version changes).get? name =
                some (document.update version changes) := by
            rw [Store.get?_change_self, hopen, Option.map_some]
          have hself :
              { server with store := server.store.change name version changes }.Current
                name (some ⟨some (document.update version changes).version,
                  server.diagnose (document.update version changes).text⟩) :=
            current_of_get?_some hchanged
          simp only [Server.perform, hopen]
          exact h.of_published hphase
            (fun uri huri => Store.get?_change_of_ne server.store huri version changes)
            hself
  | closed name =>
      have hself : { server with store := server.store.close name }.Current
          name (some ⟨none, []⟩) :=
        current_of_get?_none (Store.get?_close_self server.store name)
      exact h.of_published hphase
        (fun uri huri => Store.get?_close_of_ne server.store huri) hself
  | completion name caret =>
      exact hquiet _ fun uri => rfl
  | hover name caret =>
      exact hquiet _ fun uri => rfl
  | resolve item =>
      exact hquiet _ fun uri => rfl
  | unserved form name =>
      exact hquiet _ fun uri => publications_refuse uri form .methodNotFound

theorem UpToDate.step (host : Host) (server : Server) (past : List Reaction)
    (message : Message) (h : UpToDate server past) :
    UpToDate (server.step host message).1 (past ++ [(server.step host message).2]) := by
  have heffect := server.effect_step host message
  generalize server.step host message = outcome at heffect ⊢
  cases heffect with
  | finished hphase =>
      exact h.of_unpublished rfl (Or.inl rfl) id fun uri => rfl
  | declined reply hphase hreply =>
      exact h.of_unpublished rfl (Or.inl rfl) id fun uri => rfl
  | exited hphase hmethod =>
      exact h.of_unpublished rfl (Or.inl rfl) (by intro hwaiting; cases hwaiting)
        fun uri => rfl
  | stopped reply hphase hmethod hreply =>
      exact h.of_unpublished rfl (Or.inl rfl) (by intro hwaiting; cases hwaiting)
        fun uri => rfl
  | started options hphase hread =>
      exact h.of_unpublished rfl (Or.inr hphase) (fun _ => hphase) fun uri => rfl
  | performed call hphase hcall hread =>
      exact h.perform host hphase hcall

/-- After every step of every session, the client has last been sent what is true of
each document. -/
theorem last_publication_current (host : Host) (messages : List Message) (steps : Nat)
    (uri : String) :
    ((fresh host).run host (messages.take steps)).1.Current uri
      (publications uri (((fresh host).run host messages).2.take steps)).getLast? := by
  have h := run_invariant (UpToDate.step host) (upToDate_fresh host) (messages.take steps)
  rw [List.nil_append, run_take] at h
  exact h.current uri

end Server
end ScriptAssist
