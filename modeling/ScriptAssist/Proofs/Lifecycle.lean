import ScriptAssist.Proofs.Steps

/-!
# The course of a session

A session starts with the one handshake that is answered.  Until then it has
the default options and no document; from then on its options stay as they are.
All that it tells its client unasked, and all that happens to its documents,
lies between the handshake and the first message that shuts it down or ends it,
and after the end there is only silence.

The phase carries the proof: no step leads back to an earlier phase, so what a
phase rules out is ruled out for the rest of the session.
-/

namespace ScriptAssist

def Reaction.Starts (reaction : Reaction) : Prop :=
  ∃ options, reaction.reply = .answer (.handshake options)

namespace Server

variable {host : Host}

/-!
# One step
-/

theorem not_starts_of_declined {reply : Reply}
    (h : reply = .silence ∨ ∃ reason, reply = .refusal reason) :
    ¬ Reaction.Starts { reply } := by
  intro hstarts
  rcases hstarts with ⟨options, hreply⟩
  rcases h with rfl | ⟨reason, rfl⟩
  · cases hreply
  · cases hreply

theorem not_starts_perform (host : Host) (server : Server) {call : Call}
    (h : call.InSession) :
    ¬ (server.perform host call).2.Starts := by
  intro hstarts
  rcases hstarts with ⟨options, hreply⟩
  cases call with
  | handshake given =>
      exact h.1 rfl
  | changed uri version changes =>
      rw [perform] at hreply
      split at hreply <;> cases hreply
  | completion uri caret =>
      have hanswer : ∀ items : List Item,
          (if items.isEmpty then Answer.nothing else .candidates items) ≠
            .handshake options := by
        intro items
        split <;> simp
      exact hanswer _ (Reply.answer.inj hreply)
  | unserved form name =>
      rcases refuse_eq form .methodNotFound with ⟨reply, hdeclined, heq⟩
      rw [perform, heq] at hreply
      exact not_starts_of_declined hdeclined ⟨options, hreply⟩
  | _ =>
      cases hreply

theorem perform_inSession (host : Host) (server : Server) {call : Call}
    (h : call.InSession) :
    (server.perform host call).1.phase = server.phase ∧
      (server.perform host call).1.options = server.options := by
  cases call with
  | handshake options =>
      exact absurd rfl h.1
  | changed uri version changes =>
      rw [perform]
      split <;> exact ⟨rfl, rfl⟩
  | _ =>
      exact ⟨rfl, rfl⟩

theorem starts_step {server : Server} {message : Message}
    (h : (server.step host message).2.Starts) :
    server.phase = .waiting ∧
      ∃ options, message.ReadsAs host (.handshake options) ∧
        (server.step host message).1.phase = .running ∧
        (server.step host message).1.options = Options.ofRequest host.platform options := by
  have heffect := server.effect_step host message
  generalize server.step host message = outcome at heffect h ⊢
  cases heffect with
  | finished hphase =>
      rcases h with ⟨options, hreply⟩
      cases hreply
  | declined reply hphase hreply =>
      exact absurd h (not_starts_of_declined hreply)
  | exited hphase hmethod =>
      exact absurd h (not_starts_of_declined (Or.inl rfl))
  | stopped reply hphase hmethod hreply =>
      rcases hreply with rfl | hreply
      · rcases h with ⟨options, hanswer⟩
        cases hanswer
      · exact absurd h (not_starts_of_declined hreply)
  | started options hphase hread =>
      exact ⟨hphase, options, hread, rfl, rfl⟩
  | performed call hphase hcall hread =>
      exact absurd h (not_starts_perform host server hcall)

theorem step_started (host : Host) {server : Server} (message : Message)
    (h : server.phase ≠ .waiting) :
    (server.step host message).1.phase ≠ .waiting ∧
      (server.step host message).1.options = server.options := by
  have heffect := server.effect_step host message
  generalize server.step host message = outcome at heffect ⊢
  cases heffect with
  | finished hphase =>
      exact ⟨h, rfl⟩
  | declined reply hphase hreply =>
      exact ⟨h, rfl⟩
  | exited hphase hmethod =>
      exact ⟨by simp, rfl⟩
  | stopped reply hphase hmethod hreply =>
      exact ⟨by simp, rfl⟩
  | started options hphase hread =>
      exact absurd hphase h
  | performed call hphase hcall hread =>
      rcases server.perform_inSession host hcall with ⟨hsame, hoptions⟩
      exact ⟨by rwa [hsame], hoptions⟩

structure Untouched (host : Host) (server : Server) : Prop where
  phase : server.phase = .waiting ∨ server.phase = .ended
  options : server.options = .standard host.platform
  store : server.store = .empty

theorem untouched_fresh : Untouched host (fresh host) :=
  ⟨Or.inl rfl, rfl, rfl⟩

theorem Untouched.phase_ne_running {server : Server} (h : Untouched host server) :
    server.phase ≠ .running := by
  rcases h.phase with hwaiting | hended
  · simp [hwaiting]
  · simp [hended]

theorem Untouched.step {server : Server} (h : Untouched host server) {message : Message}
    (hstarts : ¬ (server.step host message).2.Starts) :
    Untouched host (server.step host message).1 := by
  have heffect := server.effect_step host message
  generalize server.step host message = outcome at heffect hstarts ⊢
  cases heffect with
  | finished hphase =>
      exact h
  | declined reply hphase hreply =>
      exact h
  | exited hphase hmethod =>
      exact ⟨Or.inr rfl, h.options, h.store⟩
  | stopped reply hphase hmethod hreply =>
      exact absurd hphase h.phase_ne_running
  | started options hphase hread =>
      exact absurd ⟨Options.ofRequest host.platform options, rfl⟩ hstarts
  | performed call hphase hcall hread =>
      exact absurd hphase h.phase_ne_running

theorem running_of_active {server : Server} {message : Message}
    (h : (server.step host message).2.notices ≠ [] ∨
      (server.step host message).1.store ≠ server.store) :
    server.phase = .running ∧ (server.step host message).1.phase = .running := by
  have heffect := server.effect_step host message
  generalize server.step host message = outcome at heffect h ⊢
  cases heffect with
  | performed call hphase hcall hread =>
      exact ⟨hphase, (server.perform_inSession host hcall).1.trans hphase⟩
  | _ =>
      rcases h with h | h
      · exact absurd rfl h
      · exact absurd rfl h

def Closed (server : Server) : Prop :=
  server.phase = .stopped ∨ server.phase = .ended

theorem Closed.phase_ne {server : Server} (h : Closed server) :
    server.phase ≠ .waiting ∧ server.phase ≠ .running := by
  rcases h with hstopped | hended
  · simp [hstopped]
  · simp [hended]

theorem Closed.step (host : Host) {server : Server} (h : Closed server) (message : Message) :
    Closed (server.step host message).1 := by
  have heffect := server.effect_step host message
  generalize server.step host message = outcome at heffect ⊢
  cases heffect with
  | finished hended =>
      exact h
  | declined reply hopen hreply =>
      exact h
  | exited hopen hmethod =>
      exact Or.inr rfl
  | stopped reply hrunning hmethod hreply =>
      exact absurd hrunning h.phase_ne.2
  | started options hwaiting hread =>
      exact absurd hwaiting h.phase_ne.1
  | performed call hrunning hcall hread =>
      exact absurd hrunning h.phase_ne.2

theorem step_of_ended (host : Host) {server : Server} (h : server.phase = .ended)
    (message : Message) :
    server.step host message = (server, { reply := .ended }) := by
  rw [step, if_pos h]

theorem ended_step_exit (host : Host) (server : Server) {message : Message}
    (h : message.method = "exit") : (server.step host message).1.phase = .ended := by
  have hmethod : Method.ofName? message.method = some .exit := by
    rw [h]
    rfl
  by_cases hended : server.phase = .ended
  · rw [step_of_ended host hended]
    exact hended
  · rw [step, if_neg hended]
    simp only [hmethod, handle]

theorem dispatch_shutdown (host : Host) (server : Server) {message : Message}
    (h : Method.ofName? message.method = some .shutdown) :
    (server.dispatch host .shutdown message).1 = server := by
  rcases server.dispatch_eq h with ⟨reason, heq⟩ | ⟨call, hcall, _, heq⟩
  · rw [heq]
  · rw [heq]
    cases call with
    | shutdown =>
        rfl
    | _ =>
        cases hcall

theorem closed_step_shutdown (host : Host) {server : Server}
    (hstarted : server.phase ≠ .waiting) {message : Message} (h : message.method = "shutdown") :
    Closed (server.step host message).1 := by
  have hmethod : Method.ofName? message.method = some .shutdown := by
    rw [h]
    rfl
  cases hphase : server.phase with
  | waiting =>
      exact absurd hphase hstarted
  | running =>
      left
      rw [step, if_neg (by simp [hphase])]
      simp only [hmethod, handle, hphase, dispatch_shutdown host _ hmethod]
  | stopped =>
      exact Closed.step host (Or.inl hphase) message
  | ended =>
      exact Closed.step host (Or.inr hphase) message

/-!
# Steps of a session

The steps of a session are counted from zero; each has the state that the steps
before it lead to, and a reaction.
-/

def stateAt (host : Host) (messages : List Message) (step : Nat) : Server :=
  ((fresh host).run host (messages.take step)).1

theorem stateAt_succ {messages : List Message} {step : Nat} {message : Message}
    (h : messages[step]? = some message) :
    stateAt host messages (step + 1) =
      ((stateAt host messages step).step host message).1 := by
  rw [stateAt, stateAt, List.take_add_one, h, run_append]
  rfl

theorem stateAt_succ_of_none {messages : List Message} {step : Nat}
    (h : messages[step]? = none) :
    stateAt host messages (step + 1) = stateAt host messages step := by
  rw [stateAt, stateAt, List.take_add_one, h, Option.toList_none, List.append_nil]

/-- What no step gives up, once it holds, holds for the rest of a session. -/
theorem stateAt_stable {P : Server → Prop}
    (hstep : ∀ server message, P server → P (server.step host message).1)
    (messages : List Message) {first last : Nat} (hle : first ≤ last)
    (h : P (stateAt host messages first)) : P (stateAt host messages last) := by
  induction hle with
  | refl =>
      exact h
  | @step last _ ih =>
      cases hmessage : messages[last]? with
      | none =>
          rwa [stateAt_succ_of_none hmessage]
      | some message =>
          rw [stateAt_succ hmessage]
          exact hstep _ message ih

def StartsAt (host : Host) (messages : List Message) (step : Nat) : Prop :=
  ∃ reaction, ((fresh host).run host messages).2[step]? = some reaction ∧ reaction.Starts

def ExitsAt (messages : List Message) (step : Nat) : Prop :=
  ∃ message, messages[step]? = some message ∧ message.method = "exit"

/-- Whether a step is a message that shuts the session down: one that comes before
the handshake does not. -/
def ShutsDownAt (host : Host) (messages : List Message) (step : Nat) : Prop :=
  (∃ message, messages[step]? = some message ∧ message.method = "shutdown") ∧
    ∃ start < step, StartsAt host messages start

theorem startsAt_iff (host : Host) (messages : List Message) (step : Nat) :
    StartsAt host messages step ↔
      ∃ message, messages[step]? = some message ∧
        ((stateAt host messages step).step host message).2.Starts := by
  rw [StartsAt, getElem?_run]
  constructor
  · intro h
    rcases h with ⟨reaction, hreaction, hstarts⟩
    rcases Option.map_eq_some_iff.mp hreaction with ⟨message, hmessage, rfl⟩
    exact ⟨message, hmessage, hstarts⟩
  · intro h
    rcases h with ⟨message, hmessage, hstarts⟩
    rw [hmessage]
    exact ⟨_, rfl, hstarts⟩

/-!
# The handshake
-/

theorem stateAt_of_startsAt {messages : List Message} {start : Nat}
    (h : StartsAt host messages start) :
    (stateAt host messages start).phase = .waiting ∧
      ∃ message options, messages[start]? = some message ∧
        message.ReadsAs host (.handshake options) ∧
        ∀ step, start < step →
          (stateAt host messages step).phase ≠ .waiting ∧
            (stateAt host messages step).options =
              Options.ofRequest host.platform options := by
  rcases (startsAt_iff host messages start).mp h with ⟨message, hmessage, hstarts⟩
  rcases starts_step hstarts with ⟨hwaiting, options, hread, hrunning, hoptions⟩
  refine ⟨hwaiting, message, options, hmessage, hread, ?_⟩
  intro step hstep
  have hstable : ∀ (server : Server) (message : Message),
      server.phase ≠ .waiting ∧ server.options = Options.ofRequest host.platform options →
        (server.step host message).1.phase ≠ .waiting ∧
          (server.step host message).1.options =
            Options.ofRequest host.platform options := by
    intro server message hserver
    rcases hserver with ⟨hphase, hsame⟩
    rcases step_started host message hphase with ⟨hnext, hkept⟩
    exact ⟨hnext, hkept.trans hsame⟩
  refine stateAt_stable hstable messages (Nat.succ_le_of_lt hstep) ?_
  rw [stateAt_succ hmessage]
  exact ⟨by simp [hrunning], hoptions⟩

theorem not_startsAt_of_lt {messages : List Message} {first second : Nat}
    (hfirst : StartsAt host messages first) (hlt : first < second) :
    ¬ StartsAt host messages second := by
  intro hsecond
  rcases stateAt_of_startsAt hfirst with ⟨_, _, _, _, _, hlater⟩
  exact (hlater second hlt).1 (stateAt_of_startsAt hsecond).1

theorem untouched_stateAt {messages : List Message} {step : Nat}
    (h : ∀ earlier < step, ¬ StartsAt host messages earlier) :
    Untouched host (stateAt host messages step) := by
  induction step with
  | zero =>
      exact untouched_fresh
  | succ step ih =>
      have hbefore := ih fun earlier hlt => h earlier (Nat.lt_succ_of_lt hlt)
      cases hmessage : messages[step]? with
      | none =>
          rwa [stateAt_succ_of_none hmessage]
      | some message =>
          rw [stateAt_succ hmessage]
          refine hbefore.step ?_
          intro hstarts
          exact h step (Nat.lt_succ_self step)
            ((startsAt_iff host messages step).mpr ⟨message, hmessage, hstarts⟩)

/-!
# The end
-/

theorem ended_of_exitsAt (host : Host) {messages : List Message} {exit step : Nat}
    (h : ExitsAt messages exit) (hlt : exit < step) :
    (stateAt host messages step).phase = .ended := by
  rcases h with ⟨message, hmessage, hexit⟩
  refine stateAt_stable (P := fun server => server.phase = .ended) ?_ messages
    (Nat.succ_le_of_lt hlt) ?_
  · intro server message hended
    rwa [step_of_ended host hended]
  · rw [stateAt_succ hmessage]
    exact ended_step_exit host _ hexit

theorem closed_of_shutsDownAt {messages : List Message} {shutdown step : Nat}
    (h : ShutsDownAt host messages shutdown) (hlt : shutdown < step) :
    Closed (stateAt host messages step) := by
  rcases h with ⟨⟨message, hmessage, hshutdown⟩, start, hstart, hstarts⟩
  rcases stateAt_of_startsAt hstarts with ⟨_, _, _, _, _, hlater⟩
  refine stateAt_stable (fun server message hclosed => hclosed.step host message) messages
    (Nat.succ_le_of_lt hlt) ?_
  rw [stateAt_succ hmessage]
  exact closed_step_shutdown host (hlater shutdown hstart).1 hshutdown

theorem confined_of_active {messages : List Message} {step : Nat} {message : Message}
    (hmessage : messages[step]? = some message)
    (h : ((stateAt host messages step).step host message).2.notices ≠ [] ∨
      ((stateAt host messages step).step host message).1.store ≠
        (stateAt host messages step).store) :
    (∃ start < step, StartsAt host messages start) ∧
      ∀ earlier ≤ step,
        ¬ ShutsDownAt host messages earlier ∧ ¬ ExitsAt messages earlier := by
  rcases running_of_active h with ⟨hrunning, hnext⟩
  rw [← stateAt_succ hmessage] at hnext
  constructor
  · apply Classical.byContradiction
    intro hnever
    have huntouched : Untouched host (stateAt host messages step) :=
      untouched_stateAt fun earlier hlt hstarts => hnever ⟨earlier, hlt, hstarts⟩
    exact huntouched.phase_ne_running hrunning
  · -- the session still runs after the step, so neither this step nor one before it
    -- can have closed it
    have hopen : ¬ Closed (stateAt host messages (step + 1)) := by
      intro hclosed
      exact hclosed.phase_ne.2 hnext
    intro earlier hle
    constructor
    · intro hshutdown
      exact hopen (closed_of_shutsDownAt hshutdown (Nat.lt_succ_of_le hle))
    · intro hexit
      exact hopen (Or.inr (ended_of_exitsAt host hexit (Nat.lt_succ_of_le hle)))

/-- Every session has its handshake at most once, has default options and no document
before it, and the options given with it from then on.  What it says unasked and what
happens to its documents is confined to the time between the handshake and the first
shutdown or exit, and after an exit nothing happens any more. -/
theorem lifecycle_confined (host : Host) (messages : List Message) :
    (∀ first second, StartsAt host messages first → StartsAt host messages second →
        first = second) ∧
      (∀ step, (∀ earlier < step, ¬ StartsAt host messages earlier) →
        (stateAt host messages step).options = .standard host.platform ∧
          (stateAt host messages step).store = .empty) ∧
      (∀ start, StartsAt host messages start →
        ∃ message options, messages[start]? = some message ∧
          message.ReadsAs host (.handshake options) ∧
          ∀ step, start < step → (stateAt host messages step).options =
            match Options.ofJson host.platform (options.getD .null) with
            | .ok chosen => chosen
            | .error _ => .standard host.platform) ∧
      (∀ step,
        (∃ reaction, ((fresh host).run host messages).2[step]? = some reaction ∧
            reaction.notices ≠ []) ∨
          (stateAt host messages (step + 1)).store ≠ (stateAt host messages step).store →
        (∃ start < step, StartsAt host messages start) ∧
          ∀ earlier ≤ step,
            ¬ ShutsDownAt host messages earlier ∧ ¬ ExitsAt messages earlier) ∧
      (∀ exit step, ExitsAt messages exit → exit < step → step < messages.length →
        ((fresh host).run host messages).2[step]? = some { reply := .ended } ∧
          stateAt host messages (step + 1) = stateAt host messages step) := by
  refine ⟨?_, ?_, ?_, ?_, ?_⟩
  · intro first second hfirst hsecond
    rcases Nat.lt_trichotomy first second with hlt | heq | hlt
    · exact absurd hsecond (not_startsAt_of_lt hfirst hlt)
    · exact heq
    · exact absurd hfirst (not_startsAt_of_lt hsecond hlt)
  · intro step hbefore
    have huntouched := untouched_stateAt hbefore
    exact ⟨huntouched.options, huntouched.store⟩
  · intro start hstarts
    rcases stateAt_of_startsAt hstarts with ⟨_, message, options, hmessage, hread, hlater⟩
    refine ⟨message, options, hmessage, hread, ?_⟩
    intro step hlt
    exact (hlater step hlt).2
  · intro step hactive
    cases hmessage : messages[step]? with
    | none =>
        rw [getElem?_run, hmessage, stateAt_succ_of_none hmessage] at hactive
        rcases hactive with ⟨reaction, hreaction, _⟩ | hstore
        · cases hreaction
        · exact absurd rfl hstore
    | some message =>
        rw [getElem?_run, hmessage, stateAt_succ hmessage] at hactive
        refine confined_of_active hmessage ?_
        rcases hactive with ⟨reaction, hreaction, hnotices⟩ | hstore
        · cases hreaction
          exact Or.inl hnotices
        · exact Or.inr hstore
  · intro exit step hexit hlt hlength
    have hended := ended_of_exitsAt host hexit hlt
    have hmessage := List.getElem?_eq_getElem hlength
    rw [stateAt_succ hmessage, getElem?_run, hmessage, step_of_ended host hended]
    refine ⟨?_, rfl⟩
    exact congrArg some (congrArg Prod.snd (step_of_ended host hended _))

end Server
end ScriptAssist
