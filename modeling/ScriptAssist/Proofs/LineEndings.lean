import ScriptAssist.Proofs.MessageTexts
import ScriptAssist.Proofs.Places
import Mathlib.Order.MinMax

/-!
# The two line endings

A text without carriage returns can be written with a carriage return before
each of its line feeds.  Both have the same lines, so findings and completions
are the same; and every position denotes in the one the place that belongs to
the place which it denotes in the other, so changes lead to texts that belong
together again.
-/

namespace ScriptAssist
namespace Text

def crlf (text : Text) : Text :=
  text.flatMap fun c => if c = '\n' then ['\r', '\n'] else [c]

@[simp] theorem crlf_nil : crlf [] = [] :=
  rfl

@[simp] theorem crlf_newline (text : Text) :
    crlf ('\n' :: text) = '\r' :: '\n' :: crlf text :=
  rfl

theorem crlf_cons_of_ne {c : Char} (hc : c ≠ '\n') (text : Text) :
    crlf (c :: text) = c :: crlf text := by
  simp [crlf, hc]

@[simp] theorem crlf_append (first second : Text) :
    crlf (first ++ second) = crlf first ++ crlf second :=
  List.flatMap_append

theorem crlf_of_not_mem {text : Text} (h : '\n' ∉ text) : crlf text = text := by
  induction text with
  | nil =>
      rfl
  | cons c rest ih =>
      have hc : c ≠ '\n' := by
        intro heq
        exact h (heq ▸ List.mem_cons_self)
      rw [crlf_cons_of_ne hc, ih fun hmem => h (List.mem_cons_of_mem c hmem)]

/-!
# Lines
-/

theorem lines_return_newline (text : Text) :
    lines ('\r' :: '\n' :: text) = [] :: lines text := by
  simp [lines, pieces, dropReturn]

theorem lines_crlf {text : Text} (h : '\r' ∉ text) : lines (crlf text) = lines text := by
  induction text with
  | nil =>
      rfl
  | cons c rest ih =>
      have hrest : lines (crlf rest) = lines rest :=
        ih fun hmem => h (List.mem_cons_of_mem c hmem)
      by_cases hc : c = '\n'
      · rw [hc, crlf_newline, lines_return_newline, lines_newline, hrest]
      · have hreturn : c ≠ '\r' := by
          intro heq
          exact h (heq ▸ List.mem_cons_self)
        rw [crlf_cons_of_ne hc, lines_cons hc hreturn, lines_cons hc hreturn, hrest]

theorem firstLine_crlf {text : Text} (h : '\r' ∉ text) :
    firstLine (crlf text) = firstLine text := by
  have hlines := congrArg List.head? (lines_crlf h)
  rw [head?_lines, head?_lines] at hlines
  exact Option.some.inj hlines

/-!
# Places
-/

def crlfIndex (text : Text) (index : Nat) : Nat :=
  (crlf (text.take index)).length

theorem crlfIndex_mono (text : Text) : Monotone (crlfIndex text) := by
  intro first last h
  have hsplit := List.take_append_drop first (text.take last)
  rw [List.take_take, Nat.min_eq_left h] at hsplit
  rw [crlfIndex, crlfIndex, ← hsplit, crlf_append, List.length_append]
  exact Nat.le_add_right _ _

theorem crlf_eq_append (text : Text) (index : Nat) :
    crlf text = crlf (text.take index) ++ crlf (text.drop index) := by
  rw [← crlf_append, List.take_append_drop]

theorem take_crlfIndex (text : Text) (index : Nat) :
    (crlf text).take (crlfIndex text index) = crlf (text.take index) := by
  rw [crlf_eq_append text index, crlfIndex, List.take_left]

theorem drop_crlfIndex (text : Text) (index : Nat) :
    (crlf text).drop (crlfIndex text index) = crlf (text.drop index) := by
  rw [crlf_eq_append text index, crlfIndex, List.drop_left]

end Text

namespace Position

open Text

/-- A position denotes places that belong together in a text and in the same text
with carriage returns. -/
theorem index_crlf {text : Text} (h : '\r' ∉ text) (position : Position) :
    index (crlf text) position = crlfIndex text (index text position) := by
  induction text generalizing position with
  | nil =>
      rfl
  | cons c rest ih =>
      rcases position with ⟨line, column⟩
      cases line with
      | zero =>
          have hbefore : '\n' ∉ (c :: rest).take
              (columnIndex (firstLine (c :: rest)) column) :=
            newline_not_mem_take (columnIndex_le_length _ _)
          have hlength : columnIndex (firstLine (c :: rest)) column ≤
              (c :: rest).length :=
            Nat.le_trans (columnIndex_le_length _ _) (length_firstLine_le _)
          rw [index_line_zero, index_line_zero, firstLine_crlf h, crlfIndex,
            crlf_of_not_mem hbefore, List.length_take, Nat.min_eq_left hlength]
      | succ line =>
          have hrest := ih fun hmem => h (List.mem_cons_of_mem c hmem)
          by_cases hc : c = '\n'
          · subst hc
            rw [crlf_newline, index, if_neg (by decide), index, if_pos rfl, hrest,
              index, if_pos rfl, crlfIndex, crlfIndex, Nat.add_comm 1 (index _ _),
              List.take_succ_cons, crlf_newline, List.length_cons, List.length_cons]
            omega
          · rw [crlf_cons_of_ne hc, index, if_neg hc, hrest, index, if_neg hc,
              crlfIndex, crlfIndex, Nat.add_comm 1 (index _ _), List.take_succ_cons,
              crlf_cons_of_ne hc, List.length_cons]
            omega

theorem textBefore?_crlf {text : Text} (h : '\r' ∉ text) (position : Position) :
    textBefore? (crlf text) position = textBefore? text position := by
  rw [textBefore?, textBefore?, lines_crlf h]

end Position

namespace Change

theorem apply_crlf {text : Text} (h : '\r' ∉ text) (change : Change) :
    apply (Text.crlf text) (change.mapText Text.crlf) = Text.crlf (apply text change) := by
  rcases change with ⟨range, replacement⟩
  cases range with
  | none =>
      rfl
  | some range =>
      simp only [apply, mapText, Position.index_crlf h, Text.crlf_append,
        ← (Text.crlfIndex_mono text).map_min, ← (Text.crlfIndex_mono text).map_max,
        Text.take_crlfIndex, Text.drop_crlfIndex]

theorem return_not_mem_apply {text : Text} (htext : '\r' ∉ text) {change : Change}
    (hchange : '\r' ∉ change.text) : '\r' ∉ apply text change := by
  rcases change with ⟨range, replacement⟩
  cases range with
  | none =>
      exact hchange
  | some range =>
      simp only [apply, List.mem_append, not_or]
      exact ⟨⟨fun hmem => htext (List.mem_of_mem_take hmem), hchange⟩,
        fun hmem => htext (List.mem_of_mem_drop hmem)⟩

theorem applyAll_crlf {text : Text} (htext : '\r' ∉ text) {changes : List Change}
    (hchanges : ∀ change ∈ changes, '\r' ∉ change.text) :
    applyAll (Text.crlf text) (changes.map (mapText Text.crlf)) =
      Text.crlf (applyAll text changes) := by
  induction changes generalizing text with
  | nil =>
      rfl
  | cons change rest ih =>
      have hnext := return_not_mem_apply htext (hchanges change List.mem_cons_self)
      rw [List.map_cons, applyAll_cons, apply_crlf htext, applyAll_cons]
      exact ih hnext fun other hmem => hchanges other (List.mem_cons_of_mem change hmem)

theorem return_not_mem_applyAll {text : Text} (htext : '\r' ∉ text)
    {changes : List Change} (hchanges : ∀ change ∈ changes, '\r' ∉ change.text) :
    '\r' ∉ applyAll text changes := by
  induction changes generalizing text with
  | nil =>
      exact htext
  | cons change rest ih =>
      have hnext := return_not_mem_apply htext (hchanges change List.mem_cons_self)
      exact ih hnext fun other hmem => hchanges other (List.mem_cons_of_mem change hmem)

end Change

namespace Script

theorem diagnostics_crlf {text : Text} (h : '\r' ∉ text) :
    diagnostics (Text.crlf text) = diagnostics text := by
  rw [diagnostics, diagnostics, Text.lines_crlf h]

theorem completions_crlf {text : Text} (h : '\r' ∉ text) (caret : Position) :
    completions (Text.crlf text) caret = completions text caret := by
  rw [completions, completions, Position.textBefore?_crlf h]

end Script

/-!
# Sessions

A session whose texts have no carriage returns, and the session with carriage
returns in all of them, go through states that belong together and react alike.
-/

def Store.NoReturns (store : Store) : Prop :=
  ∀ uri document, store.get? uri = some document → '\r' ∉ document.text

def Call.NoReturns : Call → Prop
  | .opened _ document => '\r' ∉ document.text
  | .changed _ _ changes => ∀ change ∈ changes, '\r' ∉ change.text
  | _ => True

instance (call : Call) : Decidable call.NoReturns :=
  match call with
  | .opened _ document => inferInstanceAs (Decidable ('\r' ∉ document.text))
  | .changed _ _ changes =>
      inferInstanceAs (Decidable (∀ change ∈ changes, '\r' ∉ change.text))
  | .handshake _ | .ready | .shutdown | .closed _ | .completion _ _ | .hover _ _
  | .resolve _ | .unserved _ _ => inferInstanceAs (Decidable True)

/-- Whether no text that a message brings has a carriage return. -/
def Message.NoReturns (host : Host) (message : Message) : Prop :=
  ∀ method ∈ Method.ofName? message.method,
    ∀ call ∈ method.readCall? host message.params, call.NoReturns

instance (host : Host) (message : Message) : Decidable (message.NoReturns host) :=
  inferInstanceAs (Decidable (∀ method ∈ _, _))

namespace Store

theorem NoReturns.insert {store : Store} (h : store.NoReturns) {document : Document}
    (hdocument : '\r' ∉ document.text) (uri : String) :
    (store.insert uri document).NoReturns := by
  intro name other hopen
  by_cases hname : name = uri
  · rw [hname, get?_insert_self] at hopen
    cases hopen
    exact hdocument
  · rw [get?_insert_of_ne store hname] at hopen
    exact h name other hopen

theorem NoReturns.close {store : Store} (h : store.NoReturns) (uri : String) :
    (store.close uri).NoReturns := by
  intro name other hopen
  by_cases hname : name = uri
  · rw [hname, get?_close_self] at hopen
    cases hopen
  · rw [get?_close_of_ne store hname] at hopen
    exact h name other hopen

theorem change_of_open {store : Store} {uri : String} {document : Document}
    (hopen : store.get? uri = some document) (version : Int) (changes : List Change) :
    store.change uri version changes =
      store.insert uri (document.update version changes) := by
  rw [change, hopen]

end Store

namespace Server

variable {host : Host}

theorem update_crlf {document : Document} (htext : '\r' ∉ document.text)
    {changes : List Change} (hchanges : ∀ change ∈ changes, '\r' ∉ change.text)
    (version : Int) :
    (document.mapText Text.crlf).update version (changes.map (Change.mapText Text.crlf)) =
      (document.update version changes).mapText Text.crlf := by
  simp only [Document.update, Document.mapText, Change.applyAll_crlf htext hchanges]

theorem publish_crlf {document : Document} (htext : '\r' ∉ document.text)
    (server : Server) (uri : String) :
    (server.mapTexts Text.crlf).publish uri (document.mapText Text.crlf) =
      server.publish uri document := by
  simp only [publish, diagnose, Document.mapText, mapTexts,
    Script.diagnostics_crlf htext]

theorem perform_crlf {server : Server} {call : Call} (hstore : server.store.NoReturns)
    (hcall : call.NoReturns) :
    (server.mapTexts Text.crlf).perform host (call.mapTexts Text.crlf) =
      ((server.perform host call).1.mapTexts Text.crlf, (server.perform host call).2) := by
  cases call with
  | opened uri document =>
      simp only [Call.mapTexts, perform, publish_crlf hcall]
      simp only [mapTexts, Store.insert_mapTexts]
  | changed uri version changes =>
      simp only [Call.mapTexts, perform, store_mapTexts, Store.get?_mapTexts]
      cases hopen : server.store.get? uri with
      | none =>
          rfl
      | some document =>
          have htext := hstore uri document hopen
          have hmapped : (server.store.mapTexts Text.crlf).get? uri =
              some (document.mapText Text.crlf) := by
            rw [Store.get?_mapTexts, hopen, Option.map_some]
          have hupdated : '\r' ∉ (document.update version changes).text :=
            Change.return_not_mem_applyAll htext hcall
          simp only [Option.map_some, Store.change_of_open hmapped,
            Store.change_of_open hopen, update_crlf htext hcall, publish_crlf hupdated]
          simp only [mapTexts, Store.insert_mapTexts]
  | closed uri =>
      simp only [Call.mapTexts, perform, mapTexts, Store.close_mapTexts]
  | completion uri caret =>
      simp only [Call.mapTexts, perform, store_mapTexts, Store.get?_mapTexts]
      cases hopen : server.store.get? uri with
      | none =>
          rfl
      | some document =>
          simp only [Option.map_some, Document.mapText,
            Script.completions_crlf (hstore uri document hopen)]
  | _ =>
      rfl

theorem dispatch_crlf {server : Server} {method : Method} {message : Message}
    (hstore : server.store.NoReturns) (hmessage : message.NoReturns host)
    (hmethod : Method.ofName? message.method = some method) :
    (server.mapTexts Text.crlf).dispatch host method (message.mapTexts Text.crlf) =
      ((server.dispatch host method message).1.mapTexts Text.crlf,
        (server.dispatch host method message).2) := by
  rw [Message.mapTexts, hmethod]
  simp only [dispatch, Method.readCall?_mapParams]
  by_cases hform : message.form = method.form
  · rw [if_neg (not_not_intro hform), if_neg (not_not_intro hform)]
    cases hread : method.readCall? host message.params with
    | none =>
        rfl
    | some call =>
        exact perform_crlf hstore (hmessage method hmethod call hread)
  · rw [if_pos hform, if_pos hform]

theorem handle_crlf {server : Server} {method : Method} {message : Message}
    (hstore : server.store.NoReturns) (hmessage : message.NoReturns host)
    (hmethod : Method.ofName? message.method = some method) :
    (server.mapTexts Text.crlf).handle host method (message.mapTexts Text.crlf) =
      ((server.handle host method message).1.mapTexts Text.crlf,
        (server.handle host method message).2) := by
  simp only [handle, phase_mapTexts, Message.form_mapTexts]
  -- one goal for each row of the table of methods and phases, in its order
  split
  · rfl
  · rfl
  · exact dispatch_crlf hstore hmessage hmethod
  · rfl
  · rfl
  · have hstopped : { server with phase := .stopped }.store.NoReturns := hstore
    exact dispatch_crlf hstopped hmessage hmethod
  · exact dispatch_crlf hstore hmessage hmethod
  · rfl

theorem step_crlf {server : Server} {message : Message}
    (hstore : server.store.NoReturns) (hmessage : message.NoReturns host) :
    (server.mapTexts Text.crlf).step host (message.mapTexts Text.crlf) =
      ((server.step host message).1.mapTexts Text.crlf, (server.step host message).2) := by
  rw [step, step, phase_mapTexts, Message.method_mapTexts]
  by_cases hended : server.phase = .ended
  · rw [if_pos hended, if_pos hended]
  · rw [if_neg hended, if_neg hended]
    cases hmethod : Method.ofName? message.method with
    | none =>
        have hsame : message.mapTexts Text.crlf = message := by
          rw [Message.mapTexts, hmethod]
        rw [hsame]
    | some method =>
        exact handle_crlf hstore hmessage hmethod

theorem noReturns_perform {server : Server} {call : Call}
    (hstore : server.store.NoReturns) (hcall : call.NoReturns) :
    (server.perform host call).1.store.NoReturns := by
  cases call with
  | opened uri document =>
      exact hstore.insert hcall uri
  | changed uri version changes =>
      cases hopen : server.store.get? uri with
      | none =>
          simpa only [perform, hopen] using hstore
      | some document =>
          have hupdated : '\r' ∉ (document.update version changes).text :=
            Change.return_not_mem_applyAll (hstore uri document hopen) hcall
          simp only [perform, hopen, Store.change_of_open hopen]
          exact hstore.insert hupdated uri
  | closed uri =>
      exact hstore.close uri
  | _ =>
      exact hstore

theorem noReturns_step {server : Server} {message : Message}
    (hstore : server.store.NoReturns) (hmessage : message.NoReturns host) :
    (server.step host message).1.store.NoReturns := by
  have heffect := server.effect_step host message
  generalize server.step host message = outcome at heffect ⊢
  cases heffect with
  | started options hphase hread =>
      exact hstore
  | performed call hphase hcall hread =>
      exact noReturns_perform hstore (hmessage call.method hread.1 call hread.2.2)
  | _ =>
      exact hstore

theorem run_crlf {server : Server} {messages : List Message}
    (hstore : server.store.NoReturns)
    (hmessages : ∀ message ∈ messages, message.NoReturns host) :
    (server.mapTexts Text.crlf).run host (messages.map (Message.mapTexts Text.crlf)) =
      ((server.run host messages).1.mapTexts Text.crlf, (server.run host messages).2) := by
  induction messages generalizing server with
  | nil =>
      rfl
  | cons message rest ih =>
      have hmessage := hmessages message List.mem_cons_self
      have hrest := ih (noReturns_step hstore hmessage)
        fun other hmem => hmessages other (List.mem_cons_of_mem message hmem)
      rw [List.map_cons, run, step_crlf hstore hmessage, run]
      simp only [hrest]

/-- With a carriage return before each line feed of every text that the client
sends, a session reacts to every message as it does without, and after each step
it holds the same documents with the carriage returns in their texts. -/
theorem line_endings_transparent (host : Host) (messages : List Message)
    (h : ∀ message ∈ messages, message.NoReturns host) :
    ((fresh host).run host (messages.map (Message.mapTexts Text.crlf))).2 =
        ((fresh host).run host messages).2 ∧
      ∀ steps uri,
        ((fresh host).run host
            ((messages.map (Message.mapTexts Text.crlf)).take steps)).1.store.get? uri =
          (((fresh host).run host (messages.take steps)).1.store.get? uri).map
            fun document => { document with text := Text.crlf document.text } := by
  have hfresh : (fresh host).store.NoReturns := by
    intro uri document hopen
    rw [fresh, Store.get?_empty] at hopen
    cases hopen
  have hrun : ∀ past : List Message, (∀ message ∈ past, message.NoReturns host) →
      (fresh host).run host (past.map (Message.mapTexts Text.crlf)) =
        (((fresh host).run host past).1.mapTexts Text.crlf,
          ((fresh host).run host past).2) := by
    intro past hpast
    exact run_crlf hfresh hpast
  constructor
  · rw [hrun messages h]
  · intro steps uri
    have hpast : ∀ message ∈ messages.take steps, message.NoReturns host := by
      intro message hmem
      exact h message (List.mem_of_mem_take hmem)
    rw [← List.map_take, hrun (messages.take steps) hpast]
    exact Store.get?_mapTexts Text.crlf _ uri

-- A change deletes one line feed and inserts two.
def editedSession : List Message :=
  [.handshake [], .opening "file:///script" "nope\nbogus",
    .reporting "file:///script" 2 [.obj [
      ("range", .obj [
        ("start", .obj [("line", .nat 0), ("character", .nat 4)]),
        ("end", .obj [("line", .nat 1), ("character", .nat 0)])]),
      ("text", .str "\n\n")]]]

theorem line_endings_transparent_edited :
    (∀ message ∈ editedSession, message.NoReturns .ofScript) ∧
      ((fresh .ofScript).run .ofScript
          (editedSession.map (Message.mapTexts Text.crlf))).2 =
        ((fresh .ofScript).run .ofScript editedSession).2 ∧
      ((fresh .ofScript).run .ofScript
          ((editedSession.map (Message.mapTexts Text.crlf)).take 3)).1.store.get?
          "file:///script" =
        some ⟨2, "nope\r\n\r\nbogus".toList⟩ := by
  have h : ∀ message ∈ editedSession, message.NoReturns .ofScript := by
    decide +kernel
  rcases line_endings_transparent .ofScript editedSession h with ⟨hreactions, htexts⟩
  refine ⟨h, hreactions, (htexts 3 "file:///script").trans ?_⟩
  decide +kernel

end Server
end ScriptAssist
