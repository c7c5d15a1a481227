import ScriptAssist.Proofs.Steps

/-!
# Options taken as a whole

A client gives its options by name, in order, or not at all.  They are accepted
if each field that is given has its type, and then every other field has its
default; it makes no difference in which form they come or what else an object
holds.  A value that is not accepted leaves no trace: the session goes on as if
its client had given no options.
-/

namespace ScriptAssist

theorem bind_eq_ok_iff {ε α β : Type} {first : Except ε α} {next : α → Except ε β}
    {result : β} :
    first.bind next = .ok result ↔ ∃ value, first = .ok value ∧ next value = .ok result := by
  cases first with
  | error fault =>
      simp [Except.bind]
  | ok value =>
      simp [Except.bind]

namespace Options

variable {platform : Platform}

/-!
# Fields
-/

/-- The fields that a value gives, the line terminator first; in an array there is room
for no others. -/
inductive Gives : Json → Option Json → Option Json → Prop where
  | nothing : Gives .null none none
  | byName (fields : Json.Fields) :
      Gives (.obj fields) (fields.lookup "lineTerminator") (fields.lookup "diagnostics")
  | inOrder {elements : List Json} :
      elements.length ≤ 2 → Gives (.arr elements) elements[0]? elements[1]?

def Chosen {α : Type} (write : α → Json) (default : α) (field : Option Json)
    (choice : α) : Prop :=
  field = none ∧ choice = default ∨ field = some (write choice)

theorem exists_chosen_iff {α : Type} {write : α → Json} {default : α}
    {field : Option Json} :
    (∃ choice, Chosen write default field choice) ↔
      ∀ value ∈ field, ∃ choice, value = write choice := by
  cases field with
  | none =>
      simp [Chosen]
  | some value =>
      simp [Chosen]

theorem readLineTerminator_eq_ok_iff {field : Option Json} {choice : String} :
    readLineTerminator platform field = .ok choice ↔
      Chosen .str (standard platform).lineTerminator field choice := by
  cases field with
  | none =>
      simp [readLineTerminator, Chosen, eq_comm]
  | some value =>
      cases value <;> simp [readLineTerminator, Chosen]

theorem readDiagnostics_eq_ok_iff {field : Option Json} {choice : Bool} :
    readDiagnostics platform field = .ok choice ↔
      Chosen .bool (standard platform).diagnostics field choice := by
  cases field with
  | none =>
      simp [readDiagnostics, Chosen, eq_comm]
  | some value =>
      cases value <;> simp [readDiagnostics, Chosen]

/-!
# Accepted values
-/

def ChosenBy (platform : Platform) (options : Options)
    (lineTerminator diagnostics : Option Json) : Prop :=
  Chosen .str (standard platform).lineTerminator lineTerminator options.lineTerminator ∧
    Chosen .bool (standard platform).diagnostics diagnostics options.diagnostics

theorem ofJson_obj_eq_ok_iff {fields : Json.Fields} {options : Options} :
    ofJson platform (.obj fields) = .ok options ↔
      options.ChosenBy platform (fields.lookup "lineTerminator")
        (fields.lookup "diagnostics") := by
  have hread : ofJson platform (.obj fields) =
      (readDiagnostics platform (fields.lookup "diagnostics")).bind fun diagnostics =>
        (readLineTerminator platform (fields.lookup "lineTerminator")).bind
          fun lineTerminator => .ok { lineTerminator, diagnostics } :=
    rfl
  rw [hread]
  simp only [bind_eq_ok_iff, readDiagnostics_eq_ok_iff, readLineTerminator_eq_ok_iff]
  constructor
  · intro h
    rcases h with ⟨diagnostics, hdiagnostics, lineTerminator, hlineTerminator, hoptions⟩
    cases hoptions
    exact ⟨hlineTerminator, hdiagnostics⟩
  · intro h
    rcases h with ⟨hlineTerminator, hdiagnostics⟩
    exact ⟨_, hdiagnostics, _, hlineTerminator, rfl⟩

theorem ofJson_arr_eq_ok_iff {elements : List Json} {options : Options} :
    ofJson platform (.arr elements) = .ok options ↔
      elements.length ≤ 2 ∧ options.ChosenBy platform elements[0]? elements[1]? := by
  have hread : ofJson platform (.arr elements) =
      (readLineTerminator platform elements[0]?).bind fun lineTerminator =>
        (readDiagnostics platform elements[1]?).bind fun diagnostics =>
          if 2 < elements.length then .error (.tooLong elements.length)
          else .ok { lineTerminator, diagnostics } :=
    rfl
  rw [hread]
  simp only [bind_eq_ok_iff, readDiagnostics_eq_ok_iff, readLineTerminator_eq_ok_iff]
  constructor
  · intro h
    rcases h with ⟨lineTerminator, hlineTerminator, diagnostics, hdiagnostics, hoptions⟩
    split at hoptions
    · cases hoptions
    · next hlength =>
        cases hoptions
        exact ⟨Nat.le_of_not_lt hlength, hlineTerminator, hdiagnostics⟩
  · intro h
    rcases h with ⟨hlength, hlineTerminator, hdiagnostics⟩
    refine ⟨_, hlineTerminator, _, hdiagnostics, ?_⟩
    rw [if_neg (Nat.not_lt_of_le hlength)]

/-- Options are accepted from the fields that a value gives and not otherwise. -/
theorem ofJson_eq_ok_iff {value : Json} {options : Options} :
    ofJson platform value = .ok options ↔
      ∃ lineTerminator diagnostics, Gives value lineTerminator diagnostics ∧
        options.ChosenBy platform lineTerminator diagnostics := by
  constructor
  · intro h
    cases value with
    | null =>
        cases h
        exact ⟨none, none, .nothing, Or.inl ⟨rfl, rfl⟩, Or.inl ⟨rfl, rfl⟩⟩
    | obj fields =>
        exact ⟨_, _, .byName fields, ofJson_obj_eq_ok_iff.mp h⟩
    | arr elements =>
        rcases ofJson_arr_eq_ok_iff.mp h with ⟨hlength, hchosen⟩
        exact ⟨_, _, .inOrder hlength, hchosen⟩
    | _ =>
        cases h
  · intro h
    rcases h with ⟨lineTerminator, diagnostics, hgives, hchosen⟩
    cases hgives with
    | nothing =>
        rcases hchosen with ⟨⟨_, hline⟩ | hline, ⟨_, hdiagnostics⟩ | hdiagnostics⟩
        · rcases options with ⟨_, _⟩
          cases hline
          cases hdiagnostics
          rfl
        · cases hdiagnostics
        · cases hline
        · cases hline
    | byName fields =>
        exact ofJson_obj_eq_ok_iff.mpr hchosen
    | inOrder hlength =>
        exact ofJson_arr_eq_ok_iff.mpr ⟨hlength, hchosen⟩

theorem exists_ofJson_iff {value : Json} :
    (∃ options, ofJson platform value = .ok options) ↔
      ∃ lineTerminator diagnostics, Gives value lineTerminator diagnostics ∧
        (∀ field ∈ lineTerminator, ∃ text, field = .str text) ∧
        ∀ field ∈ diagnostics, ∃ choice, field = .bool choice := by
  constructor
  · intro h
    rcases h with ⟨options, hvalue⟩
    rcases ofJson_eq_ok_iff.mp hvalue with
      ⟨lineTerminator, diagnostics, hgives, hline, hchoice⟩
    exact ⟨lineTerminator, diagnostics, hgives, exists_chosen_iff.mp ⟨_, hline⟩,
      exists_chosen_iff.mp ⟨_, hchoice⟩⟩
  · intro h
    rcases h with ⟨lineTerminator, diagnostics, hgives, hstring, hbool⟩
    rcases exists_chosen_iff.mpr hstring with ⟨text, htext⟩
    rcases exists_chosen_iff.mpr hbool with ⟨choice, hchoice⟩
    exact ⟨⟨text, choice⟩,
      ofJson_eq_ok_iff.mpr ⟨lineTerminator, diagnostics, hgives, htext, hchoice⟩⟩

theorem Gives.ofJson_eq_ok_iff {value : Json} {lineTerminator diagnostics : Option Json}
    (h : Gives value lineTerminator diagnostics) {options : Options} :
    ofJson platform value = .ok options ↔
      options.ChosenBy platform lineTerminator diagnostics := by
  constructor
  · intro hvalue
    rcases Options.ofJson_eq_ok_iff.mp hvalue with ⟨_, _, hgives, hchosen⟩
    cases h with
    | nothing =>
        cases hgives
        exact hchosen
    | byName fields =>
        cases hgives
        exact hchosen
    | inOrder hlength =>
        cases hgives
        exact hchosen
  · intro hchosen
    exact Options.ofJson_eq_ok_iff.mpr ⟨lineTerminator, diagnostics, h, hchosen⟩

theorem ofJson_obj_congr (platform : Platform) {fields others : Json.Fields}
    (h : ∀ name ∈ ["lineTerminator", "diagnostics"],
      fields.lookup name = others.lookup name) :
    ofJson platform (.obj fields) = ofJson platform (.obj others) := by
  rw [ofJson, ofJson, h "lineTerminator" (by simp), h "diagnostics" (by simp)]

theorem ofRequest_of_error {value : Json} {fault : Fault}
    (h : ofJson platform value = .error fault) :
    ofRequest platform (some value) = ofRequest platform none := by
  simp only [ofRequest, Option.getD_some, h]
  rfl

end Options

/-!
# Sessions
-/

namespace Server

variable {host : Host}

theorem step_handshake (server : Server) {message : Message} {options : Option Json}
    (h : message.ReadsAs host (.handshake options)) :
    server.step host message =
      match server.phase with
      | .waiting => server.perform host (.handshake options)
      | .ended => (server, { reply := .ended })
      | _ => (server, { reply := .refusal .invalidRequest }) := by
  have hrefuse : refuse message.form .invalidRequest =
      { reply := .refusal .invalidRequest } := by
    rw [h.2.1]
    rfl
  have hstep : server.phase ≠ .ended →
      server.step host message = server.handle host .handshake message := by
    intro hphase
    rw [step, if_neg hphase, h.1]
    rfl
  cases hphase : server.phase with
  | waiting =>
      rw [hstep (by simp [hphase])]
      simp only [handle, hphase]
      exact server.dispatch_of_readsAs h
  | running =>
      rw [hstep (by simp [hphase])]
      simp only [handle, hphase, hrefuse]
  | stopped =>
      rw [hstep (by simp [hphase])]
      simp only [handle, hphase, hrefuse]
  | ended =>
      rw [step, if_pos hphase]

theorem step_handshake_congr (server : Server) {first second : Message}
    {given other : Option Json} (hfirst : first.ReadsAs host (.handshake given))
    (hsecond : second.ReadsAs host (.handshake other))
    (h : Options.ofRequest host.platform given = Options.ofRequest host.platform other) :
    server.step host first = server.step host second := by
  rw [server.step_handshake hfirst, server.step_handshake hsecond]
  simp only [perform, h]

theorem run_handshake_congr (server : Server) (before after : List Message)
    {first second : Message} {given other : Option Json}
    (hfirst : first.ReadsAs host (.handshake given))
    (hsecond : second.ReadsAs host (.handshake other))
    (h : Options.ofRequest host.platform given = Options.ofRequest host.platform other) :
    server.run host (before ++ first :: after) =
      server.run host (before ++ second :: after) := by
  rw [run_append, run_append]
  simp only [run, step_handshake_congr _ hfirst hsecond h]

/-- A value is accepted if it is missing, an object or an array with at most two
elements, and the fields that it gives have their types.  What it does not give has its
default, other names of an object have no influence, and the form does not matter.  With
a value that is refused, a session is in all that it says and becomes the session of a
client that gives no options. -/
theorem options_all_or_nothing (host : Host) :
    (∀ value, (∃ options, Options.ofJson host.platform value = .ok options) ↔
      ∃ lineTerminator diagnostics, Options.Gives value lineTerminator diagnostics ∧
        (∀ field ∈ lineTerminator, ∃ text, field = .str text) ∧
        ∀ field ∈ diagnostics, ∃ choice, field = .bool choice) ∧
      (∀ value lineTerminator diagnostics options,
        Options.Gives value lineTerminator diagnostics →
        Options.ofJson host.platform value = .ok options →
          options.ChosenBy host.platform lineTerminator diagnostics) ∧
      (∀ fields others : Json.Fields,
        (∀ name ∈ ["lineTerminator", "diagnostics"],
          fields.lookup name = others.lookup name) →
        Options.ofJson host.platform (.obj fields) =
          Options.ofJson host.platform (.obj others)) ∧
      (∀ value other lineTerminator diagnostics,
        Options.Gives value lineTerminator diagnostics →
        Options.Gives other lineTerminator diagnostics →
          ∀ options, Options.ofJson host.platform value = .ok options ↔
            Options.ofJson host.platform other = .ok options) ∧
      ∀ value fault, Options.ofJson host.platform value = .error fault →
        ∀ (before after : List Message) (refused plain : Message),
          refused.ReadsAs host (.handshake (some value)) →
          plain.ReadsAs host (.handshake none) →
            (fresh host).run host (before ++ refused :: after) =
              (fresh host).run host (before ++ plain :: after) := by
  refine ⟨fun value => Options.exists_ofJson_iff, ?_, ?_, ?_, ?_⟩
  · intro value lineTerminator diagnostics options hgives hvalue
    exact hgives.ofJson_eq_ok_iff.mp hvalue
  · intro fields others hnames
    exact Options.ofJson_obj_congr host.platform hnames
  · intro value other lineTerminator diagnostics hvalue hother options
    rw [hvalue.ofJson_eq_ok_iff, hother.ofJson_eq_ok_iff]
  · intro value fault hfault before after refused plain hrefused hplain
    exact (fresh host).run_handshake_congr before after hrefused hplain
      (Options.ofRequest_of_error hfault)

-- One field could be taken, the other could not.
def partlyRefused : Json :=
  .obj [("lineTerminator", .str "\r\n"), ("diagnostics", .str "off")]

def handshakeSession (fields : Json.Fields) : List Message :=
  -- the shutdown comes too early to be followed
  [⟨"shutdown", .request, none⟩] ++
    .handshake fields :: [.opening "file:///script" "nope"]

theorem options_all_or_nothing_partly_refused :
    Options.ofJson .other partlyRefused = .error (.wrongType (.str "off") .boolean) ∧
      (fresh .ofScript).run .ofScript
          (handshakeSession [("initializationOptions", partlyRefused)]) =
        (fresh .ofScript).run .ofScript (handshakeSession []) ∧
      ((fresh .ofScript).run .ofScript (handshakeSession [])).2.map (·.notices) =
        [[], [], [.publish "file:///script" (some 1)
          [.unknownCommand 0 ⟨[], "nope".toList⟩]]] := by
  have hfault : Options.ofJson .other partlyRefused =
      .error (.wrongType (.str "off") .boolean) :=
    rfl
  have hrefused : (Message.handshake [("initializationOptions", partlyRefused)]).ReadsAs
      .ofScript (.handshake (some partlyRefused)) :=
    ⟨rfl, rfl, rfl⟩
  have hplain : (Message.handshake []).ReadsAs .ofScript (.handshake none) :=
    ⟨rfl, rfl, rfl⟩
  rcases options_all_or_nothing .ofScript with ⟨_, _, _, _, hsession⟩
  exact ⟨hfault, hsession _ _ hfault _ _ _ _ hrefused hplain, rfl⟩

end Server
end ScriptAssist
