import ScriptAssist.Proofs.Steps

/-!
# Messages with other texts

The texts of documents travel inside messages, as the texts of opened documents
and of changes.  This module puts other texts in their places, in the message
as it arrives and in the call that it is read as, and shows that reading the
message with other texts gives the call with other texts.  A message that
cannot be read stays one that cannot be read.
-/

namespace ScriptAssist
namespace Json

/-!
# Replacing parts of values
-/

def mapString (f : Text → Text) : Json → Json
  | .str value => .str (String.ofList (f value.toList))
  | value => value

def mapElements (f : Json → Json) : Json → Json
  | .arr elements => .arr (elements.map f)
  | value => value

def mapNamed (name : String) (f : Json → Json) (fields : Fields) : Fields :=
  fields.map fun field => (field.1, if field.1 = name then f field.2 else field.2)

def mapListed (name : String) (f : Json → Json) : List String → List Json → List Json
  | other :: names, element :: elements =>
      (if other = name then f element else element) :: mapListed name f names elements
  | _, elements => elements

def mapField (names : List String) (name : String) (f : Json → Json) : Json → Json
  | .arr elements => .arr (mapListed name f names elements)
  | .obj fields => .obj (mapNamed name f fields)
  | value => value

def Record.mapAt (record : Record) (name : String) (f : Json → Json) : Record :=
  fun other => if other = name then (record other).map f else record other

/-!
# Reading what has been replaced
-/

theorem asString?_mapString (f : Text → Text) (value : Json) :
    (mapString f value).asString? =
      value.asString?.map fun text => String.ofList (f text.toList) := by
  cases value <;> rfl

theorem asList?_mapElements {α : Type} {read? : Json → Option α} {f : Json → Json}
    {g : α → α} (h : ∀ value, read? (f value) = (read? value).map g) (value : Json) :
    asList? read? (mapElements f value) = (asList? read? value).map (List.map g) := by
  cases value with
  | arr elements =>
      simp only [mapElements, asList?]
      induction elements with
      | nil =>
          rfl
      | cons element rest ih =>
          rw [List.map_cons, List.mapM_cons, List.mapM_cons, h, ih]
          cases read? element with
          | none =>
              rfl
          | some first =>
              cases rest.mapM read? <;> rfl
  | _ =>
      rfl

theorem lookup_mapNamed (name : String) (f : Json → Json) (fields : Fields)
    (other : String) :
    (mapNamed name f fields).lookup other =
      if other = name then (fields.lookup other).map f else fields.lookup other := by
  induction fields with
  | nil =>
      simp [mapNamed]
  | cons field rest ih =>
      rcases field with ⟨key, value⟩
      rw [mapNamed] at ih ⊢
      rw [List.map_cons, List.lookup_cons, List.lookup_cons, ih]
      by_cases hkey : other = key
      · subst hkey
        by_cases hname : other = name <;> simp [hname]
      · rw [beq_false_of_ne hkey]

theorem length_mapListed (name : String) (f : Json → Json) (names : List String)
    (elements : List Json) :
    (mapListed name f names elements).length = elements.length := by
  fun_induction mapListed name f names elements with
  | case1 other names element elements ih =>
      rw [List.length_cons, List.length_cons, ih]
  | case2 =>
      rfl

theorem zip_mapListed (name : String) (f : Json → Json) (names : List String)
    (elements : List Json) :
    names.zip (mapListed name f names elements) =
      mapNamed name f (names.zip elements) := by
  induction names generalizing elements with
  | nil =>
      rfl
  | cons other names ih =>
      cases elements with
      | nil =>
          rfl
      | cons element elements =>
          rw [mapListed, List.zip_cons_cons, ih]
          rfl

theorem asRecord?_mapField (names : List String) (name : String) (f : Json → Json)
    (value : Json) :
    (mapField names name f value).asRecord? names =
      (value.asRecord? names).map (·.mapAt name f) := by
  cases value with
  | arr elements =>
      simp only [mapField, asRecord?, length_mapListed]
      split
      · rw [Option.map_some, zip_mapListed]
        congr 1
        funext other
        exact lookup_mapNamed name f (names.zip elements) other
      · rfl
  | obj fields =>
      simp only [mapField, asRecord?, asObject?, Option.map_some]
      congr 1
      funext other
      exact lookup_mapNamed name f fields other
  | _ =>
      rfl

namespace Record

variable {α : Type} {read? : Json → Option α}

theorem required?_mapAt {f : Json → Json} {g : α → α}
    (h : ∀ value, read? (f value) = (read? value).map g) (record : Record)
    (name : String) :
    (record.mapAt name f).required? name read? = (record.required? name read?).map g := by
  simp only [required?, mapAt, if_pos]
  cases record name with
  | none =>
      rfl
  | some value =>
      exact h value

theorem required?_mapAt_of_ne {name other : String} (hne : other ≠ name)
    (record : Record) (f : Json → Json) :
    (record.mapAt name f).required? other read? = record.required? other read? := by
  rw [required?, mapAt, if_neg hne, required?]

theorem optional?_mapAt_of_ne {name other : String} (hne : other ≠ name)
    (record : Record) (f : Json → Json) :
    (record.mapAt name f).optional? other read? = record.optional? other read? := by
  rw [optional?, mapAt, if_neg hne, optional?]

end Record
end Json

/-!
# Documents, changes and calls
-/

def Document.mapText (f : Text → Text) (document : Document) : Document :=
  { document with text := f document.text }

namespace Change

def mapText (f : Text → Text) (change : Change) : Change :=
  { change with text := f change.text }

def mapJson (f : Text → Text) : Json → Json :=
  Json.mapField ["range", "rangeLength", "text"] "text" (Json.mapString f)

theorem ofJson?_mapJson (f : Text → Text) (value : Json) :
    ofJson? (mapJson f value) = (ofJson? value).map (mapText f) := by
  rw [ofJson?, ofJson?, mapJson, Json.asRecord?_mapField]
  simp (disch := decide) only [Option.bind_eq_bind, Option.bind_map, Option.map_bind,
    Function.comp_def, Json.Record.optional?_mapAt_of_ne,
    Json.Record.required?_mapAt (Json.asString?_mapString f), Option.pure_def,
    Option.map_some, String.toList_ofList, mapText]

end Change

namespace Call

def mapTexts (f : Text → Text) : Call → Call
  | .opened uri document => .opened uri (document.mapText f)
  | .changed uri version changes => .changed uri version (changes.map (Change.mapText f))
  | call => call

theorem mapTexts_eq_self {call : Call} (hopened : call.method ≠ .didOpen)
    (hchanged : call.method ≠ .didChange) (f : Text → Text) : call.mapTexts f = call := by
  cases call with
  | opened uri document =>
      exact absurd rfl hopened
  | changed uri version changes =>
      exact absurd rfl hchanged
  | _ =>
      rfl

end Call

/-!
# Messages
-/

namespace Method

variable {host : Host}

def mapOpened (f : Text → Text) : Json → Json :=
  Json.mapField ["textDocument"] "textDocument"
    (Json.mapField ["uri", "languageId", "version", "text"] "text" (Json.mapString f))

def mapChanged (f : Text → Text) : Json → Json :=
  Json.mapField ["textDocument", "contentChanges"] "contentChanges"
    (Json.mapElements (Change.mapJson f))

def mapParams (f : Text → Text) : Method → Json → Json
  | .didOpen => mapOpened f
  | .didChange => mapChanged f
  | _ => id

theorem readOpened?_mapOpened (f : Text → Text) (params : Json) :
    readOpened? host (mapOpened f params) =
      (readOpened? host params).map (Call.mapTexts f) := by
  rw [readOpened?, readOpened?, mapOpened, Json.asRecord?_mapField]
  simp (disch := decide) only [Option.bind_eq_bind, Option.bind_map, Option.map_bind,
    Function.comp_def,
    Json.Record.required?_mapAt (Json.asRecord?_mapField _ "text" (Json.mapString f)),
    Json.Record.required?_mapAt_of_ne,
    Json.Record.required?_mapAt (Json.asString?_mapString f), Option.pure_def,
    Option.map_some, String.toList_ofList, Call.mapTexts, Document.mapText]

theorem readChanged?_mapChanged (f : Text → Text) (params : Json) :
    readChanged? host (mapChanged f params) =
      (readChanged? host params).map (Call.mapTexts f) := by
  rw [readChanged?, readChanged?, mapChanged, Json.asRecord?_mapField]
  simp (disch := decide) only [Option.bind_eq_bind, Option.bind_map, Option.map_bind,
    Function.comp_def, Json.Record.required?_mapAt_of_ne,
    Json.Record.required?_mapAt (Json.asList?_mapElements (Change.ofJson?_mapJson f)),
    Option.pure_def, Option.map_some, Call.mapTexts]

theorem readCall?_mapParams (f : Text → Text) (method : Method) (params : Option Json) :
    method.readCall? host (params.map (method.mapParams f)) =
      (method.readCall? host params).map (Call.mapTexts f) := by
  by_cases hopened : method = .didOpen
  · subst hopened
    cases params with
    | none =>
        rfl
    | some params =>
        exact readOpened?_mapOpened f params
  by_cases hchanged : method = .didChange
  · subst hchanged
    cases params with
    | none =>
        rfl
    | some params =>
        exact readChanged?_mapChanged f params
  have hparams : method.mapParams f = id := by
    cases method <;> first | contradiction | rfl
  rw [hparams, Option.map_id_fun, id]
  cases hread : method.readCall? host params with
  | none =>
      rfl
  | some call =>
      have hcall : call.method = method := method_of_readCall? hread
      rw [Option.map_some, Call.mapTexts_eq_self (by rwa [hcall]) (by rwa [hcall])]

end Method

/-- A message with other texts in the places of documents and changes. -/
def Message.mapTexts (f : Text → Text) (message : Message) : Message :=
  match Method.ofName? message.method with
  | none => message
  | some method => { message with params := message.params.map (method.mapParams f) }

theorem Message.method_mapTexts (f : Text → Text) (message : Message) :
    (message.mapTexts f).method = message.method := by
  rw [Message.mapTexts]
  split <;> rfl

theorem Message.form_mapTexts (f : Text → Text) (message : Message) :
    (message.mapTexts f).form = message.form := by
  rw [Message.mapTexts]
  split <;> rfl

/-!
# Servers
-/

namespace Store

def mapTexts (f : Text → Text) (store : Store) : Store where
  entries := store.entries.map fun entry => (entry.1, entry.2.mapText f)
  nodup := by
    rw [List.map_map]
    exact store.nodup

theorem get?_mapTexts (f : Text → Text) (store : Store) (uri : String) :
    (store.mapTexts f).get? uri = (store.get? uri).map (Document.mapText f) := by
  simp only [get?, mapTexts]
  induction store.entries with
  | nil =>
      rfl
  | cons entry rest ih =>
      rw [List.map_cons, List.lookup_cons, List.lookup_cons, ih]
      cases uri == entry.1 <;> rfl

theorem others_map (f : Text → Text) (uri : String) (entries : List (String × Document)) :
    others uri (entries.map fun entry => (entry.1, entry.2.mapText f)) =
      (others uri entries).map fun entry => (entry.1, entry.2.mapText f) := by
  rw [others, List.filter_map]
  rfl

theorem close_mapTexts (f : Text → Text) (store : Store) (uri : String) :
    (store.mapTexts f).close uri = (store.close uri).mapTexts f := by
  simp only [close, mapTexts, others_map]

theorem insert_mapTexts (f : Text → Text) (store : Store) (uri : String)
    (document : Document) :
    (store.mapTexts f).insert uri (document.mapText f) =
      (store.insert uri document).mapTexts f := by
  simp only [insert, mapTexts, others_map, List.map_append, List.map_cons, List.map_nil]

end Store

def Server.mapTexts (f : Text → Text) (server : Server) : Server :=
  { server with store := server.store.mapTexts f }

@[simp] theorem Server.store_mapTexts (f : Text → Text) (server : Server) :
    (server.mapTexts f).store = server.store.mapTexts f :=
  rfl

@[simp] theorem Server.phase_mapTexts (f : Text → Text) (server : Server) :
    (server.mapTexts f).phase = server.phase :=
  rfl

end ScriptAssist
