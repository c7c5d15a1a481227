import ScriptAssist.Json.Decode

/-!
# Completion items

A completion item is what client and server pass to each other about one
candidate.  Besides the fields that the server fills in, a client may send
further ones; all of them are kept.
-/

namespace ScriptAssist

inductive Markup where
  | plainText
  | markdown
  deriving DecidableEq, Repr

inductive Documentation where
  | text (value : String)
  | markup (kind : Markup) (value : String)
  deriving DecidableEq, Repr

structure TextEdit where
  range : Range
  newText : String
  deriving DecidableEq, Repr

inductive Insertion where
  | fixed (edit : TextEdit)
  -- The client chooses which of two ranges gives way to the text.
  | choice (newText : String) (insert replace : Range)
  deriving DecidableEq, Repr

structure LabelDetails where
  detail : Option String := none
  description : Option String := none
  deriving DecidableEq, Repr

/-- What a client is to run once it has taken an item over. -/
structure FollowUp where
  title : String
  command : String
  arguments : Option (List Json) := none
  deriving Repr

structure Item where
  label : String
  labelDetails : Option LabelDetails := none
  kind : Option Int := none
  detail : Option String := none
  documentation : Option Documentation := none
  deprecated : Option Bool := none
  preselect : Option Bool := none
  sortText : Option String := none
  filterText : Option String := none
  insertText : Option String := none
  insertTextFormat : Option Int := none
  insertTextMode : Option Int := none
  textEdit : Option Insertion := none
  additionalTextEdits : Option (List TextEdit) := none
  command : Option FollowUp := none
  commitCharacters : Option (List String) := none
  data : Option Json := none
  tags : Option (List Int) := none
  deriving Repr

/-!
# Exchange with clients

Items are read and written with all of their fields, in a fixed order.  Fields
that items do not have are passed over, and absent ones are not written.  A
documentation that is a bare string is a text without markup.
-/

namespace TextEdit

def ofJson? (value : Json) : Option TextEdit := do
  let record ← value.asRecord? ["range", "newText"]
  return {
    range := ← record.required? "range" Range.ofJson?
    newText := ← record.required? "newText" Json.asString? }

def toJson (edit : TextEdit) : Json :=
  .obj [("range", edit.range.toJson), ("newText", .str edit.newText)]

def toChange (edit : TextEdit) : Change :=
  ⟨some edit.range, edit.newText.toList⟩

end TextEdit

namespace Insertion

def choiceOfJson? (value : Json) : Option Insertion := do
  let record ← value.asRecord? ["newText", "insert", "replace"]
  return .choice (← record.required? "newText" Json.asString?)
    (← record.required? "insert" Range.ofJson?)
    (← record.required? "replace" Range.ofJson?)

def ofJson? (value : Json) : Option Insertion :=
  (TextEdit.ofJson? value).map .fixed <|> choiceOfJson? value

def toJson : Insertion → Json
  | .fixed edit => edit.toJson
  | .choice newText insert replace =>
      .obj [("newText", .str newText), ("insert", insert.toJson),
        ("replace", replace.toJson)]

end Insertion

namespace LabelDetails

def ofJson? (value : Json) : Option LabelDetails := do
  let record ← value.asRecord? ["detail", "description"]
  return {
    detail := ← record.optional? "detail" Json.asString?
    description := ← record.optional? "description" Json.asString? }

def toJson (details : LabelDetails) : Json :=
  .ofFields [("detail", details.detail.map .str),
    ("description", details.description.map .str)]

end LabelDetails

namespace FollowUp

def ofJson? (value : Json) : Option FollowUp := do
  let record ← value.asRecord? ["title", "command", "arguments"]
  return {
    title := ← record.required? "title" Json.asString?
    command := ← record.required? "command" Json.asString?
    arguments := ← record.optional? "arguments" (Json.asList? some) }

def toJson (followUp : FollowUp) : Json :=
  .ofFields [("title", some (.str followUp.title)),
    ("command", some (.str followUp.command)),
    ("arguments", followUp.arguments.map .arr)]

end FollowUp

namespace Markup

def name : Markup → String
  | .plainText => "plaintext"
  | .markdown => "markdown"

def ofJson? (value : Json) : Option Markup := do
  match ← value.asCase? with
  | "plaintext" => return .plainText
  | "markdown" => return .markdown
  | _ => none

end Markup

namespace Documentation

def ofJson? : Json → Option Documentation
  | .str value => some (.text value)
  | value => do
      let record ← value.asRecord? ["kind", "value"]
      return .markup (← record.required? "kind" Markup.ofJson?)
        (← record.required? "value" Json.asString?)

def toJson : Documentation → Json
  | .text value => .str value
  | .markup kind value => .obj [("kind", .str kind.name), ("value", .str value)]

end Documentation

namespace Item

def fieldNames : List String :=
  ["label", "labelDetails", "kind", "detail", "documentation", "deprecated",
   "preselect", "sortText", "filterText", "insertText", "insertTextFormat",
   "insertTextMode", "textEdit", "additionalTextEdits", "command",
   "commitCharacters", "data", "tags"]

def ofJson? (value : Json) : Option Item := do
  let record ← value.asRecord? fieldNames
  return {
    label := ← record.required? "label" Json.asString?
    labelDetails := ← record.optional? "labelDetails" LabelDetails.ofJson?
    kind := ← record.optional? "kind" Json.asInt32?
    detail := ← record.optional? "detail" Json.asString?
    documentation := ← record.optional? "documentation" Documentation.ofJson?
    deprecated := ← record.optional? "deprecated" Json.asBool?
    preselect := ← record.optional? "preselect" Json.asBool?
    sortText := ← record.optional? "sortText" Json.asString?
    filterText := ← record.optional? "filterText" Json.asString?
    insertText := ← record.optional? "insertText" Json.asString?
    insertTextFormat := ← record.optional? "insertTextFormat" Json.asInt32?
    insertTextMode := ← record.optional? "insertTextMode" Json.asInt32?
    textEdit := ← record.optional? "textEdit" Insertion.ofJson?
    additionalTextEdits := ←
      record.optional? "additionalTextEdits" (Json.asList? TextEdit.ofJson?)
    command := ← record.optional? "command" FollowUp.ofJson?
    commitCharacters := ←
      record.optional? "commitCharacters" (Json.asList? Json.asString?)
    data := ← record.optional? "data" some
    tags := ← record.optional? "tags" (Json.asList? Json.asInt32?) }

def toJson (item : Item) : Json :=
  .ofFields [
    ("label", some (.str item.label)),
    ("labelDetails", item.labelDetails.map LabelDetails.toJson),
    ("kind", item.kind.map .int),
    ("detail", item.detail.map .str),
    ("documentation", item.documentation.map Documentation.toJson),
    ("deprecated", item.deprecated.map .bool),
    ("preselect", item.preselect.map .bool),
    ("sortText", item.sortText.map .str),
    ("filterText", item.filterText.map .str),
    ("insertText", item.insertText.map .str),
    ("insertTextFormat", item.insertTextFormat.map .int),
    ("insertTextMode", item.insertTextMode.map .int),
    ("textEdit", item.textEdit.map Insertion.toJson),
    ("additionalTextEdits", item.additionalTextEdits.map fun edits =>
      .arr (edits.map TextEdit.toJson)),
    ("command", item.command.map FollowUp.toJson),
    ("commitCharacters", item.commitCharacters.map fun texts => .arr (texts.map .str)),
    ("data", item.data),
    ("tags", item.tags.map fun tags => .arr (tags.map .int))]

end Item
end ScriptAssist
