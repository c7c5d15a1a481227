import ScriptAssist.Completion.Context
import ScriptAssist.Completion.Item

/-!
# Candidates

The candidates of a context are the entries of one catalog, in its order.  A
candidate goes out without its description; it carries the name of its
catalog, so that the description can be looked up when the client asks for it.
-/

namespace ScriptAssist

inductive Origin where
  | command
  | browser
  | feature
  deriving DecidableEq, Repr

namespace Origin

def name : Origin → String
  | .command => "command"
  | .browser => "browser"
  | .feature => "feature"

def ofName? : String → Option Origin
  | "command" => some .command
  | "browser" => some .browser
  | "feature" => some .feature
  | _ => none

def toJson (origin : Origin) : Json :=
  .obj [("catalog", .str origin.name)]

def ofJson? (value : Json) : Option Origin := do
  let record ← value.asRecord? ["catalog"]
  let name ← record.required? "catalog" Json.asCase?
  ofName? name

def ofCommand? (command : String) : Option Origin :=
  if command = Vocabulary.browserCommand then some .browser
  else if command = Vocabulary.featureCommand then some .feature
  else none

end Origin

namespace InsertKind

-- Clients know kinds and formats by their numbers.
def code : InsertKind → Int
  | .call => 3
  | .value => 12
  | .keyword => 14
  | .snippet => 15

def formatCode (kind : InsertKind) : Int :=
  if kind.isSnippet then 2 else 1

end InsertKind

namespace Item

def ofCommand (entry : Command) : Item where
  label := entry.keyword
  kind := some entry.kind.code
  insertText := some entry.template
  insertTextFormat := some entry.kind.formatCode
  data := some Origin.command.toJson

def ofArgumentValue (origin : Origin) (entry : ArgumentValue) : Item where
  label := entry.label
  kind := some entry.kind.code
  insertText := some entry.template
  insertTextFormat := some entry.kind.formatCode
  data := some origin.toJson

def replaceUpTo (caret : Position) (template : String) : TextEdit where
  range := ⟨⟨caret.line, 0⟩, caret⟩
  newText := template

/-- The candidate for a command at a caret. The passage opener replaces all that
has been typed on the line. -/
def ofCommandAt (caret : Position) (entry : Command) : Item :=
  if entry.keyword = Vocabulary.passageOpener then
    { ofCommand entry with textEdit := some (.fixed (replaceUpTo caret entry.template)) }
  else
    ofCommand entry

end Item

namespace Context

def candidates (context : Context) (caret : Position) : List Item :=
  match context with
  | .topLevel => Vocabulary.commands.entries.map (Item.ofCommandAt caret)
  | .argumentOf command =>
      match Vocabulary.argumentsOf? command, Origin.ofCommand? command with
      | some catalog, some origin =>
          catalog.entries.map (Item.ofArgumentValue origin)
      | _, _ => []
  | .noSuggestion => []

end Context

namespace Script

/-- The candidates at a position of a script; beyond its last line there are none. -/
def completions (text : Text) (caret : Position) : List Item :=
  match caret.textBefore? text with
  | none => []
  | some line => (Context.classify line).candidates caret

end Script

/-!
# Details

A client asks for the details of one item at a time.  The item names the
catalog of its entry; an item that names none is taken for a command.  An item
whose entry is not found is returned as it is.
-/

namespace Item

def unquote (label : String) : String :=
  let opened := label.toList.dropWhile (· == '"')
  String.ofList (opened.reverse.dropWhile (· == '"')).reverse

def origin (item : Item) : Origin :=
  (item.data.bind Origin.ofJson?).getD .command

def describe (description : String) : Documentation :=
  .markup .markdown description

def resolveIn (catalog : Catalog ArgumentValue) (item : Item) : Item :=
  match catalog.find? (unquote item.label) with
  | none => item
  | some entry =>
      { item with
        detail := some entry.detail
        documentation := entry.description.map describe }

/-- Adds the details of its entry to an item. -/
def resolve (item : Item) : Item :=
  match item.origin with
  | .command =>
      match Vocabulary.commands.find? item.label with
      | none => item
      | some entry =>
          { item with
            detail := some entry.usage
            documentation := some (describe entry.description) }
  | .browser => item.resolveIn Vocabulary.browsers
  | .feature => item.resolveIn Vocabulary.features

end Item
end ScriptAssist
