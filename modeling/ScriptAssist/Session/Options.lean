import ScriptAssist.Json.Decode
import ScriptAssist.Text.Printable

/-!
# Options of a session

A client chooses its options once, when the session starts.  They are given by
name or as a list in a fixed order; what is not given keeps the default of the
platform, and a value with a single wrong field is refused as a whole.
-/

namespace ScriptAssist

inductive Platform where
  | windows
  | other
  deriving DecidableEq, Repr

def Platform.lineTerminator : Platform → String
  | .windows => "\r\n"
  | .other => "\n"

/-- What a client may choose for a session: how lines end, which is also a text
after which it asks for completions, and whether findings are published. -/
structure Options where
  lineTerminator : String
  diagnostics : Bool
  deriving DecidableEq, Repr

namespace Options

def standard (platform : Platform) : Options where
  lineTerminator := platform.lineTerminator
  diagnostics := true

/-!
# Faults

A fault keeps what was found and what was expected in its place; the words for
both are chosen here alone.
-/

inductive Expected where
  | boolean
  | string
  | options
  deriving DecidableEq, Repr

inductive Fault where
  | wrongType (found : Json) (expected : Expected)
  | tooLong (length : Nat)
  deriving Repr

def Expected.text : Expected → String
  | .boolean => "a boolean"
  | .string => "a string"
  | .options => "struct ServerConfig"

def found : Json → String
  | .null => "null"
  | .bool true => "boolean `true`"
  | .bool false => "boolean `false`"
  | .num (.integer value) => "integer `" ++ (Number.integer value).text ++ "`"
  | .num (.float negative magnitude) =>
      "floating point `" ++ (Number.float negative magnitude).text ++ "`"
  | .str value => "string " ++ Text.quoted value
  | .arr _ => "sequence"
  | .obj _ => "map"

def Fault.message : Fault → String
  | .wrongType value expected =>
      "invalid initialization options: invalid type: " ++ found value
        ++ ", expected " ++ expected.text
  | .tooLong length =>
      "invalid initialization options: invalid length " ++ toString length
        ++ ", expected fewer elements in array"

/-!
# Reading options

A missing field gives the default.  Of two wrong fields of an object, the one
about diagnostics is reported; of two wrong elements of an array, the first.
-/

section Reading

variable (platform : Platform)

def readLineTerminator : Option Json → Except Fault String
  | none => .ok (standard platform).lineTerminator
  | some (.str value) => .ok value
  | some value => .error (.wrongType value .string)

def readDiagnostics : Option Json → Except Fault Bool
  | none => .ok (standard platform).diagnostics
  | some (.bool value) => .ok value
  | some value => .error (.wrongType value .boolean)

def ofJson : Json → Except Fault Options
  | .null => .ok (standard platform)
  | .obj fields => do
      let diagnostics ← readDiagnostics platform (fields.lookup "diagnostics")
      let lineTerminator ← readLineTerminator platform (fields.lookup "lineTerminator")
      return { lineTerminator, diagnostics }
  | .arr elements => do
      let lineTerminator ← readLineTerminator platform elements[0]?
      let diagnostics ← readDiagnostics platform elements[1]?
      if 2 < elements.length then
        throw (.tooLong elements.length)
      return { lineTerminator, diagnostics }
  | value => .error (.wrongType value .options)

/-- The options of a session whose client sends the given value, or none. A
value that is refused counts for nothing. -/
def ofRequest (value : Option Json) : Options :=
  match ofJson platform (value.getD .null) with
  | .ok options => options
  | .error _ => standard platform

end Reading

/-!
# What the server offers

The same to every client, but for the texts after which a client asks for
completions.
-/

def triggers (options : Options) : List String :=
  [" ", "\""] ++ (if options.lineTerminator = "" then [] else [options.lineTerminator])

def capabilities (options : Options) : Json :=
  .obj [
    -- Documents are synchronised by incremental changes, which have the number 2.
    ("textDocumentSync", .obj [("openClose", .bool true), ("change", .nat 2)]),
    ("completionProvider", .obj [
      ("resolveProvider", .bool true),
      ("triggerCharacters", .arr (options.triggers.map .str))]),
    ("hoverProvider", .bool true)]

end Options
end ScriptAssist
