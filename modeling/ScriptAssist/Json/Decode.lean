import ScriptAssist.Json.Basic
import ScriptAssist.Text.Position

/-!
# Taking values apart

Decoders turn a dynamic value into a value of a known kind, or refuse it.
Numbers are accepted as integers of a fixed width only; a record may be
written as an object, by name, or as an array of all its fields in order.
-/

namespace ScriptAssist
namespace Json

/-!
# Scalars
-/

def asString? : Json → Option String
  | .str value => some value
  | _ => none

def asBool? : Json → Option Bool
  | .bool value => some value
  | _ => none

def asInt? (least greatest : Int) : Json → Option Int
  | .num (.integer value) =>
      if least ≤ value ∧ value ≤ greatest then some value else none
  | _ => none

def asInt32? : Json → Option Int :=
  asInt? (-0x80000000) 0x7FFFFFFF

def asNat32? (value : Json) : Option Nat :=
  (asInt? 0 0xFFFFFFFF value).map Int.toNat

/-!
# Compound values

A field of a record has to be there or may be missing; one that may be missing
may also be written as `null`.
-/

def asList? {α : Type} (element? : Json → Option α) : Json → Option (List α)
  | .arr elements => elements.mapM element?
  | _ => none

/-- The name of one of several cases, also written as an object whose only field
has that name and holds nothing. -/
def asCase? : Json → Option String
  | .str name => some name
  | .obj [(name, .null)] => some name
  | _ => none

abbrev Record := String → Option Json

def asObject? : Json → Option Record
  | .obj fields => some fun name => fields.lookup name
  | _ => none

/-- The fields of a record, given by name or as an array in the order of `names`. -/
def asRecord? (names : List String) : Json → Option Record
  | .arr elements =>
      if elements.length = names.length then
        some fun name => (names.zip elements).lookup name
      else
        none
  | value => asObject? value

namespace Record

def required? {α : Type} (record : Record) (name : String)
    (decode? : Json → Option α) : Option α :=
  (record name).bind decode?

def optional? {α : Type} (record : Record) (name : String)
    (decode? : Json → Option α) : Option (Option α) :=
  match record name with
  | none | some .null => some none
  | some value => (decode? value).map some

end Record
end Json

/-!
# Places and changes

Positions, ranges and changes as clients write them.  Lines and columns are
unsigned integers of 32 bits, and the ends of a range may come in either order.
-/

namespace Position

def ofJson? (value : Json) : Option Position := do
  let record ← value.asRecord? ["line", "character"]
  return {
    line := ← record.required? "line" Json.asNat32?
    character := ← record.required? "character" Json.asNat32? }

def toJson (position : Position) : Json :=
  .obj [("line", .nat position.line), ("character", .nat position.character)]

end Position

namespace Range

def ofJson? (value : Json) : Option Range := do
  let record ← value.asRecord? ["start", "end"]
  return {
    start := ← record.required? "start" Position.ofJson?
    stop := ← record.required? "end" Position.ofJson? }

def toJson (range : Range) : Json :=
  .obj [("start", range.start.toJson), ("end", range.stop.toJson)]

end Range

namespace Change

def ofJson? (value : Json) : Option Change := do
  let record ← value.asRecord? ["range", "rangeLength", "text"]
  -- The length of the range may be given too and is not used.
  let _ ← record.optional? "rangeLength" Json.asNat32?
  return {
    range := ← record.optional? "range" Range.ofJson?
    text := (← record.required? "text" Json.asString?).toList }

end Change

end ScriptAssist
