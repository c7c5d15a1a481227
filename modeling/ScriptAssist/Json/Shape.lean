import ScriptAssist.Json.Decode

/-!
# Shapes of values

A shape says which values a reader is prepared for.  Where the content of a
value does not matter, but a value of another shape is an error, it is enough to
check the shape.

A record is given by name, where other fields do not matter, or as an array of
its fields in order.
-/

namespace ScriptAssist
namespace Json

/-- What a value may look like. -/
inductive Shape where
  | anything
  | boolean
  | string
  | stringThat (valid : String → Bool)
  | integer
  | natural
  | oneOf (names : List String)
  | listOf (element : Shape)
  -- A record, by name or as an array of its fields in order.
  | record (fields : List (String × Shape))
  | object (fields : List (String × Shape))
  | either (first second : Shape)
  | optional (content : Shape)
  -- A value or `null`; as a field it may be missing, also at the end of an array.
  | omissible (content : Shape)

namespace Shape

def mayBeMissing : Shape → Bool
  | .optional _ | .omissible _ => true
  | _ => false

def mayBeOmitted : Shape → Bool
  | .omissible _ => true
  | _ => false

mutual

def accepts : Shape → Json → Bool
  | .anything, _ => true
  | .boolean, value => value.asBool?.isSome
  | .string, value => value.asString?.isSome
  | .stringThat valid, value => value.asString?.any valid
  | .integer, value => value.asInt32?.isSome
  | .natural, value => value.asNat32?.isSome
  | .oneOf names, value => value.asCase?.any names.contains
  | .listOf element, .arr elements => elements.all element.accepts
  | .listOf _, _ => false
  | .record fields, .obj values => acceptsFields fields values
  | .record fields, .arr elements => acceptsElements fields elements
  | .record _, _ => false
  | .object fields, .obj values => acceptsFields fields values
  | .object _, _ => false
  | .either first second, value => first.accepts value || second.accepts value
  | .optional _, .null => true
  | .optional content, value => content.accepts value
  | .omissible _, .null => true
  | .omissible content, value => content.accepts value

def acceptsFields : List (String × Shape) → Fields → Bool
  | [], _ => true
  | (name, shape) :: rest, values =>
      (match values.lookup name with
        | some value => shape.accepts value
        | none => shape.mayBeMissing)
        && acceptsFields rest values

def acceptsElements : List (String × Shape) → List Json → Bool
  | [], elements => elements.isEmpty
  | (_, shape) :: rest, [] => shape.mayBeOmitted && acceptsElements rest []
  | (_, shape) :: rest, element :: elements =>
      shape.accepts element && acceptsElements rest elements

end

def take? (shape : Shape) (value : Json) : Option Json :=
  if shape.accepts value then some value else none

end Shape
end Json
end ScriptAssist
