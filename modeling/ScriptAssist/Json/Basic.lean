import ScriptAssist.Number.Literal

/-!
# Message values

Client and server exchange values of one dynamic kind.  The fields of an
object keep the order in which they were written; a name occurs once.
-/

namespace ScriptAssist

/-- A value as messages carry it. -/
inductive Json where
  | null
  | bool (value : Bool)
  | num (value : Number)
  | str (value : String)
  | arr (elements : List Json)
  | obj (fields : List (String × Json))
  deriving Repr

namespace Json

abbrev Fields := List (String × Json)

def Fields.set (fields : Fields) (name : String) (value : Json) : Fields :=
  if fields.any (·.1 == name) then
    fields.map fun field => if field.1 == name then (name, value) else field
  else
    fields ++ [(name, value)]

def int (value : Int) : Json :=
  .num (.integer value)

def nat (value : Nat) : Json :=
  int value

def ofFields (fields : List (String × Option Json)) : Json :=
  .obj (fields.filterMap fun field => field.2.map (field.1, ·))

/-!
# Writing values

A value is written on one line without blanks.  Characters that some reader
takes for the end of a line are escaped, so that a written value stays on its
line.
-/

def hexUnit (unit : Nat) : String :=
  let digits := Nat.toDigits 16 unit
  String.ofList (List.replicate (4 - digits.length) '0' ++ digits)

def escape (c : Char) : String :=
  if c = '"' then "\\\""
  else if c = '\\' then "\\\\"
  else if c = '\n' then "\\n"
  else if c = '\r' then "\\r"
  else if c = '\t' then "\\t"
  else if c.toNat < 0x20 || c.toNat = 0x85 || c.toNat = 0x2028 || c.toNat = 0x2029 then
    "\\u" ++ hexUnit c.toNat
  else
    c.toString

def quote (value : String) : String :=
  value.toList.foldl (fun written c => written ++ escape c) "\"" ++ "\""

mutual

def write : Json → String
  | .null => "null"
  | .bool true => "true"
  | .bool false => "false"
  | .num value => value.text
  | .str value => quote value
  | .arr elements => "[" ++ ",".intercalate (writeElements elements) ++ "]"
  | .obj fields => "\x7b" ++ ",".intercalate (writeFields fields) ++ "\x7d"

def writeElements : List Json → List String
  | [] => []
  | value :: rest => write value :: writeElements rest

def writeFields : List (String × Json) → List String
  | [] => []
  | (name, value) :: rest => (quote name ++ ":" ++ write value) :: writeFields rest

end

end Json
end ScriptAssist
