import ScriptAssist.Json.Basic

/-!
# Reading values

The text of a value is cut into tokens: brackets, separators, strings and the
remaining scalars.  The value is then read from its tokens by a machine whose
stack holds the arrays and objects that are still open, the innermost first.
-/

namespace ScriptAssist
namespace Json

inductive Token where
  | arrayStart
  | arrayEnd
  | objectStart
  | objectEnd
  | comma
  | colon
  | string (value : String)
  -- A number or one of the words `null`, `true` and `false`.
  | scalar (value : Json)

/-!
# Strings

A character outside the basic plane is escaped as two code units, each of four
hexadecimal digits; one without the other is no character.
-/

def hexDigit? (c : Char) : Option Nat :=
  if c.isDigit then some (c.toNat - '0'.toNat)
  else if 'a' ≤ c ∧ c ≤ 'f' then some (c.toNat - 'a'.toNat + 10)
  else if 'A' ≤ c ∧ c ≤ 'F' then some (c.toNat - 'A'.toNat + 10)
  else none

def codeUnit? (a b c d : Char) : Option Nat := do
  return 4096 * (← hexDigit? a) + 256 * (← hexDigit? b)
    + 16 * (← hexDigit? c) + (← hexDigit? d)

def escaped? : Char → Option Char
  | '"' => some '"'
  | '\\' => some '\\'
  | '/' => some '/'
  | 'b' => some '\x08'
  | 'f' => some '\x0c'
  | 'n' => some '\n'
  | 'r' => some '\r'
  | 't' => some '\t'
  | _ => none

def isHighSurrogate (unit : Nat) : Bool :=
  0xD800 ≤ unit && unit < 0xDC00

def isLowSurrogate (unit : Nat) : Bool :=
  0xDC00 ≤ unit && unit < 0xE000

def joinSurrogates (high low : Nat) : Char :=
  Char.ofNat (0x10000 + 0x400 * (high - 0xD800) + (low - 0xDC00))

/-- Reads a string after its opening quote and returns it with the text after
its closing quote.  `high` is a surrogate that waits for its other half, and
`read` holds the characters read so far, the last one first. -/
def readString? (high : Option Nat) (read : List Char) :
    List Char → Option (String × List Char)
  | '\\' :: 'u' :: a :: b :: c :: d :: rest =>
      match codeUnit? a b c d, high with
      | none, _ => none
      | some unit, none =>
          if isHighSurrogate unit then readString? (some unit) read rest
          else if isLowSurrogate unit then none
          else readString? none (Char.ofNat unit :: read) rest
      | some unit, some high =>
          if isLowSurrogate unit then
            readString? none (joinSurrogates high unit :: read) rest
          else none
  | '\\' :: c :: rest =>
      match escaped? c, high with
      | some character, none => readString? none (character :: read) rest
      | _, _ => none
  | c :: rest =>
      if high.isSome || c = '\\' || c.toNat < 0x20 then none
      else if c = '"' then some (String.ofList read.reverse, rest)
      else readString? none (c :: read) rest
  | [] => none

theorem length_lt_of_readString? {high : Option Nat} {read chars rest : List Char}
    {value : String} (h : readString? high read chars = some (value, rest)) :
    rest.length < chars.length := by
  fun_induction readString? high read chars <;>
    simp only [List.length_cons, List.length_nil] <;> grind

/-!
# Cutting a text into tokens

A run of letters, or of characters that occur in numbers, is one token; it has
to be a scalar as a whole.
-/

def isSpace (c : Char) : Bool :=
  c = ' ' || c = '\t' || c = '\n' || c = '\r'

def isNumberChar (c : Char) : Bool :=
  c.isDigit || c = '-' || c = '+' || c = '.' || c = 'e' || c = 'E'

def mark? : Char → Option Token
  | '[' => some .arrayStart
  | ']' => some .arrayEnd
  | '\x7b' => some .objectStart
  | '\x7d' => some .objectEnd
  | ',' => some .comma
  | ':' => some .colon
  | _ => none

def word? (chars : List Char) : Option Json :=
  if chars = ['n', 'u', 'l', 'l'] then some .null
  else if chars = ['t', 'r', 'u', 'e'] then some (.bool true)
  else if chars = ['f', 'a', 'l', 's', 'e'] then some (.bool false)
  else none

def number? (chars : List Char) : Option Json := do
  return .num (← (← Number.Literal.read? chars).number?)

def tokens? (chars : List Char) : Option (List Token) :=
  match chars with
  | [] => some []
  | c :: rest =>
      if isSpace c then
        tokens? rest
      else if c = '"' then
        match h : readString? none [] rest with
        | none => none
        | some (value, after) =>
            have : after.length < rest.length := length_lt_of_readString? h
            (tokens? after).map (Token.string value :: ·)
      else if c.isDigit || c = '-' then
        have : (rest.dropWhile isNumberChar).length ≤ rest.length :=
          (List.dropWhile_sublist isNumberChar).length_le
        match number? (c :: rest.takeWhile isNumberChar) with
        | none => none
        | some value =>
            (tokens? (rest.dropWhile isNumberChar)).map (Token.scalar value :: ·)
      else if c.isAlpha then
        have : (rest.dropWhile Char.isAlpha).length ≤ rest.length :=
          (List.dropWhile_sublist Char.isAlpha).length_le
        match word? (c :: rest.takeWhile Char.isAlpha) with
        | none => none
        | some value =>
            (tokens? (rest.dropWhile Char.isAlpha)).map (Token.scalar value :: ·)
      else
        match mark? c with
        | none => none
        | some token => (tokens? rest).map (token :: ·)
termination_by chars.length

/-!
# From tokens to a value

The machine refuses a text that nests arrays and objects more than `maxDepth`
deep.
-/

def maxDepth : Nat := 127

namespace Reader

inductive Frame where
  | array (elements : List Json)
  | object (fields : Fields) (name : String)

/-- Where the machine stands between two tokens. -/
inductive State where
  -- A value has to come; right after an opening bracket, also its end.
  | value (atStart : Bool) (stack : List Frame)
  -- The name of a field has to come; right after an opening brace, also its end.
  | name (atStart : Bool) (fields : Fields) (stack : List Frame)
  | colon (fields : Fields) (name : String) (stack : List Frame)
  | done (value : Json) (stack : List Frame)

def enter (next : State) (stack : List Frame) : Option State :=
  if stack.length < maxDepth then some next else none

def step : State → Token → Option State
  | .value _ stack, .scalar value => some (.done value stack)
  | .value _ stack, .string value => some (.done (.str value) stack)
  | .value _ stack, .arrayStart => enter (.value true (.array [] :: stack)) stack
  | .value _ stack, .objectStart => enter (.name true [] stack) stack
  | .value true (.array [] :: stack), .arrayEnd => some (.done (.arr []) stack)
  | .name _ fields stack, .string name => some (.colon fields name stack)
  | .name true fields stack, .objectEnd => some (.done (.obj fields) stack)
  | .colon fields name stack, .colon =>
      some (.value false (.object fields name :: stack))
  | .done value (.array elements :: stack), .comma =>
      some (.value false (.array (elements ++ [value]) :: stack))
  | .done value (.array elements :: stack), .arrayEnd =>
      some (.done (.arr (elements ++ [value])) stack)
  | .done value (.object fields name :: stack), .comma =>
      some (.name false (fields.set name value) stack)
  | .done value (.object fields name :: stack), .objectEnd =>
      some (.done (.obj (fields.set name value)) stack)
  | _, _ => none

end Reader

/-- The value that a text spells, or nothing if it spells none. -/
def read? (text : String) : Option Json := do
  let tokens ← tokens? text.toList
  match ← tokens.foldlM Reader.step (.value false []) with
  | .done value [] => some value
  | _ => none

end Json
end ScriptAssist
