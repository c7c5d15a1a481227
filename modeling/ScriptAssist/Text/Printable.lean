import ScriptAssist.Text.Basic

/-!
# Printable text

A terminal takes some characters of a text for orders: control characters and
control sequences, which set colours or move the cursor.  What is written
elsewhere than to a terminal is written without them.  Main statements: the
printable part of a text is a part of it, and a text without orders is left as
it is.  Where a message shows a text as a value, it quotes it.
-/

namespace ScriptAssist
namespace Text

/-!
# Classes of characters

Layout are the control characters that belong to a text: they are printed as
every character is that a text shows as such.
-/

def isLayout (c : Char) : Bool :=
  c = '\t' || c = '\n' || c = '\x0c' || c = '\r'

def inRange (low high : Nat) (c : Char) : Bool :=
  low ≤ c.toNat && c.toNat ≤ high

def isPrintable (c : Char) : Bool :=
  isLayout c || (0x20 ≤ c.toNat && c.toNat ≠ 0x7f)

/-- Whether one of the bytes that encode a character, its first one apart, is the
byte `0x9c`, which by itself ends a control string. -/
def hidesTerminator (c : Char) : Bool :=
  let code := c.toNat
  (0x80 ≤ code && code % 64 = 28)
    || (0x800 ≤ code && code / 64 % 64 = 28)
    || (0x10000 ≤ code && code / 4096 % 64 = 28)

/-!
# Control sequences

A sequence starts with the escape character, wherever that stands.  It may have
parameters, or lead a string for the system or for a device; two control
characters end any.
-/

inductive Sequence where
  | outside
  | escape
  -- After the escape character and a character that goes before the last one.
  | escapeMiddle
  | control
  | system
  | deviceHead
  | deviceParameters
  | deviceMiddle
  | body
  deriving DecidableEq, Repr

namespace Sequence

def next (sequence : Sequence) (c : Char) : Sequence :=
  if c = '\x1b' then .escape
  else if c = '\x18' ∨ c = '\x1a' then .outside
  else
    match sequence with
    | .outside => .outside
    | .escape =>
        if inRange 0x20 0x2f c then .escapeMiddle
        else if c = '[' then .control
        else if c = ']' then .system
        else if c = 'P' then .deviceHead
        else if c = 'X' ∨ c = '^' ∨ c = '_' then .body
        else if inRange 0x30 0x7e c then .outside
        else .escape
    | .escapeMiddle => if inRange 0x30 0x7e c then .outside else .escapeMiddle
    | .control => if inRange 0x40 0x7e c then .outside else .control
    | .system => if c = '\x07' then .outside else .system
    | .deviceHead =>
        if inRange 0x20 0x2f c then .deviceMiddle
        else if inRange 0x30 0x3f c then .deviceParameters
        else if inRange 0x40 0x7e c then .body
        else .deviceHead
    | .deviceParameters =>
        if inRange 0x20 0x2f c then .deviceMiddle
        else if inRange 0x3c 0x7e c then .body
        else .deviceParameters
    | .deviceMiddle => if inRange 0x30 0x7e c then .body else .deviceMiddle
    | .body => if hidesTerminator c then .outside else .body

def shows (sequence : Sequence) (printing : Bool) (c : Char) : Bool :=
  match sequence, printing with
  | _, true | .outside, _ => isPrintable c
  | .escape, _ | .escapeMiddle, _ | .control, _ => isLayout c
  | _, _ => false

end Sequence

/-!
# The printable part

Layout goes through sequences, but not through strings.  Once a character has
been shown, what follows is printed up to the next control character; only then
is a sequence that layout had interrupted taken up again.
-/

def printableFrom (printing : Bool) (sequence : Sequence) : Text → Text
  | [] => []
  | c :: rest =>
      if sequence.shows printing c then
        c :: printableFrom true (if c.toNat < 0x80 then sequence else .outside) rest
      else
        printableFrom false (sequence.next c) rest

/-- A text without the characters that a terminal takes for orders. -/
def printable (text : Text) : Text :=
  printableFrom false .outside text

theorem printableFrom_sublist (printing : Bool) (sequence : Sequence) (text : Text) :
    (printableFrom printing sequence text).Sublist text := by
  induction text generalizing printing sequence with
  | nil =>
      exact List.Sublist.slnil
  | cons c rest ih =>
      rw [printableFrom]
      split
      · exact (ih _ _).cons_cons c
      · exact (ih _ _).cons c

theorem printable_sublist (text : Text) : (printable text).Sublist text :=
  printableFrom_sublist _ _ text

theorem printableFrom_eq_self (printing : Bool) (text : Text)
    (h : ∀ c ∈ text, isPrintable c = true) :
    printableFrom printing .outside text = text := by
  induction text generalizing printing with
  | nil =>
      rfl
  | cons c rest ih =>
      have hc : isPrintable c = true := h c List.mem_cons_self
      have hrest := ih true fun d hd => h d (List.mem_cons_of_mem c hd)
      cases printing <;> simp [printableFrom, Sequence.shows, hc, hrest]

theorem printable_eq_self (text : Text) (h : ∀ c ∈ text, isPrintable c = true) :
    printable text = text :=
  printableFrom_eq_self false text h

example : printable "\x1b[31mred\x1b[0m".toList = "red".toList := by decide
example : printable "a\x01\tb\x7f".toList = "a\tb".toList := by decide

/-!
# Quoted text

Messages for people show a text between double quotes, on one line: quotes and
backslashes are marked by a backslash, and control characters are named.
-/

def quotedChar (c : Char) : Text :=
  if c = '"' then ['\\', '"']
  else if c = '\\' then ['\\', '\\']
  else if c = '\n' then ['\\', 'n']
  else if c = '\r' then ['\\', 'r']
  else if c = '\t' then ['\\', 't']
  else if c.toNat = 0 then ['\\', '0']
  else if c.toNat < 0x20 || c.toNat = 0x7F then
    '\\' :: 'u' :: '\x7b' :: Nat.toDigits 16 c.toNat ++ ['\x7d']
  else [c]

def quoted (text : String) : String :=
  String.ofList ('"' :: text.toList.flatMap quotedChar ++ ['"'])

end Text
end ScriptAssist
