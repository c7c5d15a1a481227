/-!
# Texts

A text is a list of characters.  This module holds the class of characters that
separate words, the ways in which lines are trimmed by it, and the two measures
of a text.
-/

namespace ScriptAssist

/-- A text is its list of Unicode scalar values. -/
abbrev Text := List Char

namespace Text

/-!
# Blanks

The script language separates words by any character of the Unicode class
`White_Space`, not only by the ASCII blanks.  The ranges of code points are
inclusive, disjoint and in increasing order.
-/

def blankRanges : List (Nat × Nat) :=
  [(0x0009, 0x000D), (0x0020, 0x0020), (0x0085, 0x0085), (0x00A0, 0x00A0),
   (0x1680, 0x1680), (0x2000, 0x200A), (0x2028, 0x2029), (0x202F, 0x202F),
   (0x205F, 0x205F), (0x3000, 0x3000)]

def isBlank (c : Char) : Bool :=
  blankRanges.any fun range => range.1 ≤ c.toNat && c.toNat ≤ range.2

def indentation (line : Text) : Text :=
  line.takeWhile isBlank

def trimStart (line : Text) : Text :=
  line.dropWhile isBlank

def trimEnd (line : Text) : Text :=
  (line.reverse.dropWhile isBlank).reverse

def trim (line : Text) : Text :=
  trimEnd (trimStart line)

theorem indentation_append_trimStart (line : Text) :
    indentation line ++ trimStart line = line :=
  List.takeWhile_append_dropWhile

/-!
# Measures

An editor counts columns in UTF-16 code units, a script on disk is counted in
UTF-8 bytes.  Both measures are sums over characters, so they are additive
over concatenation.
-/

def unitsOf (c : Char) : Nat :=
  if c.toNat < 0x10000 then 1 else 2

def columns : Text → Nat
  | [] => 0
  | c :: rest => unitsOf c + columns rest

def bytes : Text → Nat
  | [] => 0
  | c :: rest => c.utf8Size + bytes rest

@[simp] theorem columns_nil : columns [] = 0 :=
  rfl

@[simp] theorem columns_cons (c : Char) (text : Text) :
    columns (c :: text) = unitsOf c + columns text :=
  rfl

@[simp] theorem columns_append (left right : Text) :
    columns (left ++ right) = columns left + columns right := by
  induction left with
  | nil =>
      simp
  | cons c rest ih =>
      rw [List.cons_append, columns_cons, columns_cons, ih, Nat.add_assoc]

@[simp] theorem columns_reverse (text : Text) :
    columns text.reverse = columns text := by
  induction text with
  | nil =>
      rfl
  | cons c rest ih =>
      rw [List.reverse_cons, columns_append, columns_cons, columns_cons, ih,
        columns_nil, Nat.add_zero, Nat.add_comm]

@[simp] theorem bytes_nil : bytes [] = 0 :=
  rfl

@[simp] theorem bytes_cons (c : Char) (text : Text) :
    bytes (c :: text) = c.utf8Size + bytes text :=
  rfl

@[simp] theorem bytes_append (left right : Text) :
    bytes (left ++ right) = bytes left + bytes right := by
  induction left with
  | nil =>
      simp
  | cons c rest ih =>
      rw [List.cons_append, bytes_cons, bytes_cons, ih, Nat.add_assoc]

theorem unitsOf_pos (c : Char) : 0 < unitsOf c := by
  unfold unitsOf
  split <;> decide

end Text
end ScriptAssist
