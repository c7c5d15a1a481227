import ScriptAssist.Proofs.Slices
import ScriptAssist.Proofs.Tokens

/-!
# The one word that leads a line

A line can be cut in at most one way into blanks, a word and a rest that does not
continue the word, and reading finds the word and its byte offset exactly if there
is such a cut.  Blanks at the end of the line make no difference.

A word can also be read on the bytes of a line.  The bytes of a command word are
its characters, and no character beyond ASCII has a first byte among them; so the
bytes end where the characters do, and the line can be cut there.
-/

namespace ScriptAssist

/-!
# Encoded texts
-/

namespace Text

def encoded (text : Text) : List UInt8 :=
  text.flatMap String.utf8EncodeChar

theorem encoded_cons (c : Char) (rest : Text) :
    encoded (c :: rest) = String.utf8EncodeChar c ++ encoded rest :=
  List.flatMap_cons

theorem length_encoded (text : Text) : (encoded text).length = bytes text := by
  induction text with
  | nil =>
      rfl
  | cons c rest ih =>
      rw [encoded_cons, List.length_append, String.length_utf8EncodeChar, ih, bytes_cons]

theorem bytes_eq_zero_iff {text : Text} : bytes text = 0 ↔ text = [] := by
  cases text with
  | nil =>
      exact ⟨fun _ => rfl, fun _ => rfl⟩
  | cons c rest =>
      have hpos := bytes_pos (List.cons_ne_nil c rest)
      constructor
      · intro h
        exact absurd h (Nat.ne_of_gt hpos)
      · intro h
        cases h

theorem bytes_sub_trimStart (line : Text) :
    bytes line - bytes (trimStart line) = bytes (indentation line) := by
  have hbytes := congrArg bytes (indentation_append_trimStart line)
  rw [bytes_append] at hbytes
  omega

theorem slice?_takeWhile (text : Text) (p : Char → Bool) :
    text.slice? 0 (bytes (text.takeWhile p)) = some (text.takeWhile p) :=
  slice?_eq_some_iff.mpr
    ⟨[], text.dropWhile p, List.takeWhile_append_dropWhile.symm, rfl, rfl⟩

theorem utf8EncodeChar_of_lt {c : Char} (h : c.toNat < 128) :
    ∃ byte, String.utf8EncodeChar c = [byte] ∧ byte.toNat = c.toNat := by
  refine ⟨UInt8.ofNat c.toNat, if_pos (Nat.le_of_lt_succ h), ?_⟩
  rw [UInt8.toNat_ofNat']
  omega

theorem le_toNat_markedByte (bits : Nat) {room mark : Nat} (hroom : 0 < room)
    (hmark : 128 ≤ mark) (hfits : room + mark ≤ 256) :
    128 ≤ (UInt8.ofNat (bits % room + mark)).toNat := by
  have hbits := Nat.mod_lt bits hroom
  rw [UInt8.toNat_ofNat', Nat.mod_eq_of_lt (by omega)]
  exact Nat.le_trans hmark (Nat.le_add_left _ _)

-- A character beyond ASCII starts with a byte beyond ASCII.
theorem exists_first_byte {c : Char} (h : 128 ≤ c.toNat) :
    ∃ first others, String.utf8EncodeChar c = first :: others ∧ 128 ≤ first.toNat := by
  have hlong : ¬ c.val.toNat ≤ 127 := Nat.not_le_of_lt h
  -- by the number of bytes: the first of more bytes has a greater mark and less room
  rw [String.utf8EncodeChar, if_neg hlong]
  split
  · exact ⟨_, _, rfl, le_toNat_markedByte _ (by decide) (by decide) (by decide)⟩
  · split
    · exact ⟨_, _, rfl, le_toNat_markedByte _ (by decide) (by decide) (by decide)⟩
    · exact ⟨_, _, rfl, le_toNat_markedByte _ (by decide) (by decide) (by decide)⟩

end Text

namespace Token

open Text

/-!
# Words on the bytes of a line
-/

def IsWordCode (code : Nat) : Prop :=
  code = 45 ∨ (48 ≤ code ∧ code ≤ 57) ∨ (65 ≤ code ∧ code ≤ 90) ∨
    (97 ≤ code ∧ code ≤ 122)

def isWordByte (byte : UInt8) : Bool :=
  (48 ≤ byte && byte ≤ 57) || (65 ≤ byte && byte ≤ 90) ||
    (97 ≤ byte && byte ≤ 122) || byte = 45

theorem isWordChar_iff {c : Char} : isWordChar c = true ↔ IsWordCode c.toNat := by
  constructor
  · exact toNat_of_isWordChar
  · intro h
    show (((c.isUpper || c.isLower) || c.isDigit) || decide (c = '-')) = true
    rw [Bool.or_eq_true, Bool.or_eq_true, Bool.or_eq_true, decide_eq_true_eq]
    rcases h with hhyphen | hdigit | hupper | hlower
    · exact Or.inr (Char.toNat_inj.mp hhyphen)
    · exact Or.inl (Or.inr ((Bool.and_eq_true _ _).mpr
        ⟨decide_eq_true hdigit.1, decide_eq_true hdigit.2⟩))
    · exact Or.inl (Or.inl (Or.inl (decide_eq_true hupper)))
    · exact Or.inl (Or.inl (Or.inr ((Bool.and_eq_true _ _).mpr
        ⟨decide_eq_true hlower.1, decide_eq_true hlower.2⟩)))

theorem isWordByte_iff {byte : UInt8} : isWordByte byte = true ↔ IsWordCode byte.toNat := by
  simp only [isWordByte, IsWordCode, Bool.or_eq_true, Bool.and_eq_true, decide_eq_true_eq,
    UInt8.le_iff_toNat_le, ← UInt8.toNat_inj, UInt8.reduceToNat]
  omega

theorem takeWhile_encoded (text : Text) :
    (encoded text).takeWhile isWordByte = encoded (text.takeWhile isWordChar) := by
  induction text with
  | nil =>
      rfl
  | cons c rest ih =>
      rw [encoded_cons]
      by_cases hlt : c.toNat < 128
      · rcases utf8EncodeChar_of_lt hlt with ⟨byte, hencode, hbyte⟩
        have hsame : isWordByte byte = isWordChar c := by
          rw [Bool.eq_iff_iff, isWordByte_iff, isWordChar_iff, hbyte]
        rw [hencode, List.singleton_append, List.takeWhile_cons, List.takeWhile_cons, hsame]
        split
        · rw [encoded_cons, hencode, ih]
          rfl
        · rfl
      -- beyond ASCII there is neither a word byte nor a word character
      · rcases exists_first_byte (Nat.le_of_not_lt hlt) with ⟨first, others, hencode, hfirst⟩
        have hbyte : ¬ isWordByte first = true := by
          rw [isWordByte_iff, IsWordCode]
          omega
        have hword : ¬ isWordChar c = true := by
          rw [isWordChar_iff, IsWordCode]
          omega
        rw [hencode, List.cons_append, List.takeWhile_cons_of_neg hbyte,
          List.takeWhile_cons_of_neg hword]
        rfl

def located (token : Token) : Text × Nat :=
  (token.word, token.offset)

/-- The located word that leads a line, if there is one, read on the bytes of the line.
There is no result if the line cannot be cut where the bytes of the word end. -/
def leadingOnBytes? (line : Text) : Option (Option (Text × Nat)) :=
  let body := trimStart line
  let size := ((encoded body).takeWhile isWordByte).length
  if isComment body || size = 0 then
    some none
  else do
    let word ← body.slice? 0 size
    return some (word, bytes line - bytes body)

theorem leadingOnBytes?_eq (line : Text) :
    leadingOnBytes? line = some ((leading? line).map located) := by
  have hsize : ((encoded (trimStart line)).takeWhile isWordByte).length =
      bytes ((trimStart line).takeWhile isWordChar) := by
    rw [takeWhile_encoded, length_encoded]
  have hempty : decide (bytes ((trimStart line).takeWhile isWordChar) = 0) =
      ((trimStart line).takeWhile isWordChar).isEmpty := by
    rw [Bool.eq_iff_iff, decide_eq_true_eq, bytes_eq_zero_iff, List.isEmpty_iff]
  simp only [leadingOnBytes?, leading?, hsize, hempty, slice?_takeWhile,
    bytes_sub_trimStart]
  split
  · rfl
  · rfl

/-!
# Cuts of a line
-/

/-- Whether a line is cut into blanks, a word and a rest that does not continue it. -/
structure LedBy (line : Text) (token : Token) (rest : Text) : Prop where
  line_eq : line = token.indentation ++ token.word ++ rest
  leads : token.Leads rest

theorem Leads.isBlank_of_getLast? {token : Token} {rest : Text} (h : token.Leads rest)
    {c : Char} (hc : (token.indentation ++ token.word).getLast? = some c) :
    isBlank c = false := by
  rw [List.getLast?_append_of_ne_nil _ h.nonempty] at hc
  exact isBlank_of_isWordChar (h.wordChars c (List.mem_of_getLast? hc))

namespace LedBy

variable {line rest blanks : Text} {token : Token}

theorem leading?_eq (h : LedBy line token rest) : leading? line = some token :=
  leading?_eq_some_iff.mpr ⟨rest, h.line_eq, h.leads⟩

theorem unique {other : Token} {others : Text} (h : LedBy line token rest)
    (hother : LedBy line other others) : token = other ∧ rest = others := by
  have htoken : token = other := by
    have hread := h.leading?_eq
    rw [hother.leading?_eq] at hread
    exact (Option.some.inj hread).symm
  subst htoken
  have hline := h.line_eq
  rw [hother.line_eq] at hline
  exact ⟨rfl, (List.append_cancel_left hline).symm⟩

theorem append (h : LedBy line token rest) (hblanks : ∀ c ∈ blanks, isBlank c = true) :
    LedBy (line ++ blanks) token (rest ++ blanks) := by
  constructor
  · rw [h.line_eq, List.append_assoc]
  · apply h.leads.of_head?
    intro c hc
    cases rest with
    | nil =>
        have hblank := hblanks c (List.mem_of_head? hc)
        rw [← Bool.not_eq_true]
        intro hword
        rw [isBlank_of_isWordChar hword] at hblank
        cases hblank
    | cons d rest =>
        exact h.leads.maximal c hc

theorem exists_rest_before (h : LedBy (line ++ blanks) token rest)
    (hblanks : ∀ c ∈ blanks, isBlank c = true) :
    ∃ front, line = token.indentation ++ token.word ++ front ∧ rest = front ++ blanks := by
  rcases List.append_eq_append_iff.mp h.line_eq with
    ⟨excess, hexcess, hsplit⟩ | ⟨front, hline, hsplit⟩
  · cases hlast : excess.getLast? with
    | none =>
        rw [List.getLast?_eq_none_iff] at hlast
        rw [hlast] at hexcess hsplit
        exact ⟨[], by rw [hexcess, List.append_nil, List.append_nil], hsplit.symm⟩
    | some c =>
        -- a word that reached into the blanks would end with one of them
        have hblank : isBlank c = true := by
          apply hblanks
          rw [hsplit]
          exact List.mem_append_left _ (List.mem_of_getLast? hlast)
        have hvisible : isBlank c = false := by
          apply h.leads.isBlank_of_getLast?
          rw [hexcess, List.getLast?_append, hlast]
          rfl
        rw [hblank] at hvisible
        cases hvisible
  · exact ⟨front, hline, hsplit⟩

theorem of_append (h : LedBy (line ++ blanks) token rest)
    (hblanks : ∀ c ∈ blanks, isBlank c = true) : ∃ front, LedBy line token front := by
  rcases h.exists_rest_before hblanks with ⟨front, hline, rfl⟩
  refine ⟨front, hline, h.leads.of_head? ?_⟩
  intro c hc
  apply h.leads.maximal
  rw [List.head?_append, Option.mem_def.mp hc]
  rfl

end LedBy

theorem leading?_eq_some_iff_ledBy {line : Text} {token : Token} :
    leading? line = some token ↔ ∃ rest, LedBy line token rest := by
  rw [leading?_eq_some_iff]
  constructor
  · rintro ⟨rest, hline, hleads⟩
    exact ⟨rest, hline, hleads⟩
  · rintro ⟨rest, hline, hleads⟩
    exact ⟨rest, hline, hleads⟩

theorem leading?_append_of_blank (line : Text) {blanks : Text}
    (hblanks : ∀ c ∈ blanks, isBlank c = true) :
    leading? (line ++ blanks) = leading? line := by
  apply Option.ext
  intro token
  rw [leading?_eq_some_iff_ledBy, leading?_eq_some_iff_ledBy]
  constructor
  · rintro ⟨rest, h⟩
    exact h.of_append hblanks
  · rintro ⟨rest, h⟩
    exact ⟨rest ++ blanks, h.append hblanks⟩

theorem map_located_eq_some_iff {line word : Text} {start : Nat} :
    (leading? line).map located = some (word, start) ↔
      ∃ blanks rest, LedBy line ⟨blanks, word⟩ rest ∧ bytes blanks = start := by
  rw [Option.map_eq_some_iff]
  constructor
  · rintro ⟨⟨blanks, other⟩, hread, hlocated⟩
    rcases leading?_eq_some_iff_ledBy.mp hread with ⟨rest, h⟩
    rcases Prod.mk.inj hlocated with ⟨rfl, hstart⟩
    exact ⟨blanks, rest, h, hstart⟩
  · rintro ⟨blanks, rest, h, rfl⟩
    exact ⟨⟨blanks, word⟩, h.leading?_eq, rfl⟩

/-- Reading a line finds a word at a byte offset exactly if the line is cut into blanks
of that many bytes, the word and a rest that does not continue it.  There is at most one
such cut, blanks at the end of the line make no difference, and reading on the bytes of
the line always succeeds and finds the same. -/
theorem leading?_exact (line : Text) :
    (∀ word start, (leading? line).map located = some (word, start) ↔
        ∃ blanks rest, LedBy line ⟨blanks, word⟩ rest ∧ bytes blanks = start) ∧
      (∀ first second rest others, LedBy line first rest → LedBy line second others →
        first = second ∧ rest = others) ∧
      (∀ blanks, (∀ c ∈ blanks, isBlank c = true) →
        leading? (line ++ blanks) = leading? line) ∧
      leadingOnBytes? line = some ((leading? line).map located) := by
  refine ⟨?_, ?_, ?_, leadingOnBytes?_eq line⟩
  · intro word start
    exact map_located_eq_some_iff
  · intro first second rest others hfirst hsecond
    exact hfirst.unique hsecond
  · intro blanks hblanks
    exact leading?_append_of_blank line hblanks

def wideLine : Text :=
  "\u3000\tfill-1é x".toList

theorem leading?_exact_wide :
    LedBy wideLine ⟨['\u3000', '\t'], "fill-1".toList⟩ "é x".toList ∧
      (leading? wideLine).map located = some ("fill-1".toList, 4) ∧
      leading? (wideLine ++ ['\u00a0', '\r']) = leading? wideLine ∧
      leadingOnBytes? wideLine = some (some ("fill-1".toList, 4)) := by
  rcases leading?_exact wideLine with ⟨hread, _, hblanks, hbytes⟩
  have hled : LedBy wideLine ⟨['\u3000', '\t'], "fill-1".toList⟩ "é x".toList := by
    refine ⟨rfl, List.all_eq_true.mp rfl, by decide, List.all_eq_true.mp rfl, by decide, ?_⟩
    rintro c ⟨⟩
    rfl
  have hlocated : (leading? wideLine).map located = some ("fill-1".toList, 4) :=
    (hread _ _).mpr ⟨_, _, hled, rfl⟩
  refine ⟨hled, hlocated, hblanks _ (List.all_eq_true.mp rfl), ?_⟩
  rw [hbytes, hlocated]

end Token
end ScriptAssist
