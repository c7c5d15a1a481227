import ScriptAssist.Proofs.Slices

/-!
# Columns and bytes of a line

A column of a line denotes a number of bytes, the size of what stands before the
column; a beginning of the line has a number of columns, its width.  The two ways
of counting are adjoint: a column reaches no further than a beginning exactly if
the beginning is as wide as the column, and the whole line is passed by no column.
What else is to be known about columns follows: they divide no character, they
keep their order, and the width of a beginning denotes its end.

Widths are unbounded here.  A search that counts them in 32 bits finds the same
places on every line that is narrow enough for its counter.
-/

namespace ScriptAssist
namespace Text

/-!
# Beginnings of a line
-/

theorem beforeColumn_isPrefix (line : Text) (column : Nat) :
    beforeColumn line column <+: line :=
  List.take_prefix _ _

theorem length_beforeColumn (line : Text) (column : Nat) :
    (beforeColumn line column).length = columnIndex line column := by
  rw [beforeColumn, List.length_take]
  exact Nat.min_eq_left (columnIndex_le_length line column)

theorem beforeColumn_columns (before after : Text) :
    beforeColumn (before ++ after) (columns before) = before := by
  rw [beforeColumn, columnIndex_columns, List.take_left]

theorem bytes_le_bytes_iff {text first last : Text} (hfirst : first <+: text)
    (hlast : last <+: text) : bytes first ≤ bytes last ↔ first.length ≤ last.length := by
  constructor
  · intro h
    exact (isPrefix_of_bytes_le hfirst hlast h).length_le
  · intro h
    exact bytes_le_of_isPrefix (List.prefix_of_prefix_length_le hfirst hlast h)

/-!
# Columns against widths
-/

theorem columnIndex_append_le_iff (before after : Text) (column : Nat) :
    columnIndex (before ++ after) column ≤ before.length ↔
      column ≤ columns before ∨ after = [] := by
  induction before generalizing column with
  | nil =>
      rw [List.nil_append, List.length_nil, columns_nil]
      cases after with
      | nil =>
          simp [columnIndex]
      | cons c rest =>
          cases column with
          | zero =>
              simp [columnIndex]
          | succ column =>
              simp [columnIndex]
  | cons c rest ih =>
      cases column with
      | zero =>
          simp [columnIndex]
      | succ column =>
          -- the character takes up its units of the column, and one of the length
          rw [List.cons_append, columnIndex, List.length_cons, Nat.add_comm 1,
            Nat.add_le_add_iff_right, ih, columns_cons, Nat.sub_le_iff_le_add']

theorem bytes_beforeColumn_le_iff {line before : Text} (h : before <+: line)
    (column : Nat) :
    bytes (beforeColumn line column) ≤ bytes before ↔
      column ≤ columns before ∨ before = line := by
  rw [bytes_le_bytes_iff (beforeColumn_isPrefix line column) h, length_beforeColumn]
  rcases h with ⟨after, rfl⟩
  rw [columnIndex_append_le_iff, List.self_eq_append_right]

theorem bytes_beforeColumn_mono (line : Text) {first second : Nat}
    (h : first ≤ second) :
    bytes (beforeColumn line first) ≤ bytes (beforeColumn line second) := by
  have hprefix := beforeColumn_isPrefix line second
  -- what the greater column does not pass is not passed by the lesser one either
  have hreached : second ≤ columns (beforeColumn line second) ∨
      beforeColumn line second = line :=
    (bytes_beforeColumn_le_iff hprefix second).mp (Nat.le_refl _)
  rw [bytes_beforeColumn_le_iff hprefix]
  rcases hreached with hwide | hwhole
  · exact Or.inl (Nat.le_trans h hwide)
  · exact Or.inr hwhole

theorem isBoundary_beforeColumn (line : Text) (column : Nat) :
    line.IsBoundary (bytes (beforeColumn line column)) :=
  isBoundary_iff.mpr ⟨_, _, (List.take_append_drop _ _).symm, rfl⟩

/-!
# A counter of 32 bits
-/

/-- The bytes before a column, searched for in one pass over a line: `units` columns,
counted in 32 bits, and `offset` bytes are passed already. -/
def seekColumnFrom (column units : UInt32) (offset : Nat) : Text → Nat
  | [] => offset
  | c :: rest =>
      if column ≤ units then
        offset
      else
        seekColumnFrom column (units + UInt32.ofNat (unitsOf c)) (offset + c.utf8Size) rest

def seekColumn (line : Text) (column : UInt32) : Nat :=
  seekColumnFrom column 0 0 line

theorem beforeColumn_zero (line : Text) : beforeColumn line 0 = [] := by
  rw [beforeColumn, columnIndex_zero, List.take_zero]

theorem beforeColumn_cons {column : Nat} (h : 0 < column) (c : Char) (rest : Text) :
    beforeColumn (c :: rest) column = c :: beforeColumn rest (column - unitsOf c) := by
  cases column with
  | zero =>
      cases h
  | succ column =>
      rw [beforeColumn, columnIndex, Nat.add_comm 1, List.take_succ_cons]
      rfl

theorem toNat_add_unitsOf {units : UInt32} {c : Char}
    (h : units.toNat + unitsOf c < UInt32.size) :
    (units + UInt32.ofNat (unitsOf c)).toNat = units.toNat + unitsOf c := by
  have hunits : (UInt32.ofNat (unitsOf c)).toNat = unitsOf c :=
    UInt32.toNat_ofNat_of_lt (Nat.lt_of_le_of_lt (Nat.le_add_left _ _) h)
  rw [UInt32.toNat_add, hunits]
  exact Nat.mod_eq_of_lt h

theorem seekColumnFrom_eq (column : UInt32) {units : UInt32} {rest : Text}
    (h : units.toNat + columns rest < UInt32.size) (offset : Nat) :
    seekColumnFrom column units offset rest =
      offset + bytes (beforeColumn rest (column.toNat - units.toNat)) := by
  -- over the line: at every character the counter has room for what is left of it
  induction rest generalizing units offset with
  | nil =>
      rfl
  | cons c rest ih =>
      rw [columns_cons, ← Nat.add_assoc] at h
      by_cases hreached : column ≤ units
      · have hzero : column.toNat - units.toNat = 0 :=
          Nat.sub_eq_zero_of_le (UInt32.le_iff_toNat_le.mp hreached)
        rw [seekColumnFrom, if_pos hreached, hzero, beforeColumn_zero]
        rfl
      · have hpos : 0 < column.toNat - units.toNat :=
          Nat.sub_pos_of_lt (Nat.lt_of_not_le (mt UInt32.le_iff_toNat_le.mpr hreached))
        have hunits := toNat_add_unitsOf (Nat.lt_of_le_of_lt (Nat.le_add_right _ _) h)
        rw [← hunits] at h
        rw [seekColumnFrom, if_neg hreached, ih h, hunits, beforeColumn_cons hpos,
          bytes_cons, Nat.sub_add_eq, Nat.add_assoc]

theorem seekColumn_eq {line : Text} (h : columns line < UInt32.size) (column : UInt32) :
    seekColumn line column = bytes (beforeColumn line column.toNat) := by
  have hroom : (0 : UInt32).toNat + columns line < UInt32.size := by
    rwa [UInt32.toNat_zero, Nat.zero_add]
  rw [seekColumn, seekColumnFrom_eq column hroom, UInt32.toNat_zero, Nat.sub_zero,
    Nat.zero_add]

/-- The bytes before a column are adjoint to the columns of a beginning of the line.  So
they are always a boundary of the line, they keep the order of columns, and for the
width of a beginning they are its size.  Counting columns in 32 bits leads to the same
bytes unless the line is too wide for the counter. -/
theorem beforeColumn_adjoint (line : Text) :
    (∀ before, before <+: line → ∀ column,
        (bytes (beforeColumn line column) ≤ bytes before ↔
          column ≤ columns before ∨ before = line)) ∧
      (∀ column, line.IsBoundary (bytes (beforeColumn line column))) ∧
      (∀ first second, first ≤ second →
        bytes (beforeColumn line first) ≤ bytes (beforeColumn line second)) ∧
      (∀ before, before <+: line →
        bytes (beforeColumn line (columns before)) = bytes before) ∧
      (columns line < UInt32.size → ∀ column : UInt32,
        seekColumn line column = bytes (beforeColumn line column.toNat)) := by
  refine ⟨?_, isBoundary_beforeColumn line, ?_, ?_, ?_⟩
  · intro before hbefore column
    exact bytes_beforeColumn_le_iff hbefore column
  · intro first second hle
    exact bytes_beforeColumn_mono line hle
  · rintro before ⟨after, rfl⟩
    rw [beforeColumn_columns]
  · intro hnarrow column
    exact seekColumn_eq hnarrow column

-- Characters of two, four and one bytes, the second of them two columns wide.
def mixedLine : Text :=
  ['é', '😀', 'x']

-- The column between the two halves of a character denotes the place behind it, and a
-- column beyond the line the end of the line.
theorem beforeColumn_adjoint_halves :
    bytes ['é'] < bytes (beforeColumn mixedLine 2) ∧
      bytes (beforeColumn mixedLine 2) ≤ bytes ['é', '😀'] ∧
      bytes (beforeColumn mixedLine 99) ≤ bytes mixedLine ∧
      seekColumn mixedLine 2 = 6 ∧ seekColumn mixedLine 99 = 7 := by
  rcases beforeColumn_adjoint mixedLine with ⟨hadjoint, _, _, _, hcounter⟩
  have hnarrow : columns mixedLine < UInt32.size := by
    decide
  have hfirst : ['é'] <+: mixedLine := ⟨['😀', 'x'], rfl⟩
  have hsecond : ['é', '😀'] <+: mixedLine := ⟨['x'], rfl⟩
  refine ⟨?_, ?_, ?_, ?_, ?_⟩
  · rw [← Nat.not_le, hadjoint _ hfirst]
    decide
  · exact (hadjoint _ hsecond 2).mpr (Or.inl (by decide))
  · exact (hadjoint _ (List.prefix_refl _) 99).mpr (Or.inr rfl)
  · exact hcounter hnarrow 2
  · exact hcounter hnarrow 99

end Text
end ScriptAssist
