import ScriptAssist.Proofs.Splicing

/-!
# Where decoding a position does not lead back

The position of a place counts every character before it, but a carriage return
that ends a line belongs to no line.  A place right behind such a return has
therefore no position of its own: its position denotes the place before the
return.  Every other place is the one that its position denotes.
-/

namespace ScriptAssist
namespace Text

/-!
# Places behind a carriage return
-/

theorem columnIndex_of_columns_le {line : Text} {column : Nat}
    (h : columns line ≤ column) : columnIndex line column = line.length := by
  have hend : columnIndex line (columns line) = line.length := by
    simpa using columnIndex_columns line []
  have hmono := columnIndex_mono line h
  have hle := columnIndex_le_length line column
  omega

theorem lastLine_append_return (text : Text) :
    lastLine (text ++ ['\r']) = lastLine text ++ ['\r'] :=
  List.rtakeWhile_concat_pos _ _ _ rfl

theorem endedLines_append_return (text : Text) :
    endedLines (text ++ ['\r']) = endedLines text :=
  List.rdropWhile_concat_pos _ _ _ rfl

theorem firstLine_return {line after : Text} (hline : '\n' ∉ line)
    (hafter : after = [] ∨ after.head? = some '\n') :
    firstLine (line ++ ['\r'] ++ after) = line := by
  have hmem : '\n' ∉ line ++ ['\r'] := by
    simpa using hline
  have hrest : after.takeWhile (· != '\n') = [] := by
    rcases hafter with rfl | hhead
    · rfl
    · rcases List.head?_eq_some_iff.mp hhead with ⟨rest, rfl⟩
      rfl
  rw [firstLine_append_of_not_mem hmem, hrest, List.append_nil,
    dropReturn_append line (List.cons_ne_nil '\r' [])]
  exact List.append_nil line

end Text

namespace Position

open Text

theorem index_ofIndex_return (before : Text) {after : Text}
    (hafter : after = [] ∨ after.head? = some '\n') :
    index (before ++ ['\r'] ++ after)
        (ofIndex (before ++ ['\r'] ++ after) (before ++ ['\r']).length) =
      before.length := by
  rw [index_ofIndex_eq, lastLine_append_return, endedLines_append_return,
    firstLine_return (newline_not_mem_lastLine before) hafter]
  have hbeyond : columns (lastLine before) ≤ columns (lastLine before ++ ['\r']) := by
    rw [columns_append]
    exact Nat.le_add_right _ _
  rw [columnIndex_of_columns_le hbeyond, ← List.length_append, endedLines_append_lastLine]

/-!
# Byte offsets
-/

theorem offset_ofIndex_length (before after : Text) :
    offset (before ++ after) (ofIndex (before ++ after) before.length) =
      if SplitsEnding before after then bytes before - 1 else bytes before := by
  rw [offset]
  split
  case isTrue h =>
    rcases h with ⟨hreturn, hafter⟩
    rcases List.getLast?_eq_some_iff.mp hreturn with ⟨front, rfl⟩
    rw [index_ofIndex_return front hafter, List.append_assoc, List.take_left, bytes_append]
    rfl
  case isFalse h =>
    rw [index_ofIndex_length h, List.take_left]

/-- Decoding the position of a byte offset gives the offset back, unless it lies
behind a carriage return that a line feed or the end of the text follows: then it
gives the offset before the return. -/
theorem offset_ofOffset (text : Text) (offset : Nat) (h : text.IsBoundary offset) :
    Position.offset text (ofOffset text offset) =
      if SplitsEnding (text.upTo offset) (text.beyond offset) then offset - 1
      else offset := by
  rcases isBoundary_iff.mp h with ⟨before, after, rfl, rfl⟩
  rw [ofOffset, upTo, beyond, byteIndex_bytes, List.take_left, List.drop_left]
  exact offset_ofIndex_length before after

-- Two returns stand before the line feed and one at the end: the place between the
-- first two is found again, those behind the last return of a line are not.
theorem offset_ofOffset_returns :
    (∀ place ∈ [6, 7, 10], IsBoundary "x😀\r\r\ny\r".toList place) ∧
      Position.offset "x😀\r\r\ny\r".toList (ofOffset "x😀\r\r\ny\r".toList 6) = 6 ∧
      Position.offset "x😀\r\r\ny\r".toList (ofOffset "x😀\r\r\ny\r".toList 7) = 6 ∧
      Position.offset "x😀\r\r\ny\r".toList (ofOffset "x😀\r\r\ny\r".toList 10) = 9 :=
  ⟨by decide +kernel,
    (offset_ofOffset _ 6 (by decide +kernel)).trans (by decide +kernel),
    (offset_ofOffset _ 7 (by decide +kernel)).trans (by decide +kernel),
    (offset_ofOffset _ 10 (by decide +kernel)).trans (by decide +kernel)⟩

end Position
end ScriptAssist
