import ScriptAssist.Proofs.Slices
import ScriptAssist.Proofs.Suggestions

/-!
# What the range of a finding spans

The range of a finding is measured on the line of its word, in columns, and an
editor decodes it in the whole text.  Both ends are followed here through the
lines above, the indentation and the word; so the range spans the word that the
message of the finding quotes, and no character more or less.
-/

namespace ScriptAssist

/-!
# Words in front of a text
-/

namespace Token

open Text

theorem Leads.of_firstLine {token : Token} {after : Text}
    (h : token.Leads (firstLine after)) : token.Leads after := by
  apply h.of_head?
  intro c hc
  rcases List.head?_eq_some_iff.mp hc with ⟨rest, rfl⟩
  by_cases hending : c = '\n' ∨ c = '\r'
  · rcases hending with rfl | rfl <;> rfl
  · rw [not_or] at hending
    have hfeed : '\n' ∉ [c] := by
      rw [List.mem_singleton]
      exact Ne.symm hending.1
    have hreturn : [c].getLast? ≠ some '\r' := by
      rw [List.getLast?_singleton, ne_eq, Option.some.injEq]
      exact hending.2
    apply h.maximal
    rw [← List.singleton_append, firstLine_append hfeed hreturn]
    rfl

end Token

namespace Script

open Text Token

/-!
# Both ends of a range
-/

section Ends

variable {above after : Text} {token : Token}

theorem offset_startColumn (habove : WholeLines above)
    (hleads : token.Leads (firstLine after)) (hfeed : '\n' ∉ token.indentation) :
    Position.offset (above ++ (token.indentation ++ token.word ++ after))
        ⟨above.count '\n', token.startColumn⟩ =
      bytes (above ++ token.indentation) := by
  rw [Position.offset_on_line habove, hleads.columnIndex_startColumn hfeed,
    List.append_assoc, List.take_left]

theorem offset_stopColumn (habove : WholeLines above)
    (hleads : token.Leads (firstLine after)) (hfeed : '\n' ∉ token.indentation) :
    Position.offset (above ++ (token.indentation ++ token.word ++ after))
        ⟨above.count '\n', token.stopColumn⟩ =
      bytes (above ++ token.indentation ++ token.word) := by
  rw [Position.offset_on_line habove, hleads.columnIndex_stopColumn hfeed,
    List.take_left, List.append_assoc]

end Ends

/-- The range of a finding spans the word that its message quotes.  The word is no
command and leads its line: between the start of the line and the word stand blanks
only, and the word ends where a character follows that belongs to no word. -/
theorem finding_spans_word (text : Text) {finding : Diagnostic}
    (h : finding ∈ diagnostics text) :
    let first := Position.offset text finding.range.start
    let last := Position.offset text finding.range.stop
    first < last ∧
      ∃ (above : Text) (token : Token),
        text.upTo first = above ++ token.indentation ∧ WholeLines above ∧
        above.count '\n' = finding.range.start.line ∧ '\n' ∉ token.indentation ∧
        text.slice? first last = some token.word ∧
        finding.message = "Unknown BAMC command: '" ++ String.ofList token.word ++ "'" ∧
        ¬ IsKeyword (String.ofList token.word) ∧
        token.Leads (text.beyond last) := by
  rcases exists_token_of_finding h with
    ⟨above, after, token, rfl, habove, hfeed, hleads, hunknown, _, rfl⟩
  intro first last
  have hfirst : first = bytes (above ++ token.indentation) :=
    offset_startColumn habove hleads hfeed
  have hlast : last = bytes (above ++ token.indentation ++ token.word) :=
    offset_stopColumn habove hleads hfeed
  have htext : above ++ (token.indentation ++ token.word ++ after) =
      above ++ token.indentation ++ token.word ++ after := by
    simp only [List.append_assoc]
  rw [hfirst, hlast, htext]
  refine ⟨?_, above, token, ?_, habove, rfl, hfeed, ?_, rfl, hunknown, ?_⟩
  · rw [bytes_append (above ++ token.indentation)]
    exact Nat.lt_add_of_pos_right (bytes_pos hleads.nonempty)
  · rw [List.append_assoc _ token.word, upTo_bytes]
  · exact slice?_eq_some_iff.mpr ⟨_, after, rfl, rfl, rfl⟩
  · rw [beyond_bytes]
    exact hleads.of_firstLine

-- A line with an ending of two characters, and a word between a blank and a letter
-- that take up several bytes.
def wideScript : Text :=
  "visit\r\n\u3000bad-1é\r\n".toList

def wideFinding : Diagnostic :=
  .unknownCommand 1 ⟨['\u3000'], "bad-1".toList⟩

theorem finding_spans_word_wide :
    wideFinding ∈ diagnostics wideScript ∧
      Position.offset wideScript wideFinding.range.start = 10 ∧
      Position.offset wideScript wideFinding.range.stop = 15 ∧
      ∃ token : Token, wideScript.slice? 10 15 = some token.word ∧
        wideFinding.message = "Unknown BAMC command: '" ++ String.ofList token.word ++ "'" ∧
        token.Leads "é\r\n".toList := by
  have hfinding : wideFinding ∈ diagnostics wideScript :=
    List.mem_singleton_self wideFinding
  have hfirst : Position.offset wideScript wideFinding.range.start = 10 := rfl
  have hlast : Position.offset wideScript wideFinding.range.stop = 15 := rfl
  have hbeyond : wideScript.beyond 15 = "é\r\n".toList := rfl
  rcases finding_spans_word wideScript hfinding with
    ⟨_, _, token, _, _, _, _, hslice, hmessage, _, hleads⟩
  rw [hfirst, hlast] at hslice
  rw [hlast, hbeyond] at hleads
  exact ⟨hfinding, hfirst, hlast, token, hslice, hmessage, hleads⟩

end Script
end ScriptAssist
