import ScriptAssist.Proofs.Slices
import ScriptAssist.Proofs.Steps
import ScriptAssist.Session.Encoding

/-!
# What completion sees of a script

Candidates are looked up by what has been typed on the line of the caret.  The
lines above have a part in them by their number only, and the text after the
caret has none.  A client that asks for candidates gets some wherever something
can be completed.
-/

namespace ScriptAssist

/-!
# Contexts with candidates
-/

namespace Context

theorem candidates_classify_eq_nil_iff (line : Text) (caret : Position) :
    (classify line).candidates caret = [] ↔ classify line = .noSuggestion := by
  -- every other context reads a catalog, and no catalog is empty
  unfold classify
  split
  · exact iff_of_false (List.cons_ne_nil _ _) Context.noConfusion
  · split
    · exact iff_of_false (List.cons_ne_nil _ _) Context.noConfusion
    · split
      · exact iff_of_true rfl rfl
      · exact iff_of_false (List.cons_ne_nil _ _) Context.noConfusion

end Context

/-!
# Candidates by what has been typed
-/

namespace Script

open Text

section Typed

variable {above typed : Text}

theorem textBefore?_typed (habove : WholeLines above) (hfeed : '\n' ∉ typed)
    (hreturn : typed.getLast? ≠ some '\r') (after : Text) :
    Position.textBefore? (above ++ typed ++ after)
        ⟨above.count '\n', columns typed⟩ = some typed := by
  rw [List.append_assoc, Position.textBefore?_on_line habove,
    firstLine_append hfeed hreturn, columnIndex_columns, List.take_left]

theorem completions_typed (habove : WholeLines above) (hfeed : '\n' ∉ typed)
    (hreturn : typed.getLast? ≠ some '\r') (after : Text) :
    completions (above ++ typed ++ after) ⟨above.count '\n', columns typed⟩ =
      (Context.classify typed).candidates ⟨above.count '\n', columns typed⟩ := by
  rw [completions, textBefore?_typed habove hfeed hreturn]

end Typed

end Script

/-!
# The answer to a client
-/

namespace Server

open Text

theorem answer_completion {host : Host} {server : Server} {message : Message} {uri : String}
    {caret : Position} {document : Document} (hphase : server.phase = .running)
    (hread : message.ReadsAs host (.completion uri caret))
    (hopen : server.store.get? uri = some document) :
    ∃ answer, (server.step host message).2.reply = .answer answer ∧
      (answer.toJson = .null ↔ Script.completions document.text caret = []) := by
  have hsession : (Call.completion uri caret).InSession :=
    ⟨Method.noConfusion, Method.noConfusion⟩
  rw [step_of_readsAs hphase hsession hread]
  simp only [perform, hopen]
  refine ⟨_, rfl, ?_⟩
  cases Script.completions document.text caret with
  | nil =>
      exact iff_of_true rfl rfl
  | cons item rest =>
      exact iff_of_false Json.noConfusion (List.cons_ne_nil item rest)

/-- The candidates at a caret depend on its place and on what has been typed on its
line, whatever the lines above hold and whatever follows the caret.  A client that
asks for them gets `null` exactly where nothing can be completed. -/
theorem completion_sees_typed_only {above typed : Text} (habove : WholeLines above)
    (hfeed : '\n' ∉ typed) (hreturn : typed.getLast? ≠ some '\r') (after : Text) :
    let caret : Position := ⟨above.count '\n', columns typed⟩
    Script.completions (above ++ typed ++ after) caret =
        (Context.classify typed).candidates caret ∧
      (∀ otherAbove otherAfter : Text, WholeLines otherAbove →
        otherAbove.count '\n' = above.count '\n' →
          Script.completions (otherAbove ++ typed ++ otherAfter) caret =
            Script.completions (above ++ typed ++ after) caret) ∧
      ∀ (host : Host) (server : Server) (message : Message) (uri : String) (version : Int),
        server.phase = .running → message.ReadsAs host (.completion uri caret) →
        server.store.get? uri = some ⟨version, above ++ typed ++ after⟩ →
          ∃ answer, (server.step host message).2.reply = .answer answer ∧
            (answer.toJson = .null ↔ Context.classify typed = .noSuggestion) := by
  intro caret
  have hcompletions : Script.completions (above ++ typed ++ after) caret =
      (Context.classify typed).candidates caret :=
    Script.completions_typed habove hfeed hreturn after
  refine ⟨hcompletions, ?_, ?_⟩
  · intro otherAbove otherAfter hother hcount
    rw [hcompletions]
    simp only [caret, ← hcount]
    exact Script.completions_typed hother hfeed hreturn otherAfter
  · intro host server message uri version hphase hread hopen
    rcases answer_completion hphase hread hopen with ⟨answer, hreply, hnull⟩
    refine ⟨answer, hreply, ?_⟩
    rw [hnull, hcompletions, Context.candidates_classify_eq_nil_iff]

def following (uri : String) (document : Document) : Server where
  phase := .running
  options := .standard .other
  store := Store.empty.insert uri document

-- The first argument of a command, up to its quote and behind a wide blank.
def typedArgument : Text :=
  "\u3000browser \"".toList

-- The argument below lines with both endings and in front of a lone return.
def argumentScript : Text :=
  "nope\r\né\n".toList ++ typedArgument ++ "\rx\n".toList

theorem completion_sees_typed_only_argument :
    Context.classify typedArgument ≠ .noSuggestion ∧
      Script.completions argumentScript ⟨2, 10⟩ =
        (Context.classify typedArgument).candidates ⟨2, 10⟩ ∧
      Script.completions ("\n\n".toList ++ typedArgument ++ "😀".toList) ⟨2, 10⟩ =
        Script.completions argumentScript ⟨2, 10⟩ ∧
      ∃ answer,
        ((following "file:///script" ⟨1, argumentScript⟩).step .ofScript
          (.completing "file:///script" ⟨2, 10⟩)).2.reply = .answer answer ∧
        answer.toJson ≠ .null := by
  have habove : WholeLines "nope\r\né\n".toList := Or.inr rfl
  have hother : WholeLines "\n\n".toList := Or.inr rfl
  have hfeed : '\n' ∉ typedArgument := by
    decide
  have hreturn : typedArgument.getLast? ≠ some '\r' := by
    decide
  have hcaret : (⟨"nope\r\né\n".toList.count '\n', columns typedArgument⟩ : Position) =
      ⟨2, 10⟩ := rfl
  have hcontext : Context.classify typedArgument ≠ .noSuggestion := by
    decide
  have hread : (Message.completing "file:///script" ⟨2, 10⟩).ReadsAs .ofScript
      (.completion "file:///script" ⟨2, 10⟩) :=
    ⟨rfl, rfl, rfl⟩
  have hsees := completion_sees_typed_only habove hfeed hreturn "\rx\n".toList
  simp only [hcaret] at hsees
  rcases hsees with ⟨hcandidates, hlines, hanswer⟩
  rcases hanswer .ofScript (following "file:///script" ⟨1, argumentScript⟩) _
    "file:///script" 1 rfl hread (Store.get?_insert_self _ _ _) with ⟨answer, hreply, hnull⟩
  exact ⟨hcontext, hcandidates, hlines _ "😀".toList hother rfl, answer, hreply,
    fun heq => hcontext (hnull.mp heq)⟩

end Server
end ScriptAssist
