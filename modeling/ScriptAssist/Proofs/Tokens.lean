import ScriptAssist.Proofs.Scanner
import Mathlib.Data.List.Basic

/-!
# The grammar of leading tokens

A token leads a line if the line consists of blanks, of the word of the token
and of a rest by which the word is not longer.  Reading a line finds exactly
the token that leads it; so a line of that shape can be written down and its
token is known.
-/

namespace ScriptAssist
namespace Token

open Text

/-!
# Word characters
-/

theorem toNat_of_isWordChar {c : Char} (h : isWordChar c = true) :
    c.toNat = 45 ∨ (48 ≤ c.toNat ∧ c.toNat ≤ 57) ∨ (65 ≤ c.toNat ∧ c.toNat ≤ 90) ∨
      (97 ≤ c.toNat ∧ c.toNat ≤ 122) := by
  have hbetween : ∀ low high : UInt32,
      (decide (c.val ≥ low) && decide (c.val ≤ high)) = true →
        low.toNat ≤ c.toNat ∧ c.toNat ≤ high.toNat := by
    intro low high hrange
    rw [Bool.and_eq_true, decide_eq_true_eq, decide_eq_true_eq] at hrange
    exact hrange
  rw [isWordChar, Bool.or_eq_true, decide_eq_true_eq] at h
  rcases h with halphanum | rfl
  · rcases (Bool.or_eq_true _ _).mp halphanum with halpha | hdigit
    · rcases (Bool.or_eq_true _ _).mp halpha with hupper | hlower
      · exact Or.inr (Or.inr (Or.inl (of_decide_eq_true hupper)))
      · exact Or.inr (Or.inr (Or.inr (hbetween 97 122 hlower)))
    · exact Or.inr (Or.inl (hbetween 48 57 hdigit))
  · exact Or.inl rfl

theorem isBlank_of_isWordChar {c : Char} (h : isWordChar c = true) :
    isBlank c = false := by
  have hrange := toNat_of_isWordChar h
  have hranges : ∀ range ∈ blankRanges, ¬ (range.1 ≤ c.toNat ∧ c.toNat ≤ range.2) := by
    simp only [blankRanges, List.forall_mem_cons, List.not_mem_nil, false_implies,
      implies_true, and_true]
    omega
  rw [isBlank, List.any_eq_false]
  simpa using hranges

theorem isComment_iff {text : Text} :
    isComment text = true ↔ ['/', '/'] <+: text ∨ ['-', '-'] <+: text := by
  unfold isComment
  split
  · simp
  · simp
  · next hslashes hdashes =>
      constructor
      · intro h
        cases h
      · rintro (⟨tail, rfl⟩ | ⟨tail, rfl⟩)
        · exact absurd rfl (hslashes tail)
        · exact absurd rfl (hdashes tail)

/-!
# Lines that a token leads
-/

/-- Whether a token leads the line that consists of it and of a rest. -/
structure Leads (token : Token) (rest : Text) : Prop where
  blank : ∀ c ∈ token.indentation, isBlank c = true
  nonempty : token.word ≠ []
  wordChars : ∀ c ∈ token.word, isWordChar c = true
  noComment : ¬ ['-', '-'] <+: token.word
  maximal : ∀ c ∈ rest.head?, isWordChar c = false

theorem takeWhile_eq_nil_of_head? {p : Char → Bool} {text : Text}
    (h : ∀ c ∈ text.head?, p c = false) : text.takeWhile p = [] := by
  cases text with
  | nil =>
      rfl
  | cons c rest =>
      simp [h c rfl]

namespace Leads

variable {token : Token} {rest : Text}

theorem of_head? {other : Text} (h : token.Leads rest)
    (hother : ∀ c ∈ other.head?, isWordChar c = false) : token.Leads other :=
  ⟨h.blank, h.nonempty, h.wordChars, h.noComment, hother⟩

theorem head?_blank (h : token.Leads rest) :
    ∀ c ∈ (token.word ++ rest).head?, isBlank c = false := by
  intro c hc
  rw [List.head?_append_of_ne_nil _ h.nonempty] at hc
  exact isBlank_of_isWordChar (h.wordChars c (List.mem_of_head? hc))

theorem indentation_eq (h : token.Leads rest) :
    Text.indentation (token.indentation ++ (token.word ++ rest)) = token.indentation := by
  rw [Text.indentation, List.takeWhile_append_of_pos h.blank,
    takeWhile_eq_nil_of_head? h.head?_blank, List.append_nil]

theorem trimStart_eq (h : token.Leads rest) :
    trimStart (token.indentation ++ (token.word ++ rest)) = token.word ++ rest := by
  have hsplit := indentation_append_trimStart
    (token.indentation ++ (token.word ++ rest))
  rw [h.indentation_eq] at hsplit
  exact List.append_cancel_left hsplit

theorem takeWhile_word (h : token.Leads rest) :
    (token.word ++ rest).takeWhile isWordChar = token.word := by
  rw [List.takeWhile_append_of_pos h.wordChars, takeWhile_eq_nil_of_head? h.maximal,
    List.append_nil]

theorem isComment_eq (h : token.Leads rest) :
    isComment (token.word ++ rest) = false := by
  rcases token with ⟨indentation, word⟩
  rw [← Bool.not_eq_true, isComment_iff]
  cases word with
  | nil =>
      exact absurd rfl h.nonempty
  | cons c word =>
      rintro (⟨tail, hslashes⟩ | ⟨tail, hdashes⟩)
      · have hslash : isWordChar '/' = true := by
          apply h.wordChars
          rw [(List.cons.inj hslashes).1]
          exact List.mem_cons_self
        cases hslash
      · cases word with
        | nil =>
            have hrest : '-' :: tail = rest := (List.cons.inj hdashes).2
            have hdash : isWordChar '-' = false := by
              apply h.maximal
              rw [← hrest]
              rfl
            cases hdash
        | cons d word =>
            simp only [List.cons_append, List.cons.injEq] at hdashes
            apply h.noComment
            rw [← hdashes.1, ← hdashes.2.1]
            exact ⟨word, rfl⟩

theorem leading? (h : token.Leads rest) :
    Token.leading? (token.indentation ++ token.word ++ rest) = some token := by
  have hempty : token.word.isEmpty = false := by
    rw [List.isEmpty_eq_false_iff]
    exact h.nonempty
  rw [List.append_assoc]
  simp only [Token.leading?, h.trimStart_eq, h.takeWhile_word, h.isComment_eq, hempty,
    h.indentation_eq, Bool.or_self, Bool.false_eq_true, if_false]

end Leads

theorem leads_of_leading? {line : Text} {token : Token} (h : leading? line = some token) :
    ∃ rest, line = token.indentation ++ token.word ++ rest ∧ token.Leads rest := by
  have hword : ∀ c ∈ token.word, isWordChar c = true := by
    intro c hc
    exact isWordChar_of_mem_word h hc
  simp only [leading?] at h
  split at h
  · cases h
  · next hnone =>
      cases h
      rw [Bool.or_eq_true, not_or, List.isEmpty_iff] at hnone
      have hbody := List.takeWhile_append_dropWhile (p := isWordChar) (l := trimStart line)
      refine ⟨(trimStart line).dropWhile isWordChar, ?_, ?_, hnone.2, hword, ?_, ?_⟩
      · rw [List.append_assoc, hbody, indentation_append_trimStart]
      · intro c hc
        exact List.mem_takeWhile_imp hc
      · intro hdashes
        apply hnone.1
        exact isComment_iff.mpr (Or.inr (hdashes.trans (List.takeWhile_prefix _)))
      · intro c hc
        have hhead := List.head?_dropWhile_not isWordChar (trimStart line)
        rw [Option.mem_def.mp hc] at hhead
        exact hhead

/-- Reading a line finds the token that leads it. -/
theorem leading?_eq_some_iff {line : Text} {token : Token} :
    leading? line = some token ↔
      ∃ rest, line = token.indentation ++ token.word ++ rest ∧ token.Leads rest := by
  constructor
  · exact leads_of_leading?
  · rintro ⟨rest, rfl, h⟩
    exact h.leading?

end Token
end ScriptAssist
