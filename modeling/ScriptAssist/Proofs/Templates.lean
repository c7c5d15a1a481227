import ScriptAssist.Catalog.Template
import ScriptAssist.Proofs.Places
import Mathlib.Data.List.Basic

/-!
# Templates written and read

A list of segments is written as a template by putting the segments in a row.
Not every list is read back as it was written: a number may run on into the
digits after it, and a dollar sign may turn into a marker with what follows it.
Where neither happens, the plain text of the template is that of the segments.
Every template can be written in this way, also one whose markers are unclosed
or otherwise malformed, so that its plain text is fixed.
-/

namespace ScriptAssist
namespace Template

open Text (takeWhile_dropWhile_append not_mem_takeWhile_bne)

/-!
# Segments and what follows them
-/

def IsNumber (text : Text) : Prop :=
  text ≠ [] ∧ ∀ c ∈ text, c.isDigit = true

theorem isNumber_iff {text : Text} :
    text ≠ [] ∧ text.all Char.isDigit = true ↔ IsNumber text := by
  rw [List.all_eq_true]
  rfl

instance (text : Text) : Decidable (IsNumber text) :=
  decidable_of_iff _ isNumber_iff

def StartsWithDigit (text : Text) : Prop :=
  ∃ c ∈ text.head?, c.isDigit = true

theorem startsWithDigit_iff {text : Text} :
    text.head?.any Char.isDigit = true ↔ StartsWithDigit text :=
  Option.any_eq_true _ _

instance (text : Text) : Decidable (StartsWithDigit text) :=
  decidable_of_iff _ startsWithDigit_iff

def StartsWithBraces (text : Text) : Prop :=
  ∃ digits content rest, IsNumber digits ∧ '\x7d' ∉ content ∧
    text = '\x7b' :: digits ++ ':' :: content ++ '\x7d' :: rest

namespace Segment

/-- Whether a segment is well-formed and stays apart from the text after it. -/
inductive Precedes : Segment → Text → Prop where
  | literal {text after : Text} :
      '$' ∉ text → Precedes (.literal text) after
  | tabStop {digits after : Text} :
      IsNumber digits → ¬ StartsWithDigit after → Precedes (.tabStop digits) after
  | placeholder {digits text after : Text} :
      IsNumber digits → '\x7d' ∉ text → Precedes (.placeholder digits text) after
  | dollar {after : Text} :
      ¬ StartsWithDigit after → ¬ StartsWithBraces after → Precedes .dollar after

end Segment

inductive WellFormed : List Segment → Prop where
  | nil : WellFormed []
  | cons {segment : Segment} {rest : List Segment} :
      segment.Precedes (render rest) → WellFormed rest → WellFormed (segment :: rest)

/-!
# Reading a marker
-/

theorem bne_of_mem {sign : Char} {text : Text} (h : sign ∉ text) :
    ∀ c ∈ text, (c != sign) = true := by
  intro c hc
  rw [bne_iff_ne]
  intro heq
  exact h (heq ▸ hc)

theorem isNumber_takeWhile {text digits : Text} (hne : digits ≠ [])
    (h : text.takeWhile Char.isDigit = digits) : IsNumber digits := by
  refine ⟨hne, ?_⟩
  intro c hc
  rw [← h] at hc
  exact List.mem_takeWhile_imp hc

theorem not_startsWithDigit_iff {text : Text} :
    ¬ StartsWithDigit text ↔ ∀ c ∈ text.head?, c.isDigit = false := by
  simp [StartsWithDigit]

theorem not_startsWithDigit_dropWhile (text : Text) :
    ¬ StartsWithDigit (text.dropWhile Char.isDigit) := by
  rw [not_startsWithDigit_iff]
  intro c hc
  have hhead := List.head?_dropWhile_not Char.isDigit text
  rw [Option.mem_def.mp hc] at hhead
  exact hhead

theorem readPlaceholder?_eq_some_iff {body after : Text} {segment : Segment} :
    readPlaceholder? body = some (segment, after) ↔
      ∃ digits text, IsNumber digits ∧ '\x7d' ∉ text ∧
        segment = .placeholder digits text ∧
        body = digits ++ ':' :: text ++ '\x7d' :: after := by
  constructor
  · intro h
    have hrender := render_of_readPlaceholder? h
    unfold readPlaceholder? at h
    split at h
    · next digit digits inner hdigits _ =>
        split at h
        · next c rest _ =>
            cases h
            refine ⟨digit :: digits, inner.takeWhile (· != '\x7d'),
              isNumber_takeWhile (List.cons_ne_nil _ _) hdigits,
              not_mem_takeWhile_bne _ _, rfl, ?_⟩
            simp only [Segment.render, List.cons_append, List.append_assoc,
              List.nil_append, List.cons.injEq, true_and] at hrender
            rw [← hrender, List.append_assoc, List.cons_append, List.cons_append]
        · cases h
    · cases h
  · intro h
    rcases h with ⟨digits, text, hnumber, htext, rfl, rfl⟩
    have houter := takeWhile_dropWhile_append hnumber.2
      (':' :: (text ++ '\x7d' :: after)) (by simp)
    have hinner := takeWhile_dropWhile_append (bne_of_mem htext) ('\x7d' :: after)
      (by simp)
    rw [List.append_assoc, List.cons_append, readPlaceholder?, houter.1, houter.2]
    cases digits with
    | nil =>
        exact absurd rfl hnumber.1
    | cons digit digits =>
        simp only [hinner.1, hinner.2]

theorem readMarker?_eq_of_head? {rest : Text} (h : rest.head? ≠ some '\x7b') :
    readMarker? rest =
      match rest.takeWhile Char.isDigit with
      | [] => none
      | digits => some (.tabStop digits, rest.dropWhile Char.isDigit) := by
  unfold readMarker?
  split
  · exact absurd rfl h
  · rfl

theorem readMarker?_tabStop {digits after : Text} (hnumber : IsNumber digits)
    (hafter : ¬ StartsWithDigit after) :
    readMarker? (digits ++ after) = some (.tabStop digits, after) := by
  have hsplit := takeWhile_dropWhile_append hnumber.2 after
    (not_startsWithDigit_iff.mp hafter)
  have hhead : (digits ++ after).head? ≠ some '\x7b' := by
    rw [List.head?_append_of_ne_nil _ hnumber.1]
    intro hbrace
    have hdigit := hnumber.2 _ (List.mem_of_head? hbrace)
    cases hdigit
  rw [readMarker?_eq_of_head? hhead, hsplit.1, hsplit.2]
  cases digits with
  | nil =>
      exact absurd rfl hnumber.1
  | cons digit digits =>
      rfl

theorem readMarker?_placeholder {digits text : Text} (hnumber : IsNumber digits)
    (htext : '\x7d' ∉ text) (after : Text) :
    readMarker? ('\x7b' :: (digits ++ ':' :: text ++ '\x7d' :: after)) =
      some (.placeholder digits text, after) :=
  readPlaceholder?_eq_some_iff.mpr ⟨digits, text, hnumber, htext, rfl, rfl⟩

theorem marker_of_readMarker? {rest after : Text} {segment : Segment}
    (h : readMarker? rest = some (segment, after)) :
    (∃ digits, segment = .tabStop digits ∧ IsNumber digits ∧ ¬ StartsWithDigit after ∧
        rest = digits ++ after) ∨
      ∃ digits text, segment = .placeholder digits text ∧ IsNumber digits ∧
        '\x7d' ∉ text ∧ rest = '\x7b' :: digits ++ ':' :: text ++ '\x7d' :: after := by
  unfold readMarker? at h
  split at h
  · rcases readPlaceholder?_eq_some_iff.mp h with ⟨digits, text, hnumber, htext, rfl, rfl⟩
    exact Or.inr ⟨digits, text, rfl, hnumber, htext, rfl⟩
  · split at h
    · cases h
    · next hdigits =>
        cases h
        exact Or.inl ⟨_, rfl, isNumber_takeWhile hdigits rfl,
          not_startsWithDigit_dropWhile _, List.takeWhile_append_dropWhile.symm⟩

theorem precedes_of_readMarker? {rest after : Text} {segment : Segment}
    (h : readMarker? rest = some (segment, after)) : segment.Precedes after := by
  rcases marker_of_readMarker? h with
    ⟨digits, rfl, hnumber, hafter, _⟩ | ⟨digits, text, rfl, hnumber, htext, _⟩
  · exact .tabStop hnumber hafter
  · exact .placeholder hnumber htext

theorem readMarker?_eq_none_iff {rest : Text} :
    readMarker? rest = none ↔ Segment.dollar.Precedes rest := by
  constructor
  · intro h
    refine .dollar ?_ ?_
    · intro hdigits
      rcases hdigits with ⟨c, hc, hdigit⟩
      rcases List.head?_eq_some_iff.mp hc with ⟨tail, rfl⟩
      have hhead : (c :: tail).head? ≠ some '\x7b' := by
        intro hbrace
        cases hbrace
        cases hdigit
      rw [readMarker?_eq_of_head? hhead, List.takeWhile_cons_of_pos hdigit] at h
      cases h
    · intro hbraces
      rcases hbraces with ⟨digits, text, after, hnumber, htext, rfl⟩
      rw [List.cons_append, List.cons_append, readMarker?_placeholder hnumber htext] at h
      cases h
  · intro h
    cases h with
    | dollar hdigit hbraces =>
        cases hread : readMarker? rest with
        | none =>
            rfl
        | some marker =>
            rcases marker_of_readMarker? hread with
              ⟨digits, _, hnumber, _, rfl⟩ | ⟨digits, text, _, hnumber, htext, rfl⟩
            · cases digits with
              | nil =>
                  exact absurd rfl hnumber.1
              | cons c digits =>
                  exact absurd ⟨c, rfl, hnumber.2 c List.mem_cons_self⟩ hdigit
            · exact absurd ⟨digits, text, _, hnumber, htext, rfl⟩ hbraces

/-!
# One segment at a time
-/

theorem strip_nil : strip [] = [] := by
  rw [strip, segments]
  rfl

theorem strip_eq_append (template : Text) :
    strip template =
      template.takeWhile (· != '$') ++ strip (template.dropWhile (· != '$')) := by
  cases template with
  | nil =>
      rfl
  | cons c rest =>
      by_cases hc : c = '$'
      · rw [List.takeWhile_cons_of_neg (by simp [hc]),
          List.dropWhile_cons_of_neg (by simp [hc]), List.nil_append]
      · rw [List.takeWhile_cons_of_pos (by simpa using hc),
          List.dropWhile_cons_of_pos (by simpa using hc), strip, segments, if_neg hc]
        rfl

theorem strip_literal {text : Text} (h : '$' ∉ text) (after : Text) :
    strip (text ++ after) = text ++ strip after := by
  rw [strip_eq_append, List.takeWhile_append_of_pos (bne_of_mem h),
    List.dropWhile_append_of_pos (bne_of_mem h), List.append_assoc, ← strip_eq_append]

theorem strip_marker {rest after : Text} {segment : Segment}
    (h : readMarker? rest = some (segment, after)) :
    strip ('$' :: rest) = segment.plain ++ strip after := by
  rw [strip, segments, if_pos rfl]
  split
  · next other beyond hread =>
      cases h.symm.trans hread
      rfl
  · next hnone =>
      cases h.symm.trans hnone

theorem strip_dollar {rest : Text} (h : readMarker? rest = none) :
    strip ('$' :: rest) = '$' :: strip rest := by
  rw [strip, segments, if_pos rfl]
  split
  · next segment after hread =>
      cases h.symm.trans hread
  · rfl

theorem strip_append {segment : Segment} {after : Text} (h : segment.Precedes after) :
    strip (segment.render ++ after) = segment.plain ++ strip after := by
  cases h with
  | literal htext =>
      exact strip_literal htext after
  | tabStop hnumber hafter =>
      exact strip_marker (readMarker?_tabStop hnumber hafter)
  | @placeholder digits text _ hnumber htext =>
      have hstrip := strip_marker (readMarker?_placeholder hnumber htext after)
      simpa [Segment.render] using hstrip
  | dollar hdigit hbraces =>
      exact strip_dollar (readMarker?_eq_none_iff.mpr (.dollar hdigit hbraces))

/-!
# Whole templates
-/

theorem strip_render {parts : List Segment} (h : WellFormed parts) :
    strip (render parts) = plain parts := by
  induction h with
  | nil =>
      exact strip_nil
  | cons hsegment _ ih =>
      rw [render, List.flatMap_cons, ← render, strip_append hsegment, ih]
      rfl

theorem wellFormed_segments (template : Text) : WellFormed (segments template) := by
  fun_induction segments template with
  | case1 =>
      exact .nil
  | case2 rest segment after hmarker hle ih =>
      refine .cons ?_ ih
      rw [render_segments]
      exact precedes_of_readMarker? hmarker
  | case3 rest hmarker ih =>
      refine .cons ?_ ih
      rw [render_segments]
      exact readMarker?_eq_none_iff.mp hmarker
  | case4 c rest hc hle ih =>
      refine .cons (.literal ?_) ih
      intro hmem
      rcases List.mem_cons.mp hmem with heq | hrest
      · exact hc heq.symm
      · exact not_mem_takeWhile_bne _ _ hrest

/-- Segments that stay apart are stripped to their plain text from the template that
they are written as, and every template is written as such segments. -/
theorem strip_undoes_render :
    (∀ parts, WellFormed parts → strip (render parts) = plain parts) ∧
      ∀ template, ∃ parts, WellFormed parts ∧ render parts = template := by
  constructor
  · intro parts hparts
    exact strip_render hparts
  · intro template
    exact ⟨segments template, wellFormed_segments template, render_segments template⟩

-- A placeholder whose text looks like markers, dollar signs before a placeholder and
-- before an unclosed brace, and tab stops.
def mixedParts : List Segment :=
  [.literal "a ".toList, .placeholder ['1'] "x$2\x7b:".toList, .dollar,
    .placeholder ['3'] [], .tabStop ['4', '0'], .literal ['x'], .dollar,
    .literal "\x7b5:open".toList, .tabStop ['6']]

theorem strip_undoes_render_mixed :
    WellFormed mixedParts ∧
      strip "a $\x7b1:x$2\x7b:\x7d$$\x7b3:\x7d$40x$\x7b5:open$6".toList =
        "a x$2\x7b:$x$\x7b5:open".toList := by
  have hparts : WellFormed mixedParts := by
    refine .cons (.literal (by decide)) ?_
    refine .cons (.placeholder (by decide) (by decide)) ?_
    refine .cons (readMarker?_eq_none_iff.mp rfl) ?_
    refine .cons (.placeholder (by decide) (by decide)) ?_
    refine .cons (.tabStop (by decide) (by decide)) ?_
    refine .cons (.literal (by decide)) ?_
    refine .cons (readMarker?_eq_none_iff.mp rfl) ?_
    refine .cons (.literal (by decide)) ?_
    exact .cons (.tabStop (by decide) (by decide)) .nil
  exact ⟨hparts, strip_undoes_render.1 mixedParts hparts⟩

end Template
end ScriptAssist
