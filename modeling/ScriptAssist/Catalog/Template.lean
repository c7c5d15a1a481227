import ScriptAssist.Text.Basic

/-!
# Insertion templates

What an editor inserts for a candidate is a template: text with tab stops
`$1` and placeholders `${1:text}` through which the user moves.  A dollar
sign that starts neither stands for itself.

A template is read as a list of segments.  Its plain text is what remains when
the tab stops are dropped and each placeholder gives way to its own text.
-/

namespace ScriptAssist
namespace Template

/-- A stretch of a template. -/
inductive Segment where
  | literal (text : Text)
  | tabStop (digits : Text)
  | placeholder (digits : Text) (text : Text)
  | dollar
  deriving DecidableEq, Repr

namespace Segment

def render : Segment → Text
  | .literal text => text
  | .tabStop digits => '$' :: digits
  | .placeholder digits text =>
      '$' :: '\x7b' :: digits ++ ':' :: text ++ ['\x7d']
  | .dollar => ['$']

def plain : Segment → Text
  | .literal text => text
  | .tabStop _ => []
  | .placeholder _ text => text
  | .dollar => ['$']

end Segment

/-!
# Reading segments

A marker is read after its dollar sign, and a placeholder after its opening
brace; both leave the text that follows them.
-/

def readPlaceholder? (body : Text) : Option (Segment × Text) :=
  match body.takeWhile Char.isDigit, body.dropWhile Char.isDigit with
  | digit :: digits, ':' :: inner =>
      match inner.dropWhile (· != '\x7d') with
      | _ :: after =>
          some (.placeholder (digit :: digits) (inner.takeWhile (· != '\x7d')), after)
      | [] => none
  | _, _ => none

def readMarker? : Text → Option (Segment × Text)
  | '\x7b' :: body => readPlaceholder? body
  | rest =>
      match rest.takeWhile Char.isDigit with
      | [] => none
      | digits => some (.tabStop digits, rest.dropWhile Char.isDigit)

theorem length_le_of_readPlaceholder? {body after : Text} {segment : Segment}
    (h : readPlaceholder? body = some (segment, after)) :
    after.length ≤ body.length := by
  unfold readPlaceholder? at h
  split at h
  · next digit digits inner _ hbody =>
      split at h
      · next c rest hinner =>
          have hbody' := (List.dropWhile_sublist (l := body) Char.isDigit).length_le
          have hinner' := (List.dropWhile_sublist (l := inner) (· != '\x7d')).length_le
          rw [hbody] at hbody'
          rw [hinner] at hinner'
          cases h
          simp only [List.length_cons] at hbody' hinner'
          omega
      · exact absurd h (by simp)
  · exact absurd h (by simp)

theorem length_le_of_readMarker? {rest after : Text} {segment : Segment}
    (h : readMarker? rest = some (segment, after)) :
    after.length ≤ rest.length := by
  unfold readMarker? at h
  split at h
  · have := length_le_of_readPlaceholder? h
    simp only [List.length_cons]
    omega
  · split at h
    · exact absurd h (by simp)
    · cases h
      exact (List.dropWhile_sublist Char.isDigit).length_le

def segments (template : Text) : List Segment :=
  match template with
  | [] => []
  | c :: rest =>
      if c = '$' then
        match h : readMarker? rest with
        | some (segment, after) =>
            have := length_le_of_readMarker? h
            segment :: segments after
        | none => .dollar :: segments rest
      else
        have := (List.dropWhile_sublist (l := rest) (· != '$')).length_le
        .literal (c :: rest.takeWhile (· != '$')) :: segments (rest.dropWhile (· != '$'))
termination_by template.length

def render (parts : List Segment) : Text :=
  parts.flatMap Segment.render

def plain (parts : List Segment) : Text :=
  parts.flatMap Segment.plain

/-- The plain text of a template. -/
def strip (template : Text) : Text :=
  plain (segments template)

/-!
# Nothing is lost

Every template is the text of its segments.
-/

theorem render_of_readPlaceholder? {body after : Text} {segment : Segment}
    (h : readPlaceholder? body = some (segment, after)) :
    segment.render ++ after = '$' :: '\x7b' :: body := by
  unfold readPlaceholder? at h
  split at h
  · next digit digits inner hdigits hbody =>
      split at h
      · next c rest hinner =>
          have hbody' := List.takeWhile_append_dropWhile (p := Char.isDigit) (l := body)
          have hinner' :=
            List.takeWhile_append_dropWhile (p := (· != '\x7d')) (l := inner)
          have hc : c = '\x7d' := by
            have hhead := List.head?_dropWhile_not (· != '\x7d') inner
            rw [hinner] at hhead
            simpa using hhead
          rw [hdigits, hbody] at hbody'
          rw [hinner, hc] at hinner'
          cases h
          rw [← hbody']
          simp only [Segment.render, List.cons_append, List.append_assoc,
            List.nil_append]
          rw [hinner']
      · exact absurd h (by simp)
  · exact absurd h (by simp)

theorem render_of_readMarker? {rest after : Text} {segment : Segment}
    (h : readMarker? rest = some (segment, after)) :
    segment.render ++ after = '$' :: rest := by
  unfold readMarker? at h
  split at h
  · exact render_of_readPlaceholder? h
  · split at h
    · exact absurd h (by simp)
    · cases h
      simp [Segment.render]

theorem render_segments (template : Text) : render (segments template) = template := by
  fun_induction segments template with
  | case1 => rfl
  | case2 rest segment after hmarker hle ih =>
      have hrender := render_of_readMarker? hmarker
      simp only [render, List.flatMap_cons] at ih ⊢
      rw [ih, hrender]
  | case3 rest hmarker ih =>
      simp only [render, List.flatMap_cons] at ih ⊢
      rw [ih]
      rfl
  | case4 c rest hc hle ih =>
      simp only [render, List.flatMap_cons] at ih ⊢
      rw [ih]
      simp [Segment.render]

example : strip "a $\x7b1:b\x7d$2 $c".toList = "a b $c".toList := by decide +kernel

end Template
end ScriptAssist
