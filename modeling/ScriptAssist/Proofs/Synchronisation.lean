import ScriptAssist.Document.Store
import ScriptAssist.Proofs.Places

/-!
# Following the edits of a client

A client edits its text by byte offsets and reports each edit by positions,
which the server decodes in the text that it holds itself.  This module models
the client's side and shows that the two texts are the same after each report,
for every run of edits and however the edits are put together into reports.
-/

namespace ScriptAssist

/-!
# The client
-/

inductive Edit where
  | replaceAll (replacement : Text)
  | splice (first last : Nat) (replacement : Text)
  deriving DecidableEq, Repr

/-- Whether the place at an offset has a position of its own. -/
def Text.Addressable (text : Text) (offset : Nat) : Prop :=
  text.IsBoundary offset ∧ ¬ Text.SplitsEnding (text.upTo offset) (text.beyond offset)

instance (text : Text) (offset : Nat) : Decidable (text.Addressable offset) :=
  inferInstanceAs (Decidable (_ ∧ _))

namespace Edit

def Allowed (text : Text) : Edit → Prop
  | .replaceAll _ => True
  | .splice first last _ =>
      first ≤ last ∧ text.Addressable first ∧ text.Addressable last

instance (text : Text) (edit : Edit) : Decidable (edit.Allowed text) :=
  match edit with
  | .replaceAll _ => inferInstanceAs (Decidable True)
  | .splice _ _ _ => inferInstanceAs (Decidable (_ ∧ _))

def apply (text : Text) : Edit → Text
  | .replaceAll replacement => replacement
  | .splice first last replacement =>
      text.upTo first ++ replacement ++ text.beyond last

def report (text : Text) : Edit → Change
  | .replaceAll replacement => ⟨none, replacement⟩
  | .splice first last replacement =>
      ⟨some ⟨Position.ofOffset text first, Position.ofOffset text last⟩, replacement⟩

def applyAll (text : Text) (edits : List Edit) : Text :=
  edits.foldl apply text

def reportAll (text : Text) : List Edit → List Change
  | [] => []
  | edit :: rest => edit.report text :: reportAll (edit.apply text) rest

def AllAllowed (text : Text) : List Edit → Prop
  | [] => True
  | edit :: rest => edit.Allowed text ∧ AllAllowed (edit.apply text) rest

instance decidableAllAllowed : ∀ (text : Text) (edits : List Edit),
    Decidable (AllAllowed text edits)
  | _, [] => inferInstanceAs (Decidable True)
  | text, edit :: rest =>
      have := decidableAllAllowed (edit.apply text) rest
      inferInstanceAs (Decidable (edit.Allowed text ∧ AllAllowed (edit.apply text) rest))

end Edit

structure Batch where
  version : Int
  edits : List Edit
  deriving DecidableEq, Repr

namespace Batch

def documents (text : Text) : List Batch → List Document
  | [] => []
  | batch :: rest =>
      let next := Edit.applyAll text batch.edits
      ⟨batch.version, next⟩ :: documents next rest

def reports (text : Text) : List Batch → List (Int × List Change)
  | [] => []
  | batch :: rest =>
      (batch.version, Edit.reportAll text batch.edits)
        :: reports (Edit.applyAll text batch.edits) rest

def AllAllowed (text : Text) : List Batch → Prop
  | [] => True
  | batch :: rest =>
      Edit.AllAllowed text batch.edits ∧
        AllAllowed (Edit.applyAll text batch.edits) rest

instance decidableAllAllowed : ∀ (text : Text) (batches : List Batch),
    Decidable (AllAllowed text batches)
  | _, [] => inferInstanceAs (Decidable True)
  | text, batch :: rest =>
      have := decidableAllAllowed (Edit.applyAll text batch.edits) rest
      inferInstanceAs (Decidable (Edit.AllAllowed text batch.edits ∧
        AllAllowed (Edit.applyAll text batch.edits) rest))

end Batch

def Store.follow (store : Store) (uri : String) :
    List (Int × List Change) → List (Option Document)
  | [] => []
  | (version, changes) :: rest =>
      let next := store.change uri version changes
      next.get? uri :: next.follow uri rest

/-!
# Both texts are the same
-/

theorem Edit.apply_report {text : Text} {edit : Edit} (h : edit.Allowed text) :
    Change.apply text (edit.report text) = edit.apply text := by
  cases edit with
  | replaceAll replacement =>
      rfl
  | splice first last replacement =>
      rcases h with ⟨hle, hfirst, hlast⟩
      have hmono := Text.byteIndex_mono text hle
      simp only [Change.apply, Edit.report, Edit.apply,
        Position.index_ofOffset hfirst.2, Position.index_ofOffset hlast.2,
        Nat.min_eq_left hmono, Nat.max_eq_right hmono, Text.upTo, Text.beyond]

theorem Edit.applyAll_reportAll {text : Text} {edits : List Edit}
    (h : Edit.AllAllowed text edits) :
    Change.applyAll text (Edit.reportAll text edits) = Edit.applyAll text edits := by
  induction edits generalizing text with
  | nil =>
      rfl
  | cons edit rest ih =>
      rw [Edit.reportAll, Change.applyAll_cons, Edit.apply_report h.1, ih h.2]
      rfl

theorem Store.follow_of_open {store : Store} {uri : String} {version : Int}
    {text : Text} {batches : List Batch}
    (hopen : store.get? uri = some ⟨version, text⟩)
    (h : Batch.AllAllowed text batches) :
    store.follow uri (Batch.reports text batches) =
      (Batch.documents text batches).map some := by
  induction batches generalizing store version text with
  | nil =>
      rfl
  | cons batch rest ih =>
      -- the document of the client is what the store holds for the next report
      have hnext :
          (store.change uri batch.version
              (Edit.reportAll text batch.edits)).get? uri =
            some ⟨batch.version, Edit.applyAll text batch.edits⟩ := by
        rw [Store.get?_change_self, hopen, Option.map_some, Document.update,
          Edit.applyAll_reportAll h.1]
      rw [Batch.reports, Store.follow, hnext, ih hnext h.2]
      rfl

/-- Whatever a client does to a document that it has opened, the store answers each
report with the text that the client has and the version that it gave. -/
theorem Store.follow_reports (store : Store) (uri : String) (version : Int)
    (text : Text) (batches : List Batch) (h : Batch.AllAllowed text batches) :
    (store.insert uri ⟨version, text⟩).follow uri (Batch.reports text batches) =
      (Batch.documents text batches).map some :=
  Store.follow_of_open (Store.get?_insert_self store uri ⟨version, text⟩) h

-- The first batch puts line feeds in place of a character of two columns and then
-- joins lines across a line ending; the second starts anew with a lone return.
theorem Store.follow_reports_line_endings :
    Batch.AllAllowed "é😀\r\nx".toList
        [⟨7, [.splice 2 6 ['\n', '\n'], .splice 4 6 ['q']]⟩,
          ⟨-3, [.replaceAll ['a', '\r'], .splice 1 1 ['b']]⟩] ∧
      (Store.empty.insert "script" ⟨1, "é😀\r\nx".toList⟩).follow "script"
          (Batch.reports "é😀\r\nx".toList
            [⟨7, [.splice 2 6 ['\n', '\n'], .splice 4 6 ['q']]⟩,
              ⟨-3, [.replaceAll ['a', '\r'], .splice 1 1 ['b']]⟩]) =
        [some ⟨7, ['é', '\n', '\n', 'q', 'x']⟩, some ⟨-3, ['a', 'b', '\r']⟩] :=
  ⟨by decide +kernel,
    (Store.follow_reports Store.empty "script" 1 _ _ (by decide +kernel)).trans
      (by decide +kernel)⟩

end ScriptAssist
