import Mathlib.Data.Set.Card
import ScriptAssist.Document.Store

/-!
# A store is the replay of its history

What a store holds can be read off the operations that led to it.  A document
is there if it was opened and not closed since; its text is the one it was last
opened with, after all changes since then.  The proof follows one document
through the history, one operation at a time: no operation on another document
matters to it.
-/

namespace ScriptAssist
namespace Store

/-!
# What a history says about a document
-/

/-- Whether a document was opened and has not been closed since. -/
def Tracked (operations : List Operation) (uri : String) : Prop :=
  ∃ before document after,
    operations = before ++ .event (.opened uri document) :: after ∧
      .event (.closed uri) ∉ after

namespace Operation

def changesTo (uri : String) : Operation → List Change
  | .event (.changed name _ changes) => if name = uri then changes else []
  | _ => []

def versionOf? (uri : String) : Operation → Option Int
  | .event (.opened name document) => if name = uri then some document.version else none
  | .event (.changed name version _) => if name = uri then some version else none
  | _ => none

end Operation

/-- Whether a text is the one that a document was last opened with, after all
changes to the document since then. -/
def TextAfter (operations : List Operation) (uri : String) (text : Text) : Prop :=
  ∃ before document after,
    operations = before ++ .event (.opened uri document) :: after ∧
      (∀ later, .event (.opened uri later) ∉ after) ∧
      text = Change.applyAll document.text (after.flatMap (Operation.changesTo uri))

def versionAfter? (operations : List Operation) (uri : String) : Option Int :=
  (operations.filterMap (Operation.versionOf? uri)).getLast?

/-!
# One more operation
-/

theorem tracked_concat (operations : List Operation) (operation : Operation)
    (uri : String) :
    Tracked (operations ++ [operation]) uri ↔
      (∃ document, operation = .event (.opened uri document)) ∨
        (Tracked operations uri ∧ operation ≠ .event (.closed uri)) := by
  constructor
  · intro h
    rcases h with ⟨before, document, after, heq, hclosed⟩
    rcases List.eq_nil_or_concat' after with rfl | ⟨rest, last, rfl⟩
    · left
      have hlast := (List.append_inj' heq rfl).2
      exact ⟨document, (List.cons.inj hlast).1⟩
    · right
      rw [← List.cons_append, ← List.append_assoc] at heq
      rcases List.append_inj' heq rfl with ⟨rfl, hlast⟩
      cases hlast
      rw [List.mem_append, List.mem_singleton, not_or] at hclosed
      exact ⟨⟨before, document, rest, rfl, hclosed.1⟩, Ne.symm hclosed.2⟩
  · intro h
    rcases h with ⟨document, rfl⟩ | ⟨⟨before, document, after, rfl, hclosed⟩, hne⟩
    · exact ⟨operations, document, [], rfl, List.not_mem_nil⟩
    · refine ⟨before, document, after ++ [operation], by simp, ?_⟩
      rw [List.mem_append, List.mem_singleton, not_or]
      exact ⟨hclosed, Ne.symm hne⟩

theorem textAfter_opened (operations : List Operation) (uri : String)
    (document : Document) :
    TextAfter (operations ++ [.event (.opened uri document)]) uri document.text :=
  ⟨operations, document, [], rfl, fun _ => List.not_mem_nil, rfl⟩

theorem TextAfter.concat {operations : List Operation} {uri : String} {text : Text}
    (h : TextAfter operations uri text) {operation : Operation}
    (hopens : ∀ document, operation ≠ .event (.opened uri document)) :
    TextAfter (operations ++ [operation]) uri
      (Change.applyAll text (operation.changesTo uri)) := by
  rcases h with ⟨before, document, after, rfl, hlast, rfl⟩
  refine ⟨before, document, after ++ [operation], by simp, ?_, ?_⟩
  · intro later hmem
    rw [List.mem_append, List.mem_singleton] at hmem
    rcases hmem with hmem | heq
    · exact hlast later hmem
    · exact hopens later heq.symm
  · rw [List.flatMap_append, Change.applyAll, Change.applyAll, Change.applyAll,
      List.foldl_append, List.flatMap_singleton]

theorem versionAfter?_concat (operations : List Operation) (operation : Operation)
    (uri : String) :
    versionAfter? (operations ++ [operation]) uri =
      (operation.versionOf? uri).or (versionAfter? operations uri) := by
  rw [versionAfter?, List.filterMap_append, List.getLast?_append]
  cases h : operation.versionOf? uri <;> simp [h, versionAfter?]

/-!
# One document through a history
-/

def Operation.effectOn (uri : String) (found : Option Document) :
    Operation → Option Document
  | .event (.opened name document) => if name = uri then some document else found
  | .event (.changed name version changes) =>
      if name = uri then found.map (·.update version changes) else found
  | .event (.closed name) => if name = uri then none else found
  | .get _ => found

theorem get?_perform (store : Store) (operation : Operation) (uri : String) :
    (store.perform operation).1.get? uri = operation.effectOn uri (store.get? uri) := by
  cases operation with
  | get name =>
      rfl
  | event event =>
      cases event with
      | opened name document =>
          by_cases hname : name = uri
          · subst hname
            simp [perform, apply, Operation.effectOn]
          · simp [perform, apply, Operation.effectOn, hname,
              get?_insert_of_ne store (Ne.symm hname)]
      | changed name version changes =>
          by_cases hname : name = uri
          · subst hname
            simp [perform, apply, Operation.effectOn, get?_change_self]
          · simp [perform, apply, Operation.effectOn, hname,
              get?_change_of_ne store (Ne.symm hname)]
      | closed name =>
          by_cases hname : name = uri
          · subst hname
            simp [perform, apply, Operation.effectOn]
          · simp [perform, apply, Operation.effectOn, hname,
              get?_close_of_ne store (Ne.symm hname)]

structure Account (operations : List Operation) (uri : String)
    (found : Option Document) : Prop where
  tracked : found.isSome = true ↔ Tracked operations uri
  text : ∀ document ∈ found, TextAfter operations uri document.text
  version : ∀ document ∈ found, versionAfter? operations uri = some document.version

theorem account_none {operations : List Operation} {uri : String}
    (h : ¬ Tracked operations uri) : Account operations uri none where
  tracked := iff_of_false Bool.false_ne_true h
  text := by
    intro document hdocument
    cases hdocument
  version := by
    intro document hdocument
    cases hdocument

theorem account_nil (uri : String) : Account [] uri none := by
  apply account_none
  intro h
  rcases h with ⟨before, document, after, heq, _⟩
  cases before <;> cases heq

theorem Account.opened (operations : List Operation) (uri : String)
    (document : Document) :
    Account (operations ++ [.event (.opened uri document)]) uri (some document) where
  tracked := by
    rw [tracked_concat]
    exact iff_of_true rfl (Or.inl ⟨document, rfl⟩)
  text := by
    intro found hfound
    cases hfound
    exact textAfter_opened operations uri document
  version := by
    intro found hfound
    cases hfound
    rw [versionAfter?_concat, Operation.versionOf?, if_pos rfl, Option.some_or]

theorem Account.closed (operations : List Operation) (uri : String) :
    Account (operations ++ [.event (.closed uri)]) uri none := by
  apply account_none
  rw [tracked_concat]
  intro h
  rcases h with ⟨document, heq⟩ | ⟨_, hne⟩
  · cases heq
  · exact absurd rfl hne

theorem Account.updated {operations : List Operation} {uri : String}
    {found : Option Document} (h : Account operations uri found) {operation : Operation}
    (hopens : ∀ document, operation ≠ .event (.opened uri document))
    (hcloses : operation ≠ .event (.closed uri)) :
    Account (operations ++ [operation]) uri
      (found.map fun document =>
        ⟨(operation.versionOf? uri).getD document.version,
          Change.applyAll document.text (operation.changesTo uri)⟩) where
  tracked := by
    rw [tracked_concat, Option.isSome_map, h.tracked]
    constructor
    · intro htracked
      exact Or.inr ⟨htracked, hcloses⟩
    · intro hconcat
      rcases hconcat with ⟨document, heq⟩ | ⟨htracked, _⟩
      · exact absurd heq (hopens document)
      · exact htracked
  text := by
    intro next hnext
    rcases Option.map_eq_some_iff.mp hnext with ⟨document, hdocument, rfl⟩
    exact (h.text document hdocument).concat hopens
  version := by
    intro next hnext
    rcases Option.map_eq_some_iff.mp hnext with ⟨document, hdocument, rfl⟩
    rw [versionAfter?_concat, h.version document hdocument]
    cases operation.versionOf? uri <;> rfl

theorem Account.unaffected {operations : List Operation} {uri : String}
    {found : Option Document} (h : Account operations uri found) {operation : Operation}
    (hopens : ∀ document, operation ≠ .event (.opened uri document))
    (hcloses : operation ≠ .event (.closed uri))
    (hchanges : operation.changesTo uri = []) (hversion : operation.versionOf? uri = none) :
    Account (operations ++ [operation]) uri found := by
  have hupdated := h.updated hopens hcloses
  rw [hchanges, hversion] at hupdated
  simpa using hupdated

theorem Account.concat {operations : List Operation} {uri : String}
    {found : Option Document} (h : Account operations uri found) (operation : Operation) :
    Account (operations ++ [operation]) uri (operation.effectOn uri found) := by
  cases operation with
  | get name =>
      exact h.unaffected (by simp) (by simp) rfl rfl
  | event event =>
      cases event with
      | opened name document =>
          rw [Operation.effectOn]
          split
          case isTrue hname =>
            rw [hname]
            exact Account.opened operations uri document
          case isFalse hname =>
            exact h.unaffected (by simp [hname]) (by simp) rfl (if_neg hname)
      | changed name version changes =>
          rw [Operation.effectOn]
          split
          case isTrue hname =>
            have hupdated :=
              @Account.updated _ _ _ h (.event (.changed name version changes))
                (by simp) (by simp)
            simpa [Operation.versionOf?, Operation.changesTo, hname, Document.update]
              using hupdated
          case isFalse hname =>
            exact h.unaffected (by simp) (by simp) (if_neg hname) (if_neg hname)
      | closed name =>
          rw [Operation.effectOn]
          split
          case isTrue hname =>
            rw [hname]
            exact Account.closed operations uri
          case isFalse hname =>
            exact h.unaffected (by simp) (by simp [hname]) rfl rfl

theorem replay_concat (store : Store) (operations : List Operation)
    (operation : Operation) :
    store.replay (operations ++ [operation]) =
      ((store.replay operations).perform operation).1 := by
  simp [replay]

theorem account_replay (operations : List Operation) (uri : String) :
    Account operations uri ((empty.replay operations).get? uri) := by
  -- from the end, since an account is extended by what happens last
  induction operations using List.reverseRecOn with
  | nil =>
      exact account_nil uri
  | append_singleton operations operation ih =>
      rw [replay_concat, get?_perform]
      exact ih.concat operation

/-!
# The store as a whole
-/

theorem isSome_get?_iff (store : Store) (uri : String) :
    (store.get? uri).isSome = true ↔ uri ∈ store.entries.map Prod.fst := by
  rw [get?]
  induction store.entries with
  | nil =>
      simp
  | cons entry rest ih =>
      rw [List.lookup_cons, List.map_cons, List.mem_cons, ← ih]
      by_cases huri : uri = entry.1
      · simp [huri]
      · rw [beq_false_of_ne huri]
        exact (or_iff_right huri).symm

theorem encard_open (store : Store) :
    {uri | (store.get? uri).isSome = true}.encard = store.size := by
  have hkeys : {uri | (store.get? uri).isSome = true} =
      ((store.entries.map Prod.fst).toFinset : Set String) := by
    ext uri
    simp only [Set.mem_ofPred_eq, isSome_get?_iff, List.coe_toFinset]
  rw [hkeys, Set.encard_coe_eq_coe_finsetCard, List.toFinset_card_of_nodup store.nodup,
    List.length_map, size]

/-- Any history fixes which documents the store holds, with which text and version.
An attempt to change or close any other document is told that it is not open and does
nothing, and the size of the store is the number of its documents. -/
theorem replay_exact (operations : List Operation) :
    (∀ uri, ((empty.replay operations).get? uri).isSome = true ↔
        Tracked operations uri) ∧
      (∀ uri document, (empty.replay operations).get? uri = some document →
        TextAfter operations uri document.text ∧
          versionAfter? operations uri = some document.version) ∧
      (∀ uri, ¬ Tracked operations uri →
        (∀ version changes,
          (empty.replay operations).perform (.event (.changed uri version changes)) =
            (empty.replay operations, .document none)) ∧
        (empty.replay operations).perform (.event (.closed uri)) =
          (empty.replay operations, .wasOpen false)) ∧
      {uri | Tracked operations uri}.encard = (empty.replay operations).size ∧
      ((empty.replay operations).isEmpty = true ↔ (empty.replay operations).size = 0) := by
  have htracked : ∀ uri, ((empty.replay operations).get? uri).isSome = true ↔
      Tracked operations uri := by
    intro uri
    exact (account_replay operations uri).tracked
  refine ⟨htracked, ?_, ?_, ?_, ?_⟩
  · intro uri document hdocument
    have haccount := account_replay operations uri
    exact ⟨haccount.text document hdocument, haccount.version document hdocument⟩
  · intro uri huntracked
    have hnone : (empty.replay operations).get? uri = none := by
      rw [← htracked uri, Option.not_isSome_iff_eq_none] at huntracked
      exact huntracked
    constructor
    · intro version changes
      simp only [perform, apply, change_of_not_open hnone, hnone]
    · simp only [perform, apply, close_of_not_open hnone, hnone, Option.isSome_none]
  · simp only [← htracked]
    exact encard_open (empty.replay operations)
  · rw [isEmpty, size, List.isEmpty_iff, List.length_eq_zero_iff]

-- opened again while open, and again after it was closed; a change in between is lost
example :
    (empty.replay [
      .event (.opened "a" ⟨1, ['x']⟩), .event (.opened "a" ⟨2, ['y']⟩),
      .event (.opened "b" ⟨5, []⟩), .event (.closed "a"),
      .event (.changed "a" 3 [⟨none, ['z']⟩]), .get "b",
      .event (.opened "a" ⟨4, ['w']⟩), .event (.closed "c")]).entries =
      [("b", ⟨5, []⟩), ("a", ⟨4, ['w']⟩)] := by
  decide

end Store
end ScriptAssist
