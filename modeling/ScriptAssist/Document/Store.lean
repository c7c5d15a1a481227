import ScriptAssist.Text.Position

/-!
# Open documents

The store holds the documents that the client has open, with the texts that
its changes lead to.  Documents are told apart by their URIs, which stand here
in their normal form; a URI is open at most once.
-/

namespace ScriptAssist

structure Document where
  version : Int
  text : Text
  deriving DecidableEq, Repr

def Document.update (document : Document) (version : Int) (changes : List Change) :
    Document :=
  ⟨version, Change.applyAll document.text changes⟩

/-- The open documents, the one touched last at the end. -/
structure Store where
  entries : List (String × Document)
  nodup : (entries.map Prod.fst).Nodup

namespace Store

def empty : Store :=
  ⟨[], List.nodup_nil⟩

def size (store : Store) : Nat :=
  store.entries.length

def isEmpty (store : Store) : Bool :=
  store.entries.isEmpty

def get? (store : Store) (uri : String) : Option Document :=
  store.entries.lookup uri

/-!
# Operations

To open a document replaces one that is already open.  To change or close a
document that is not open does nothing.
-/

def others (uri : String) (entries : List (String × Document)) :
    List (String × Document) :=
  entries.filter (·.1 != uri)

theorem nodup_others (uri : String) {entries : List (String × Document)}
    (h : (entries.map Prod.fst).Nodup) :
    ((others uri entries).map Prod.fst).Nodup :=
  h.sublist (List.filter_sublist.map Prod.fst)

theorem not_mem_others (uri : String) (entries : List (String × Document)) :
    uri ∉ (others uri entries).map Prod.fst := by
  simp [others]

def close (store : Store) (uri : String) : Store where
  entries := others uri store.entries
  nodup := nodup_others uri store.nodup

def insert (store : Store) (uri : String) (document : Document) : Store where
  entries := others uri store.entries ++ [(uri, document)]
  nodup := by
    rw [List.map_append, List.nodup_append]
    refine ⟨nodup_others uri store.nodup, by simp, ?_⟩
    intro name hname other hother heq
    have huri : other = uri := by simpa using hother
    rw [heq, huri] at hname
    exact not_mem_others uri store.entries hname

def change (store : Store) (uri : String) (version : Int) (changes : List Change) :
    Store :=
  match store.get? uri with
  | none => store
  | some document => store.insert uri (document.update version changes)

/-!
# What is open after an operation
-/

theorem lookup_others_self (uri : String) (entries : List (String × Document)) :
    (others uri entries).lookup uri = none := by
  rw [List.lookup_eq_none_iff]
  intro entry hentry
  have hne : entry.1 ≠ uri := by
    simpa using (List.mem_filter.mp hentry).2
  simpa using Ne.symm hne

theorem lookup_others_of_ne {uri name : String} (hne : name ≠ uri)
    (entries : List (String × Document)) :
    (others uri entries).lookup name = entries.lookup name := by
  induction entries with
  | nil =>
      rfl
  | cons entry rest ih =>
      obtain ⟨key, document⟩ := entry
      rw [others] at ih ⊢
      by_cases hkey : key = uri
      · have hname : (name == key) = false := by
          rw [hkey]
          exact beq_false_of_ne hne
        rw [List.filter_cons_of_neg (by simp [hkey]), ih, List.lookup_cons, hname]
      · rw [List.filter_cons_of_pos (by simp [hkey]), List.lookup_cons,
          List.lookup_cons, ih]

@[simp] theorem get?_empty (uri : String) : empty.get? uri = none :=
  rfl

@[simp] theorem get?_close_self (store : Store) (uri : String) :
    (store.close uri).get? uri = none :=
  lookup_others_self uri store.entries

theorem get?_close_of_ne (store : Store) {uri name : String} (hne : name ≠ uri) :
    (store.close uri).get? name = store.get? name :=
  lookup_others_of_ne hne store.entries

@[simp] theorem get?_insert_self (store : Store) (uri : String) (document : Document) :
    (store.insert uri document).get? uri = some document := by
  rw [get?, insert, List.lookup_append, lookup_others_self]
  simp

theorem get?_insert_of_ne (store : Store) {uri name : String} (hne : name ≠ uri)
    (document : Document) :
    (store.insert uri document).get? name = store.get? name := by
  rw [get?, insert, List.lookup_append, lookup_others_of_ne hne]
  simp [get?, List.lookup_cons, beq_false_of_ne hne]

theorem get?_change_self (store : Store) (uri : String) (version : Int)
    (changes : List Change) :
    (store.change uri version changes).get? uri =
      (store.get? uri).map (·.update version changes) := by
  rw [change]
  cases h : store.get? uri with
  | none => simpa using h
  | some document => simp

theorem get?_change_of_ne (store : Store) {uri name : String} (hne : name ≠ uri)
    (version : Int) (changes : List Change) :
    (store.change uri version changes).get? name = store.get? name := by
  rw [change]
  cases store.get? uri with
  | none => rfl
  | some document => exact get?_insert_of_ne store hne _

theorem close_of_not_open {store : Store} {uri : String}
    (h : store.get? uri = none) : store.close uri = store := by
  have hothers : others uri store.entries = store.entries := by
    rw [others, List.filter_eq_self]
    intro entry hentry
    have hne := List.lookup_eq_none_iff.mp h entry hentry
    simpa [bne, BEq.comm] using hne
  simp only [close, hothers]

theorem change_of_not_open {store : Store} {uri : String}
    (h : store.get? uri = none) (version : Int) (changes : List Change) :
    store.change uri version changes = store := by
  rw [change, h]

/-!
# Histories

A store is asked to follow an event or what it holds of a document, and says
what a change has led to, whether a closed document was open, or what was
asked for.
-/

inductive Event where
  | opened (uri : String) (document : Document)
  | changed (uri : String) (version : Int) (changes : List Change)
  | closed (uri : String)
  deriving DecidableEq, Repr

def apply (store : Store) : Event → Store
  | .opened uri document => store.insert uri document
  | .changed uri version changes => store.change uri version changes
  | .closed uri => store.close uri

inductive Operation where
  | event (event : Event)
  | get (uri : String)
  deriving DecidableEq, Repr

inductive Report where
  | nothing
  | document (found : Option Document)
  | wasOpen (answer : Bool)
  deriving DecidableEq, Repr

def perform (store : Store) : Operation → Store × Report
  | .event event =>
      let next := store.apply event
      let report :=
        match event with
        | .opened _ _ => .nothing
        | .changed uri _ _ => .document (next.get? uri)
        | .closed uri => .wasOpen (store.get? uri).isSome
      (next, report)
  | .get uri => (store, .document (store.get? uri))

def replay (store : Store) (operations : List Operation) : Store :=
  operations.foldl (fun store operation => (store.perform operation).1) store

end Store
end ScriptAssist
