import ScriptAssist.Catalog.Template
import ScriptAssist.Text.Printable

/-!
# Catalogs

A catalog is a named list of entries, each with a key and an insertion
template.  Three things make a list fit for a catalog: no key is empty, each
template inserts a text that starts with the key of its entry, and no key
occurs twice.  `Catalog.fault?` finds the first place where one of them fails,
and a `Catalog` carries the fact that there is no such place.
-/

namespace ScriptAssist

class CatalogEntry (α : Type) where
  key : α → String
  template : α → String

namespace Catalog

open CatalogEntry

/-!
# Faults

Entries are checked in their order, and each for the three faults in theirs.
The keys of the entries before one are what it must not repeat.
-/

inductive Fault where
  | emptyKey (catalog : String)
  | templateMismatch (key template : String)
  | duplicateKey (catalog key : String)
  deriving DecidableEq, Repr

def Fault.message : Fault → String
  | .emptyKey catalog => "empty keyword in " ++ catalog ++ " catalog"
  | .templateMismatch key template =>
      "insert template for '" ++ key ++ "' does not start with its keyword: "
        ++ Text.quoted template
  | .duplicateKey catalog key =>
      "duplicate keyword in " ++ catalog ++ " catalog: '" ++ key ++ "'"

variable {α : Type} [CatalogEntry α]

def startsWithKey (entry : α) : Bool :=
  (key entry).toList.isPrefixOf (Template.strip (template entry).toList)

def entryFault? (name : String) (earlier : List String) (entry : α) : Option Fault :=
  if key entry = "" then
    some (.emptyKey name)
  else if !startsWithKey entry then
    some (.templateMismatch (key entry) (template entry))
  else if key entry ∈ earlier then
    some (.duplicateKey name (key entry))
  else
    none

def faultAfter? (name : String) (earlier : List String) : List α → Option Fault
  | [] => none
  | entry :: rest =>
      match entryFault? name earlier entry with
      | some fault => some fault
      | none => faultAfter? name (key entry :: earlier) rest

def fault? (name : String) (entries : List α) : Option Fault :=
  faultAfter? name [] entries

end Catalog

/-- A named list of entries without a fault. -/
structure Catalog (α : Type) [CatalogEntry α] where
  name : String
  entries : List α
  faultless : Catalog.fault? name entries = none

namespace Catalog

/-!
# Looking entries up
-/

open CatalogEntry

variable {α : Type} [CatalogEntry α]

def ofEntries (name : String) (entries : List α) : Except Fault (Catalog α) :=
  match h : fault? name entries with
  | some fault => .error fault
  | none => .ok ⟨name, entries, h⟩

def size (catalog : Catalog α) : Nat :=
  catalog.entries.length

def isEmpty (catalog : Catalog α) : Bool :=
  catalog.entries.isEmpty

def keys (catalog : Catalog α) : List String :=
  catalog.entries.map key

def find? (catalog : Catalog α) (word : String) : Option α :=
  catalog.entries.find? (key · == word)

def contains (catalog : Catalog α) (word : String) : Bool :=
  catalog.keys.contains word

theorem contains_eq_isSome_find? (catalog : Catalog α) (word : String) :
    catalog.contains word = (catalog.find? word).isSome := by
  rw [contains, keys, find?, Bool.eq_iff_iff]
  simp [List.find?_isSome]

end Catalog
end ScriptAssist
