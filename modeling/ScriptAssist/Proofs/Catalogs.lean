import ScriptAssist.Catalog.Basic
import Mathlib.Data.List.Basic
import Mathlib.Data.List.Nodup

/-!
# Building catalogs and finding entries

A list of entries makes a catalog if each entry fits the ones before it; if one
does not, the first such entry decides what the fault is.  The entries are
checked in one pass, which may note the place of each key on its way.  The
table of places that it leaves finds the same entries as going through the
catalog does.
-/

namespace ScriptAssist

theorem find?_eq_some_iff_of_unique {β : Type} {test : β → Bool} {elements : List β}
    (hunique : ∀ first ∈ elements, ∀ second ∈ elements,
      test first = true → test second = true → first = second) {element : β} :
    elements.find? test = some element ↔ element ∈ elements ∧ test element = true := by
  constructor
  · intro hfind
    exact ⟨List.mem_of_find?_eq_some hfind, List.find?_some hfind⟩
  · rintro ⟨hmem, htest⟩
    have hfound : (elements.find? test).isSome :=
      List.find?_isSome.mpr ⟨element, hmem, htest⟩
    rcases Option.isSome_iff_exists.mp hfound with ⟨other, hother⟩
    rw [hother, hunique other (List.mem_of_find?_eq_some hother) element hmem
      (List.find?_some hother) htest]

namespace Catalog

open CatalogEntry

variable {α : Type} [CatalogEntry α]

/-!
# Entries that fit
-/

def InsertsKey (entry : α) : Prop :=
  (key entry).toList <+: Template.strip (template entry).toList

structure Fits (earlier : List α) (entry : α) : Prop where
  nonempty : key entry ≠ ""
  insertsKey : InsertsKey entry
  fresh : ∀ other ∈ earlier, key other ≠ key entry

/-- The fault of an entry that cannot follow others: that of its key, that of its
template, or else that of the two entries with one key. -/
inductive HasFault (name : String) (earlier : List α) (entry : α) : Fault → Prop where
  | emptyKey :
      key entry = "" → HasFault name earlier entry (.emptyKey name)
  | templateMismatch :
      key entry ≠ "" → ¬ InsertsKey entry →
      HasFault name earlier entry (.templateMismatch (key entry) (template entry))
  | duplicateKey :
      key entry ≠ "" → InsertsKey entry → (∃ other ∈ earlier, key other = key entry) →
      HasFault name earlier entry (.duplicateKey name (key entry))

theorem startsWithKey_iff {entry : α} : startsWithKey entry = true ↔ InsertsKey entry :=
  List.isPrefixOf_iff_prefix

def keysBefore (earlier : List α) : List String :=
  (earlier.map key).reverse

theorem mem_keysBefore {earlier : List α} {word : String} :
    word ∈ keysBefore earlier ↔ ∃ other ∈ earlier, key other = word := by
  rw [keysBefore, List.mem_reverse, List.mem_map]

theorem keysBefore_concat (earlier : List α) (entry : α) :
    keysBefore (earlier ++ [entry]) = key entry :: keysBefore earlier := by
  rw [keysBefore, List.map_append, List.reverse_append]
  rfl

theorem entryFault?_eq_some_iff {name : String} {earlier : List α} {entry : α}
    {fault : Fault} :
    entryFault? name (keysBefore earlier) entry = some fault ↔
      HasFault name earlier entry fault := by
  have hmismatch : (!startsWithKey entry) = true ↔ ¬ InsertsKey entry := by
    rw [Bool.not_eq_true', ← Bool.not_eq_true, startsWithKey_iff]
  rw [entryFault?]
  constructor
  · intro h
    split at h
    · next hempty =>
        cases h
        exact .emptyKey hempty
    · next hnonempty =>
        split at h
        · next hnot =>
            cases h
            exact .templateMismatch hnonempty (hmismatch.mp hnot)
        · next hstarts =>
            split at h
            · next hmem =>
                cases h
                rw [hmismatch, not_not] at hstarts
                exact .duplicateKey hnonempty hstarts (mem_keysBefore.mp hmem)
            · cases h
  · intro h
    cases h with
    | emptyKey hempty =>
        rw [if_pos hempty]
    | templateMismatch hnonempty hnot =>
        rw [if_neg hnonempty, if_pos (hmismatch.mpr hnot)]
    | duplicateKey hnonempty hinserts hother =>
        rw [if_neg hnonempty, if_neg fun hnot => hmismatch.mp hnot hinserts,
          if_pos (mem_keysBefore.mpr hother)]

theorem entryFault?_eq_none_iff {name : String} {earlier : List α} {entry : α} :
    entryFault? name (keysBefore earlier) entry = none ↔ Fits earlier entry := by
  constructor
  · intro h
    have hnone : ∀ fault, ¬ HasFault name earlier entry fault := by
      intro fault hfault
      rw [entryFault?_eq_some_iff.mpr hfault] at h
      cases h
    have hnonempty : key entry ≠ "" := fun hempty => hnone _ (.emptyKey hempty)
    have hinserts : InsertsKey entry :=
      not_not.mp fun hmismatch => hnone _ (.templateMismatch hnonempty hmismatch)
    exact ⟨hnonempty, hinserts, fun other hother heq =>
      hnone _ (.duplicateKey hnonempty hinserts ⟨other, hother, heq⟩)⟩
  · intro h
    cases hfault : entryFault? name (keysBefore earlier) entry with
    | none =>
        rfl
    | some fault =>
        cases entryFault?_eq_some_iff.mp hfault with
        | emptyKey hempty =>
            exact absurd hempty h.nonempty
        | templateMismatch _ hmismatch =>
            exact absurd h.insertsKey hmismatch
        | duplicateKey _ _ hother =>
            rcases hother with ⟨other, hmem, heq⟩
            exact absurd heq (h.fresh other hmem)

/-!
# The first fault
-/

/-- A fault of the first entry that does not fit those before it. -/
def FirstFault (name : String) (earlier entries : List α) (fault : Fault) : Prop :=
  ∃ number entry, entries[number]? = some entry ∧
    HasFault name (earlier ++ entries.take number) entry fault ∧
    ∀ smaller < number, ∀ other ∈ entries[smaller]?,
      Fits (earlier ++ entries.take smaller) other

theorem firstFault_cons {name : String} {earlier : List α} {entry : α} {rest : List α}
    {fault : Fault} :
    FirstFault name earlier (entry :: rest) fault ↔
      HasFault name earlier entry fault ∨
        Fits earlier entry ∧ FirstFault name (earlier ++ [entry]) rest fault := by
  have hearlier : ∀ number,
      earlier ++ (entry :: rest).take (number + 1) =
        earlier ++ [entry] ++ rest.take number := by
    intro number
    rw [List.take_succ_cons, List.append_assoc, List.singleton_append]
  constructor
  · rintro ⟨number, faulty, hfaulty, hfault, hfits⟩
    cases number with
    | zero =>
        cases hfaulty
        rw [List.take_zero, List.append_nil] at hfault
        exact Or.inl hfault
    | succ number =>
        have hfirst := hfits 0 (Nat.succ_pos number) entry rfl
        rw [List.take_zero, List.append_nil] at hfirst
        rw [hearlier] at hfault
        refine Or.inr ⟨hfirst, number, faulty, hfaulty, hfault, ?_⟩
        intro smaller hsmaller other hother
        rw [← hearlier]
        exact hfits (smaller + 1) (Nat.succ_lt_succ hsmaller) other hother
  · rintro (hfault | ⟨hfirst, number, faulty, hfaulty, hfault, hfits⟩)
    · refine ⟨0, entry, rfl, ?_, ?_⟩
      · rwa [List.take_zero, List.append_nil]
      · intro smaller hsmaller
        cases hsmaller
    · refine ⟨number + 1, faulty, hfaulty, ?_, ?_⟩
      · rwa [hearlier]
      · intro smaller hsmaller other hother
        cases smaller with
        | zero =>
            cases hother
            rwa [List.take_zero, List.append_nil]
        | succ smaller =>
            rw [hearlier]
            exact hfits smaller (Nat.lt_of_succ_lt_succ hsmaller) other hother

theorem faultAfter?_eq_some_iff {name : String} {earlier entries : List α}
    {fault : Fault} :
    faultAfter? name (keysBefore earlier) entries = some fault ↔
      FirstFault name earlier entries fault := by
  induction entries generalizing earlier with
  | nil =>
      constructor
      · intro h
        cases h
      · rintro ⟨number, entry, hentry, _⟩
        cases hentry
  | cons entry rest ih =>
      rw [firstFault_cons, faultAfter?, ← keysBefore_concat, ← ih,
        ← entryFault?_eq_some_iff, ← entryFault?_eq_none_iff]
      cases entryFault? name (keysBefore earlier) entry <;> simp

theorem faultAfter?_eq_none_iff {name : String} {earlier entries : List α} :
    faultAfter? name (keysBefore earlier) entries = none ↔
      (∀ entry ∈ entries, key entry ≠ "") ∧ (∀ entry ∈ entries, InsertsKey entry) ∧
        (entries.map key).Nodup ∧
        ∀ entry ∈ entries, ∀ other ∈ earlier, key other ≠ key entry := by
  induction entries generalizing earlier with
  | nil =>
      simp [faultAfter?]
  | cons entry rest ih =>
      have hstep : faultAfter? name (keysBefore earlier) (entry :: rest) = none ↔
          Fits earlier entry ∧
            faultAfter? name (keysBefore (earlier ++ [entry])) rest = none := by
        rw [faultAfter?, ← keysBefore_concat, ← entryFault?_eq_none_iff]
        cases entryFault? name (keysBefore earlier) entry <;> simp
      have hfresh : (∀ later ∈ rest, ∀ other ∈ earlier ++ [entry], key other ≠ key later) ↔
          key entry ∉ rest.map key ∧
            ∀ later ∈ rest, ∀ other ∈ earlier, key other ≠ key later := by
        simp only [List.forall_mem_append, List.forall_mem_singleton, List.mem_map,
          not_exists, not_and, forall_and, ne_comm, and_comm]
      rw [hstep, ih, hfresh, List.map_cons, List.nodup_cons, List.forall_mem_cons,
        List.forall_mem_cons, List.forall_mem_cons]
      constructor
      · rintro ⟨hfits, hnonempty, hinserts, hnodup, hnotMem, hother⟩
        exact ⟨⟨hfits.nonempty, hnonempty⟩, ⟨hfits.insertsKey, hinserts⟩,
          ⟨hnotMem, hnodup⟩, hfits.fresh, hother⟩
      · rintro ⟨⟨hempty, hnonempty⟩, ⟨hentry, hinserts⟩, ⟨hnotMem, hnodup⟩, hfirst, hother⟩
        exact ⟨⟨hempty, hentry, hfirst⟩, hnonempty, hinserts, hnodup, hnotMem, hother⟩

theorem fault?_eq_some_iff {name : String} {entries : List α} {fault : Fault} :
    fault? name entries = some fault ↔ FirstFault name [] entries fault := by
  show faultAfter? name (keysBefore ([] : List α)) entries = some fault ↔ _
  exact faultAfter?_eq_some_iff

theorem fault?_eq_none_iff {name : String} {entries : List α} :
    fault? name entries = none ↔
      (∀ entry ∈ entries, key entry ≠ "") ∧ (∀ entry ∈ entries, InsertsKey entry) ∧
        (entries.map key).Nodup := by
  show faultAfter? name (keysBefore ([] : List α)) entries = none ↔ _
  rw [faultAfter?_eq_none_iff]
  simp

theorem ofEntries_eq_error_iff {name : String} {entries : List α} {fault : Fault} :
    ofEntries name entries = .error fault ↔ fault? name entries = some fault := by
  unfold ofEntries
  split
  · next other hfault =>
      rw [hfault, Except.error.injEq, Option.some.injEq]
  · next hnone =>
      constructor
      · intro h
        cases h
      · intro h
        cases hnone.symm.trans h

theorem ofEntries_eq_ok_iff {name : String} {entries : List α} {catalog : Catalog α} :
    ofEntries name entries = .ok catalog ↔
      catalog.name = name ∧ catalog.entries = entries := by
  unfold ofEntries
  split
  · next fault hfault =>
      constructor
      · intro h
        cases h
      · rintro ⟨rfl, rfl⟩
        cases hfault.symm.trans catalog.faultless
  · constructor
    · intro h
      cases h
      exact ⟨rfl, rfl⟩
    · rintro ⟨rfl, rfl⟩
      rfl

theorem exists_ofEntries_iff {name : String} {entries : List α} :
    (∃ catalog, ofEntries name entries = .ok catalog) ↔ fault? name entries = none := by
  constructor
  · rintro ⟨catalog, hcatalog⟩
    rcases ofEntries_eq_ok_iff.mp hcatalog with ⟨rfl, rfl⟩
    exact catalog.faultless
  · intro hnone
    exact ⟨⟨name, entries, hnone⟩, ofEntries_eq_ok_iff.mpr ⟨rfl, rfl⟩⟩

/-!
# Finding entries
-/

theorem nodup_keys (catalog : Catalog α) : (catalog.entries.map key).Nodup :=
  (fault?_eq_none_iff.mp catalog.faultless).2.2

theorem find?_eq_some_iff {catalog : Catalog α} {word : String} {entry : α} :
    catalog.find? word = some entry ↔ entry ∈ catalog.entries ∧ key entry = word := by
  have hunique : ∀ first ∈ catalog.entries, ∀ second ∈ catalog.entries,
      (key first == word) = true → (key second == word) = true → first = second := by
    intro first hfirst second hsecond hfirstKey hsecondKey
    rw [beq_iff_eq] at hfirstKey hsecondKey
    exact List.inj_on_of_nodup_map catalog.nodup_keys hfirst hsecond
      (hfirstKey.trans hsecondKey.symm)
  rw [find?, find?_eq_some_iff_of_unique hunique, beq_iff_eq]

theorem find?_eq_none_iff {catalog : Catalog α} {word : String} :
    catalog.find? word = none ↔ ∀ entry ∈ catalog.entries, key entry ≠ word := by
  rw [find?, List.find?_eq_none]
  simp

theorem key_ne_of_append {catalog : Catalog α} {before after : List α} {entry : α}
    (h : catalog.entries = before ++ entry :: after) :
    ∀ other ∈ before ++ after, key other ≠ key entry := by
  have hnodup := catalog.nodup_keys
  rw [h, List.map_append, List.map_cons, List.nodup_middle, List.nodup_cons,
    ← List.map_append] at hnodup
  intro other hother heq
  exact hnodup.1 (heq ▸ List.mem_map_of_mem hother)

/-!
# A table of places
-/

/-- Checks entries in turn and notes the places of their keys, from a number on. -/
def indexFrom? (name : String) (number : Nat) (table : Std.HashMap String Nat) :
    List α → Except Fault (Std.HashMap String Nat)
  | [] => .ok table
  | entry :: rest =>
      if key entry = "" then
        .error (.emptyKey name)
      else if !startsWithKey entry then
        .error (.templateMismatch (key entry) (template entry))
      else
        match table.containsThenInsert (key entry) number with
        | (true, _) => .error (.duplicateKey name (key entry))
        | (false, table) => indexFrom? name (number + 1) table rest

def index? (name : String) (entries : List α) : Except Fault (Std.HashMap String Nat) :=
  indexFrom? name 0 ∅ entries

def Indexes (earlier : List α) (table : Std.HashMap String Nat) : Prop :=
  ∀ (word : String) (number : Nat),
    table[word]? = some number ↔ (earlier.map key)[number]? = some word

namespace Indexes

variable {earlier : List α} {table : Std.HashMap String Nat}

theorem empty : Indexes ([] : List α) ∅ := by
  intro word number
  simp

theorem contains_iff (h : Indexes earlier table) {word : String} :
    table.contains word = true ↔ ∃ other ∈ earlier, key other = word := by
  rw [Std.HashMap.contains_eq_isSome_getElem?, Option.isSome_iff_exists, ← List.mem_map,
    List.mem_iff_getElem?]
  exact exists_congr fun number => h word number

theorem concat (h : Indexes earlier table) {entry : α}
    (hfresh : ∀ other ∈ earlier, key other ≠ key entry) :
    Indexes (earlier ++ [entry]) (table.insert (key entry) earlier.length) := by
  intro word number
  have hlength : (earlier.map key).length = earlier.length := List.length_map key
  rw [Std.HashMap.getElem?_insert, List.map_append, List.map_singleton]
  by_cases hword : key entry = word
  · have hnotMem : word ∉ earlier.map key := by
      intro hmem
      rcases List.mem_map.mp hmem with ⟨other, hother, heq⟩
      exact hfresh other hother (heq.trans hword.symm)
    rw [if_pos (beq_iff_eq.mpr hword), Option.some.injEq, hword]
    constructor
    · rintro rfl
      rw [← hlength, List.getElem?_concat_length]
    · intro hget
      rw [List.getElem?_append] at hget
      split at hget
      · exact absurd (List.mem_of_getElem? hget) hnotMem
      · have hbound := (List.getElem?_eq_some_iff.mp hget).1
        rw [List.length_singleton] at hbound
        omega
  · rw [if_neg fun heq => hword (beq_iff_eq.mp heq), h word number, List.getElem?_append]
    split
    · rfl
    · next hbeyond =>
        rw [List.getElem?_eq_none (Nat.le_of_not_lt hbeyond)]
        constructor
        · intro hget
          cases hget
        · intro hget
          have hmem := List.mem_of_getElem? hget
          exact absurd (List.mem_singleton.mp hmem).symm hword

end Indexes

section Run

variable {earlier : List α} {table : Std.HashMap String Nat} (htable : Indexes earlier table)

include htable

theorem indexFrom?_cons (name : String) (number : Nat) (entry : α) (rest : List α) :
    indexFrom? name number table (entry :: rest) =
      match entryFault? name (keysBefore earlier) entry with
      | some fault => .error fault
      | none => indexFrom? name (number + 1) (table.insert (key entry) number) rest := by
  have hcontains : table.contains (key entry) = true ↔ key entry ∈ keysBefore earlier := by
    rw [htable.contains_iff, mem_keysBefore]
  have hinsert : table.containsThenInsert (key entry) number =
      (table.contains (key entry), table.insert (key entry) number) :=
    Prod.ext Std.HashMap.containsThenInsert_fst Std.HashMap.containsThenInsert_snd
  rw [indexFrom?, entryFault?, hinsert]
  split
  · rfl
  · split
    · rfl
    · cases hmem : table.contains (key entry) with
      | true =>
          rw [if_pos (hcontains.mp hmem)]
      | false =>
          rw [if_neg]
          rw [← hcontains, hmem]
          exact Bool.false_ne_true

end Run

theorem indexFrom?_eq (name : String) {earlier : List α} (entries : List α)
    {table : Std.HashMap String Nat} (htable : Indexes earlier table) :
    match faultAfter? name (keysBefore earlier) entries with
    | some fault => indexFrom? name earlier.length table entries = .error fault
    | none => ∃ final, indexFrom? name earlier.length table entries = .ok final ∧
        Indexes (earlier ++ entries) final := by
  -- the entries that have been passed grow along with their table
  induction entries generalizing earlier table with
  | nil =>
      refine ⟨table, rfl, ?_⟩
      rwa [List.append_nil]
  | cons entry rest ih =>
      rw [indexFrom?_cons htable, faultAfter?]
      cases hentry : entryFault? name (keysBefore earlier) entry with
      | some fault =>
          rfl
      | none =>
          have hfits := entryFault?_eq_none_iff.mp hentry
          have hrest := ih (htable.concat hfits.fresh)
          rwa [keysBefore_concat, List.length_append, List.append_assoc] at hrest

theorem index?_eq (name : String) (entries : List α) :
    match fault? name entries with
    | some fault => index? name entries = .error fault
    | none => ∃ table, index? name entries = .ok table ∧ Indexes entries table :=
  indexFrom?_eq name entries Indexes.empty

theorem index?_eq_error_iff {name : String} {entries : List α} {fault : Fault} :
    index? name entries = .error fault ↔ fault? name entries = some fault := by
  have hindex := index?_eq name entries
  cases hfault : fault? name entries with
  | some other =>
      simp only [hfault] at hindex
      rw [hindex, Except.error.injEq, Option.some.injEq]
  | none =>
      simp only [hfault] at hindex
      rcases hindex with ⟨table, htable, _⟩
      rw [htable]
      constructor <;> intro h <;> cases h

theorem exists_table (catalog : Catalog α) :
    ∃ table, index? catalog.name catalog.entries = .ok table ∧
      Indexes catalog.entries table := by
  have hindex := index?_eq catalog.name catalog.entries
  simpa only [catalog.faultless] using hindex

theorem Indexes.bind_getElem? {catalog : Catalog α} {table : Std.HashMap String Nat}
    (h : Indexes catalog.entries table) (word : String) :
    table[word]?.bind (catalog.entries[·]?) = catalog.find? word := by
  apply Option.ext
  intro entry
  rw [Option.bind_eq_some_iff, find?_eq_some_iff, List.mem_iff_getElem?]
  constructor
  · rintro ⟨number, hplace, hget⟩
    rw [h, List.getElem?_map, hget, Option.map_some, Option.some.injEq] at hplace
    exact ⟨⟨number, hget⟩, hplace⟩
  · rintro ⟨⟨number, hget⟩, hkey⟩
    refine ⟨number, ?_, hget⟩
    rw [h, List.getElem?_map, hget, Option.map_some, hkey]

theorem Indexes.contains_eq {catalog : Catalog α} {table : Std.HashMap String Nat}
    (h : Indexes catalog.entries table) (word : String) :
    table.contains word = catalog.contains word := by
  rw [Bool.eq_iff_iff, h.contains_iff, contains, keys, List.contains_iff_mem, List.mem_map]

/-!
# Catalogs from entries
-/

theorem find?_eq_some_iff_only {catalog : Catalog α} {word : String} {entry : α} :
    catalog.find? word = some entry ↔
      ∃ before after, catalog.entries = before ++ entry :: after ∧ key entry = word ∧
        ∀ other ∈ before ++ after, key other ≠ word := by
  rw [find?_eq_some_iff]
  constructor
  · rintro ⟨hentry, rfl⟩
    rcases List.append_of_mem hentry with ⟨before, after, hsplit⟩
    exact ⟨before, after, hsplit, rfl, key_ne_of_append hsplit⟩
  · rintro ⟨before, after, hsplit, hkey, _⟩
    refine ⟨?_, hkey⟩
    rw [hsplit]
    exact List.mem_append_right before List.mem_cons_self

/-- A list of entries makes a catalog if no key is empty, each template inserts its key
and the keys are distinct; otherwise the fault is that of the first entry that does
not fit those before it.  A catalog keeps its entries in order and finds each by its
key, as does a table that is filled while the entries are checked. -/
theorem ofEntries_exact (name : String) (entries : List α) :
    ((∃ catalog, ofEntries name entries = .ok catalog) ↔
      (∀ entry ∈ entries, key entry ≠ "") ∧ (∀ entry ∈ entries, InsertsKey entry) ∧
        (entries.map key).Nodup) ∧
    (∀ fault, ofEntries name entries = .error fault ↔
      ∃ number entry, entries[number]? = some entry ∧
        HasFault name (entries.take number) entry fault ∧
        ∀ smaller < number, ∀ other ∈ entries[smaller]?,
          Fits (entries.take smaller) other) ∧
    (∀ catalog, ofEntries name entries = .ok catalog →
      catalog.name = name ∧ catalog.entries = entries ∧ catalog.size = entries.length ∧
      ∀ word,
        (∀ entry, catalog.find? word = some entry ↔
          ∃ before after, entries = before ++ entry :: after ∧ key entry = word ∧
            ∀ other ∈ before ++ after, key other ≠ word) ∧
        (catalog.find? word = none ↔ ∀ entry ∈ entries, key entry ≠ word) ∧
        (catalog.contains word = true ↔ (catalog.find? word).isSome = true)) ∧
    (∀ fault, index? name entries = .error fault ↔ ofEntries name entries = .error fault) ∧
    ∀ catalog, ofEntries name entries = .ok catalog →
      ∃ table, index? name entries = .ok table ∧ ∀ word,
        table[word]?.bind (entries[·]?) = catalog.find? word ∧
          table.contains word = catalog.contains word := by
  refine ⟨exists_ofEntries_iff.trans fault?_eq_none_iff, ?_, ?_, ?_, ?_⟩
  · intro fault
    exact ofEntries_eq_error_iff.trans fault?_eq_some_iff
  · intro catalog hcatalog
    rcases ofEntries_eq_ok_iff.mp hcatalog with ⟨rfl, rfl⟩
    refine ⟨rfl, rfl, rfl, ?_⟩
    intro word
    refine ⟨fun entry => find?_eq_some_iff_only, find?_eq_none_iff, ?_⟩
    rw [contains_eq_isSome_find?]
  · intro fault
    exact index?_eq_error_iff.trans ofEntries_eq_error_iff.symm
  · intro catalog hcatalog
    rcases ofEntries_eq_ok_iff.mp hcatalog with ⟨rfl, rfl⟩
    rcases catalog.exists_table with ⟨table, htable, hplaces⟩
    refine ⟨table, htable, ?_⟩
    intro word
    exact ⟨hplaces.bind_getElem? word, hplaces.contains_eq word⟩

end Catalog
end ScriptAssist
