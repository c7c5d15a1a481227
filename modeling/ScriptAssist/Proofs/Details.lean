import ScriptAssist.Completion.Candidates
import ScriptAssist.Proofs.Catalogs
import ScriptAssist.Proofs.Suggestions

/-!
# What an item tells in detail

An item is about an entry of one catalog.  Which catalog that is, the item says
in data that a client returns; which entry, it says by its label.  An item whose
entry is found gets the details of the entry in place of its own, and any other
item stays as it is, so that a second request adds nothing.  Every candidate
leads back to the entry that it was made from.
-/

namespace ScriptAssist

open Text

/-!
# Labels between quotes
-/

namespace Item

def Unquotes (label value : String) : Prop :=
  (∃ opening closing, label.toList =
    List.replicate opening '"' ++ value.toList ++ List.replicate closing '"') ∧
    value.toList.head? ≠ some '"' ∧ value.toList.getLast? ≠ some '"'

theorem dropWhile_quotes (count : Nat) {text : Text} (h : text.head? ≠ some '"') :
    (List.replicate count '"' ++ text).dropWhile (· == '"') = text := by
  refine (takeWhile_dropWhile_append ?_ text ?_).2
  · intro c hc
    rw [beq_iff_eq]
    exact List.eq_of_mem_replicate hc
  · intro c hc
    rw [beq_eq_false_iff_ne]
    intro heq
    exact h (heq ▸ hc)

theorem exists_quotes_append_dropWhile (text : Text) :
    ∃ count, text = List.replicate count '"' ++ text.dropWhile (· == '"') := by
  have hquotes : text.takeWhile (· == '"') =
      List.replicate (text.takeWhile (· == '"')).length '"' := by
    apply List.eq_replicate_of_mem
    intro c hc
    have hquote := List.mem_takeWhile_imp hc
    exact beq_iff_eq.mp hquote
  refine ⟨(text.takeWhile (· == '"')).length, ?_⟩
  rw [← hquotes, List.takeWhile_append_dropWhile]

theorem head?_dropWhile_quotes (text : Text) :
    (text.dropWhile (· == '"')).head? ≠ some '"' := by
  intro hhead
  have hnot := List.head?_dropWhile_not (· == '"') text
  rw [hhead] at hnot
  cases hnot

theorem unquotes_unquote (label : String) : Unquotes label (unquote label) := by
  have hvalue : (unquote label).toList =
      ((label.toList.dropWhile (· == '"')).reverse.dropWhile (· == '"')).reverse :=
    String.toList_ofList
  rcases exists_quotes_append_dropWhile label.toList with ⟨opening, hopening⟩
  rcases exists_quotes_append_dropWhile (label.toList.dropWhile (· == '"')).reverse with
    ⟨closing, hclosing⟩
  have hinner := congrArg List.reverse hclosing
  rw [List.reverse_reverse, List.reverse_append, List.reverse_replicate, ← hvalue] at hinner
  refine ⟨⟨opening, closing, ?_⟩, ?_, ?_⟩
  · rw [List.append_assoc, ← hinner]
    exact hopening
  · intro hhead
    apply head?_dropWhile_quotes label.toList
    rw [hinner, List.head?_append, hhead]
    rfl
  · rw [hvalue, List.getLast?_reverse]
    exact head?_dropWhile_quotes _

theorem unquote_eq_iff {label value : String} :
    unquote label = value ↔ Unquotes label value := by
  constructor
  · intro h
    rw [← h]
    exact unquotes_unquote label
  · intro h
    rcases h with ⟨⟨opening, closing, hlabel⟩, hhead, hlast⟩
    have htrim : ((label.toList.dropWhile (· == '"')).reverse.dropWhile
        (· == '"')).reverse = value.toList := by
      by_cases hnil : value.toList = []
      · rw [hlabel, hnil, List.append_nil, List.replicate_append_replicate,
          ← List.append_nil (List.replicate _ _), dropWhile_quotes _ (by simp)]
        rfl
      · have hopening : (value.toList ++ List.replicate closing '"').head? ≠ some '"' := by
          rwa [List.head?_append_of_ne_nil _ hnil]
        have hclosing : value.toList.reverse.head? ≠ some '"' := by
          rwa [List.head?_reverse]
        rw [hlabel, List.append_assoc, dropWhile_quotes opening hopening,
          List.reverse_append, List.reverse_replicate, dropWhile_quotes closing hclosing,
          List.reverse_reverse]
    rw [unquote, htrim, String.ofList_toList]

end Item

/-!
# The catalog that the data of an item select
-/

inductive Json.Spells (name : String) : Json → Prop where
  | plain : Spells name (.str name)
  | keyed : Spells name (.obj [(name, .null)])

theorem Json.asCase?_eq_some_iff {value : Json} {name : String} :
    value.asCase? = some name ↔ Spells name value := by
  constructor
  · intro h
    unfold asCase? at h
    split at h
    · cases h
      exact .plain
    · cases h
      exact .keyed
    · cases h
  · intro h
    cases h with
    | plain =>
        rfl
    | keyed =>
        rfl

namespace Origin

inductive NamedBy (origin : Origin) : Json → Prop where
  | field {fields : Json.Fields} {value : Json} :
      fields.lookup "catalog" = some value → Json.Spells origin.name value →
      NamedBy origin (.obj fields)
  | element {value : Json} :
      Json.Spells origin.name value → NamedBy origin (.arr [value])

/-- The origin that data select; data that name none select the commands. -/
inductive Selected : Option Json → Origin → Prop where
  | named {value : Json} {origin : Origin} :
      origin.NamedBy value → Selected (some value) origin
  | absent : Selected none .command
  | unreadable {value : Json} :
      (∀ origin : Origin, ¬ origin.NamedBy value) → Selected (some value) .command

theorem ofName?_eq_some_iff {name : String} {origin : Origin} :
    ofName? name = some origin ↔ name = origin.name := by
  constructor
  · intro h
    unfold ofName? at h
    split at h
    · cases h
      rfl
    · cases h
      rfl
    · cases h
      rfl
    · cases h
  · intro h
    rw [h]
    cases origin <;> rfl

theorem bind_asCase?_eq_some_iff {value : Json} {origin : Origin} :
    value.asCase?.bind ofName? = some origin ↔ Json.Spells origin.name value := by
  rw [Option.bind_eq_some_iff]
  constructor
  · intro h
    rcases h with ⟨name, hcase, hname⟩
    rw [ofName?_eq_some_iff.mp hname] at hcase
    exact Json.asCase?_eq_some_iff.mp hcase
  · intro h
    exact ⟨origin.name, Json.asCase?_eq_some_iff.mpr h, ofName?_eq_some_iff.mpr rfl⟩

theorem ofJson?_eq_some_iff {value : Json} {origin : Origin} :
    ofJson? value = some origin ↔ origin.NamedBy value := by
  cases value with
  | obj fields =>
      have hread : ofJson? (.obj fields) =
          (fields.lookup "catalog").bind fun value => value.asCase?.bind ofName? :=
        Option.bind_assoc _ _ _
      rw [hread, Option.bind_eq_some_iff]
      constructor
      · intro h
        rcases h with ⟨value, hfield, hvalue⟩
        exact .field hfield (bind_asCase?_eq_some_iff.mp hvalue)
      · intro h
        cases h with
        | field hfield hvalue =>
            exact ⟨_, hfield, bind_asCase?_eq_some_iff.mpr hvalue⟩
  | arr elements =>
      match elements with
      | [value] =>
          have hread : ofJson? (.arr [value]) = value.asCase?.bind ofName? :=
            rfl
          rw [hread, bind_asCase?_eq_some_iff]
          constructor
          · intro h
            exact .element h
          · intro h
            cases h with
            | element hvalue =>
                exact hvalue
      | [] =>
          constructor
          · intro h
            cases h
          · intro h
            cases h
      | first :: second :: rest =>
          have hread : ofJson? (.arr (first :: second :: rest)) = none :=
            rfl
          rw [hread]
          constructor
          · intro h
            cases h
          · intro h
            cases h
  | _ =>
      constructor
      · intro h
        cases h
      · intro h
        cases h

theorem selected_iff {data : Option Json} {origin : Origin} :
    Selected data origin ↔ (data.bind ofJson?).getD .command = origin := by
  cases data with
  | none =>
      constructor
      · intro h
        cases h
        rfl
      · intro h
        cases h
        exact .absent
  | some value =>
      rw [Option.bind_some]
      cases hread : ofJson? value with
      | some other =>
          have hnamed := ofJson?_eq_some_iff.mp hread
          rw [Option.getD_some]
          constructor
          · intro h
            cases h with
            | named horigin =>
                rw [ofJson?_eq_some_iff.mpr horigin, Option.some.injEq] at hread
                exact hread.symm
            | unreadable hnone =>
                exact absurd hnamed (hnone other)
          · intro h
            cases h
            exact .named hnamed
      | none =>
          have hnone : ∀ other : Origin, ¬ other.NamedBy value := by
            intro other hother
            rw [ofJson?_eq_some_iff.mpr hother] at hread
            cases hread
          rw [Option.getD_none]
          constructor
          · intro h
            cases h with
            | named horigin =>
                exact absurd horigin (hnone origin)
            | unreadable _ =>
                rfl
          · intro h
            cases h
            exact .unreadable hnone

end Origin

/-!
# Entries
-/

inductive Entry where
  | command (entry : Command)
  | value (entry : ArgumentValue)

namespace Entry

def key : Entry → String
  | .command entry => entry.keyword
  | .value entry => entry.value

def detail : Entry → String
  | .command entry => entry.usage
  | .value entry => entry.detail

def documentation : Entry → Option Documentation
  | .command entry => some (Item.describe entry.description)
  | .value entry => entry.description.map Item.describe

def candidate (origin : Origin) (caret : Position) : Entry → Item
  | .command entry => Item.ofCommandAt caret entry
  | .value entry => Item.ofArgumentValue origin entry

end Entry

namespace Origin

def entries : Origin → List Entry
  | .command => Vocabulary.commands.entries.map .command
  | .browser => Vocabulary.browsers.entries.map .value
  | .feature => Vocabulary.features.entries.map .value

/-- Whether a label belongs to a key: that of a command is the key itself, that of a
value has the key between quotes. -/
def Labels : Origin → String → String → Prop
  | .command, key, label => label = key
  | .browser, key, label => Item.Unquotes label key
  | .feature, key, label => Item.Unquotes label key

def find? : Origin → String → Option Entry
  | .command, label => (Vocabulary.commands.find? label).map .command
  | .browser, label => (Vocabulary.browsers.find? (Item.unquote label)).map .value
  | .feature, label => (Vocabulary.features.find? (Item.unquote label)).map .value

theorem map_find?_eq_some_iff {α : Type} [CatalogEntry α] {catalog : Catalog α}
    {wrap : α → Entry} (hwrap : ∀ entry, (wrap entry).key = CatalogEntry.key entry)
    {word : String} {entry : Entry} :
    (catalog.find? word).map wrap = some entry ↔
      entry ∈ catalog.entries.map wrap ∧ entry.key = word := by
  rw [Option.map_eq_some_iff, List.mem_map]
  constructor
  · intro h
    rcases h with ⟨found, hfind, rfl⟩
    rcases Catalog.find?_eq_some_iff.mp hfind with ⟨hmem, hkey⟩
    exact ⟨⟨found, hmem, rfl⟩, (hwrap found).trans hkey⟩
  · intro h
    rcases h with ⟨⟨found, hmem, rfl⟩, hkey⟩
    exact ⟨found, Catalog.find?_eq_some_iff.mpr ⟨hmem, (hwrap found).symm.trans hkey⟩, rfl⟩

theorem find?_eq_some_iff {origin : Origin} {label : String} {entry : Entry} :
    origin.find? label = some entry ↔
      entry ∈ origin.entries ∧ origin.Labels entry.key label := by
  have hunquote : entry.key = Item.unquote label ↔ Item.Unquotes label entry.key := by
    rw [eq_comm]
    exact Item.unquote_eq_iff
  cases origin with
  | command =>
      rw [find?, map_find?_eq_some_iff fun _ => rfl, eq_comm]
      rfl
  | browser =>
      rw [find?, map_find?_eq_some_iff fun _ => rfl, hunquote]
      rfl
  | feature =>
      rw [find?, map_find?_eq_some_iff fun _ => rfl, hunquote]
      rfl

theorem find?_eq_none_iff {origin : Origin} {label : String} :
    origin.find? label = none ↔
      ∀ entry ∈ origin.entries, ¬ origin.Labels entry.key label := by
  rw [Option.eq_none_iff_forall_ne_some]
  constructor
  · intro h entry hmem hlabel
    exact h entry (find?_eq_some_iff.mpr ⟨hmem, hlabel⟩)
  · intro h entry hfind
    rcases find?_eq_some_iff.mp hfind with ⟨hmem, hlabel⟩
    exact h entry hmem hlabel

end Origin

/-!
# Resolving an item
-/

namespace Item

def describedBy (item : Item) (entry : Entry) : Item :=
  { item with detail := some entry.detail, documentation := entry.documentation }

theorem resolveIn_eq (catalog : Catalog ArgumentValue) (item : Item) :
    item.resolveIn catalog =
      match (catalog.find? (unquote item.label)).map Entry.value with
      | none => item
      | some entry => item.describedBy entry := by
  unfold resolveIn
  cases catalog.find? (unquote item.label) <;> rfl

theorem resolve_eq (item : Item) :
    item.resolve =
      match item.origin.find? item.label with
      | none => item
      | some entry => item.describedBy entry := by
  unfold resolve
  cases item.origin with
  | command =>
      rw [Origin.find?]
      cases Vocabulary.commands.find? item.label <;> rfl
  | browser =>
      rw [Origin.find?]
      exact resolveIn_eq Vocabulary.browsers item
  | feature =>
      rw [Origin.find?]
      exact resolveIn_eq Vocabulary.features item

/-- An item is described by the one entry that its label belongs to, or stays as it is
if there is none. -/
theorem resolve_cases (item : Item) :
    (∃ entry, item.origin.find? item.label = some entry ∧
        item.resolve = item.describedBy entry) ∨
      item.origin.find? item.label = none ∧ item.resolve = item := by
  rw [resolve_eq]
  cases hfind : item.origin.find? item.label with
  | none =>
      exact Or.inr ⟨rfl, rfl⟩
  | some entry =>
      exact Or.inl ⟨entry, rfl, rfl⟩

theorem resolve_of_find? {item : Item} {entry : Entry}
    (h : item.origin.find? item.label = some entry) :
    item.resolve = item.describedBy entry := by
  rw [resolve_eq, h]

theorem resolve_resolve (item : Item) : item.resolve.resolve = item.resolve := by
  rcases item.resolve_cases with ⟨entry, hfind, hresolve⟩ | ⟨_, hresolve⟩
  · -- the details are not what an entry is looked up by
    have hagain : (item.describedBy entry).resolve =
        (item.describedBy entry).describedBy entry :=
      resolve_of_find? hfind
    rw [hresolve, hagain]
    rfl
  · rw [hresolve, hresolve]

theorem resolve_keeps (item : Item) :
    item.resolve =
      { item with
        detail := item.resolve.detail
        documentation := item.resolve.documentation } := by
  rcases item.resolve_cases with ⟨entry, _, hresolve⟩ | ⟨_, hresolve⟩
  · rw [hresolve]
    rfl
  · rw [hresolve]

end Item

/-!
# Candidates
-/

namespace Item

theorem data_ofCommandAt (caret : Position) (command : Command) :
    (ofCommandAt caret command).data = some Origin.command.toJson := by
  rw [ofCommandAt]
  split <;> rfl

theorem origin_of_data {item : Item} {origin : Origin}
    (h : item.data = some origin.toJson) : item.origin = origin := by
  have hread : Origin.ofJson? origin.toJson = some origin :=
    Origin.ofJson?_eq_some_iff.mpr (.field rfl .plain)
  rw [Item.origin, h, Option.bind_some, hread]
  rfl

theorem unquotes_label {entry : ArgumentValue}
    (h : entry ∈ Vocabulary.browsers.entries ++ Vocabulary.features.entries) :
    Unquotes entry.label entry.value := by
  have hvalues : ∀ entry ∈ Vocabulary.browsers.entries ++ Vocabulary.features.entries,
      entry.value.toList.head? ≠ some '"' ∧ entry.value.toList.getLast? ≠ some '"' := by
    decide +kernel
  refine ⟨⟨1, 1, ?_⟩, hvalues entry h⟩
  rw [ArgumentValue.label, String.toList_append, String.toList_append]
  rfl

end Item

namespace Entry

theorem candidate_leads_back {origin : Origin} {entry : Entry} (h : entry ∈ origin.entries)
    (caret : Position) :
    (entry.candidate origin caret).origin = origin ∧
      origin.Labels entry.key (entry.candidate origin caret).label := by
  cases origin with
  | command =>
      rcases List.mem_map.mp h with ⟨command, _, rfl⟩
      exact ⟨Item.origin_of_data (Item.data_ofCommandAt caret command),
        Script.label_ofCommandAt caret command⟩
  | browser =>
      rcases List.mem_map.mp h with ⟨value, hmem, rfl⟩
      exact ⟨Item.origin_of_data rfl, Item.unquotes_label (List.mem_append_left _ hmem)⟩
  | feature =>
      rcases List.mem_map.mp h with ⟨value, hmem, rfl⟩
      exact ⟨Item.origin_of_data rfl, Item.unquotes_label (List.mem_append_right _ hmem)⟩

theorem resolve_candidate {origin : Origin} {entry : Entry} (h : entry ∈ origin.entries)
    (caret : Position) :
    (entry.candidate origin caret).resolve =
      (entry.candidate origin caret).describedBy entry := by
  rcases candidate_leads_back h caret with ⟨horigin, hlabel⟩
  apply Item.resolve_of_find?
  rw [horigin]
  exact Origin.find?_eq_some_iff.mpr ⟨h, hlabel⟩

end Entry

theorem Context.candidates_eq (context : Context) (caret : Position) :
    context.candidates caret = [] ∨
      ∃ origin : Origin,
        context.candidates caret = origin.entries.map (Entry.candidate origin caret) := by
  cases context with
  | topLevel =>
      refine Or.inr ⟨.command, ?_⟩
      rw [Origin.entries, List.map_map]
      rfl
  | argumentOf command =>
      by_cases hbrowser : command = Vocabulary.browserCommand
      · refine Or.inr ⟨.browser, ?_⟩
        rw [hbrowser, Origin.entries, List.map_map]
        rfl
      · by_cases hfeature : command = Vocabulary.featureCommand
        · refine Or.inr ⟨.feature, ?_⟩
          rw [hfeature, Origin.entries, List.map_map]
          rfl
        · left
          simp only [candidates, Vocabulary.argumentsOf?, if_neg hbrowser, if_neg hfeature]
  | noSuggestion =>
      exact Or.inl rfl

theorem Script.exists_entry_of_completion {text : Text} {caret : Position} {number : Nat}
    {item : Item} (h : (completions text caret)[number]? = some item) :
    ∃ (origin : Origin) (entry : Entry), origin.entries[number]? = some entry ∧
      item = entry.candidate origin caret := by
  unfold completions at h
  split at h
  · cases h
  · next line _ =>
      rcases (Context.classify line).candidates_eq caret with hnil | ⟨origin, hentries⟩
      · rw [hnil] at h
        cases h
      · rw [hentries, List.getElem?_map] at h
        rcases Option.map_eq_some_iff.mp h with ⟨entry, hentry, hitem⟩
        exact ⟨origin, entry, hentry, hitem.symm⟩

namespace Item

/-- To resolve an item twice is to resolve it once, and only its detail and its
documentation can change.  Its data select one catalog; if its label belongs to an entry
there, the item is described by that entry, and otherwise it stays as it is.  Each
candidate at a caret is described by the entry that it was made from. -/
theorem resolve_exact :
    (∀ item : Item,
      item.resolve.resolve = item.resolve ∧
      item.resolve =
        { item with
          detail := item.resolve.detail
          documentation := item.resolve.documentation } ∧
      ∃ origin : Origin, (∀ other, Origin.Selected item.data other ↔ other = origin) ∧
        ((∃ entry ∈ origin.entries, origin.Labels entry.key item.label ∧
            item.resolve = item.describedBy entry) ∨
          (∀ entry ∈ origin.entries, ¬ origin.Labels entry.key item.label) ∧
            item.resolve = item)) ∧
      ∀ (text : Text) (caret : Position) (number : Nat) (item : Item),
        (Script.completions text caret)[number]? = some item →
          ∃ (origin : Origin) (entry : Entry), origin.entries[number]? = some entry ∧
            item = entry.candidate origin caret ∧
            item.resolve = item.describedBy entry := by
  constructor
  · intro item
    refine ⟨item.resolve_resolve, item.resolve_keeps, item.origin, ?_, ?_⟩
    · intro other
      rw [Origin.selected_iff, eq_comm]
      rfl
    · rcases item.resolve_cases with ⟨entry, hfind, hresolve⟩ | ⟨hfind, hresolve⟩
      · rcases Origin.find?_eq_some_iff.mp hfind with ⟨hmem, hlabel⟩
        exact Or.inl ⟨entry, hmem, hlabel, hresolve⟩
      · exact Or.inr ⟨Origin.find?_eq_none_iff.mp hfind, hresolve⟩
  · intro text caret number item hitem
    rcases Script.exists_entry_of_completion hitem with ⟨origin, entry, hentry, rfl⟩
    exact ⟨origin, entry, hentry, rfl,
      Entry.resolve_candidate (List.mem_of_getElem? hentry) caret⟩

-- The third value of an argument, as it is suggested in a script.
def proxyCandidate : Item :=
  { label := "\"use-http-proxy\""
    kind := some 15
    insertText := some "use-http-proxy\" \"$\x7b1:USER:PASS@IP:PORT\x7d"
    insertTextFormat := some 2
    data := some (.obj [("catalog", .str "feature")]) }

theorem resolve_exact_proxy :
    (Script.completions "feature \"".toList ⟨0, 9⟩)[2]? = some proxyCandidate ∧
      ∃ (origin : Origin) (entry : Entry), origin.entries[2]? = some entry ∧
        proxyCandidate = entry.candidate origin ⟨0, 9⟩ ∧
        proxyCandidate.resolve = proxyCandidate.describedBy entry ∧
        proxyCandidate.resolve.detail = some "HTTP Proxy with Args" := by
  have hitem : (Script.completions "feature \"".toList ⟨0, 9⟩)[2]? = some proxyCandidate :=
    rfl
  rcases resolve_exact.2 _ _ 2 _ hitem with ⟨origin, entry, hentry, hcandidate, hresolve⟩
  exact ⟨hitem, origin, entry, hentry, hcandidate, hresolve, rfl⟩

-- a value without a description takes an older documentation away
example :
    let item : Item :=
      { label := "\"\"disable-ssl\""
        documentation := some (.text "old")
        data := some (.arr [.obj [("feature", .null)]]) }
    item.resolve =
      { item with detail := some "Disable SSL Validation", documentation := none } :=
  rfl

end Item
end ScriptAssist
