import TypeScriptGen.Document.File
import TypeScriptGen.Proofs.Document.Reloading
import TypeScriptGen.Proofs.Json.RoundTrip

/-!
# The saved form of a configuration

A configuration that was made from JSON data holds JSON data: the keys of its
extra entries are texts, null, truth values or numbers, for a list of pairs may
give any of them. What is written for it is read as a configuration with the same
options and fields, unless an extra entry has a name that is kept for a field; its
extra entries come back with the texts of their keys. Only a ragged text keeps it
from being written.
-/

namespace TypeScriptGen

open Json (isJsonData keyText keyName)

namespace Configuration

open Metadata (generatorKey timeKey timeTag projectKey extraKey)

/-! ## Configurations made from JSON data -/

/-- JSON data that can be a key. -/
def IsJsonKey (key : Value) : Prop := isJsonData key = true ∧ key.isHashable = true

/-- An entry of a table that was made from JSON data. -/
def IsJsonEntry (entry : Value × Value) : Prop := IsJsonKey entry.1 ∧ isJsonData entry.2 = true

theorem isJsonKey_of_isText {key : Value} (text : key.IsText) : IsJsonKey key := by
  rcases Value.isText_iff.mp text with ⟨content, rfl⟩ | ⟨content, rfl⟩ <;> exact ⟨rfl, rfl⟩

theorem isJsonData_of_elements {value : Value} {items : List Value}
    (data : isJsonData value = true) (walked : value.elements? = some items) :
    ∀ item ∈ items, isJsonData item = true := by
  cases value with
  | text _ | ragged _ =>
      intro item member
      exact Json.isJsonData_of_isText (Value.isText_of_elements? ⟨_, rfl⟩ walked item member)
  | list items =>
      cases walked
      exact Json.isJsonData_list.mp data
  | table entries =>
      cases walked
      intro item member
      obtain ⟨entry, among, rfl⟩ := List.mem_map.mp member
      exact Json.isJsonData_of_isText ((Json.isJsonData_table.mp data).2 entry among).1
  | tuple _ => cases data
  | _ => cases walked

theorem inherited_isJsonData : Inherited IsJsonKey fun value => isJsonData value = true where
  null := rfl
  text _ := rfl
  elements := isJsonData_of_elements
  table data := by
    obtain ⟨lawful, parts⟩ := Json.isJsonData_table.mp data
    refine ⟨lawful, fun entry member => ?_⟩
    obtain ⟨text, own⟩ := parts entry member
    exact ⟨isJsonKey_of_isText text, own⟩
  key data hashable := ⟨data, hashable⟩

theorem isJsonData_of_merged {overrides : Value} {options : SectionOptions}
    (data : isJsonData overrides = true)
    (merged : SectionOptions.standard.merged overrides = .ok options) :
    ∀ field, isJsonData (options.get field) = true := by
  have standard (field : OptionField) : isJsonData (SectionOptions.standard.get field) = true := by
    cases field <;> rfl
  obtain ⟨_, rfl | ⟨entries, rfl, rfl⟩⟩ := SectionOptions.standard_merged_cases merged
  · exact standard
  · exact SectionOptions.forall_setEntries (fun _ value => isJsonData value = true) standard
      fun entry member _ _ _ => ((Json.isJsonData_table.mp data).2 entry member).2

/-- A configuration that was made from JSON data. -/
structure IsJson (configuration : Configuration) (extra : Table) : Prop where
  settled : configuration.defaults.Settled
  options : ∀ field, isJsonData (configuration.defaults.get field) = true
  fields : EachField (fun value => isJsonData value = true) configuration.metadata
  held : configuration.metadata.extra = .table extra
  lawful : Table.Lawful extra
  entries : ∀ entry ∈ extra, IsJsonEntry entry

theorem isJson_of_ofValue {now : Calendar.Moment} {value : Value} {configuration : Configuration}
    (data : isJsonData value = true) (made : ofValue now value = .ok configuration) :
    ∃ extra, configuration.IsJson extra := by
  obtain ⟨fields, extra, held, lawful, parts⟩ := inherited_isJsonData.configuration data made
  obtain ⟨entries, _, rfl, merged, _, _⟩ := ofValue_cases made
  have overrides : isJsonData (if (entryOf entries defaultsKey).isTruthy then
      entryOf entries defaultsKey else .table []) = true := by
    split
    · exact inherited_isJsonData.entryOf (inherited_isJsonData.table data).2 _
    · rfl
  exact ⟨extra, SectionOptions.settled_of_merged merged, isJsonData_of_merged overrides merged,
    fields, held, lawful, parts⟩

/-! ## What is saved -/

/-- An extra entry as it comes back: its key is a text. -/
def keyed (entry : Value × Value) : Value × Value := (.text (keyName entry.1), entry.2)

variable {configuration : Configuration} {extra : Table}

/-- Only the text of a reserved name is written as this name. -/
theorem keyName_ne_reserved {key : Value} (own : IsJsonKey key) {name : Text}
    (reserved : name ∈ reservedNames) (other : key.same (.text name) = false) :
    keyName key ≠ name := by
  obtain ⟨data, hashable⟩ := own
  cases key with
  | null =>
      rintro rfl
      revert reserved
      decide
  | bool flag =>
      rintro rfl
      revert reserved
      cases flag <;> decide
  | int number =>
      have starts : ∀ name ∈ reservedNames,
          (name.head?.any fun c => c.isDigit || c == '-') = false := by decide
      have small : Decimal.isOversize number = false := by
        rw [isJsonData, Bool.not_eq_true'] at data
        exact data
      have written : keyName (.int number) = Decimal.wholeText number := by
        rw [keyName, keyText, small]
        rfl
      obtain ⟨c, more, form, first⟩ := Decimal.wholeText_eq_cons number
      rintro rfl
      have other := starts _ reserved
      rw [written, form, List.head?_cons, Option.any_some, Bool.or_eq_false_iff] at other
      rcases first with digit | rfl
      · rw [digit] at other
        cases other.1
      · cases other.2
  | text content =>
      have named : keyName (.text content) = content := rfl
      rintro rfl
      have same := (Value.same_text _ _).mpr (congrArg Value.text named.symm)
      exact Bool.false_ne_true (other.symm.trans same)
  | ragged content =>
      have named : keyName (.ragged content) = [] := rfl
      rw [named]
      rintro rfl
      revert reserved
      decide
  | list _ => cases hashable
  | table _ => cases hashable
  | _ => cases data

/-- A text in the options or the metadata is ragged. -/
def holdsRagged (configuration : Configuration) : Bool :=
  Value.entryRagged configuration.defaults.entries ||
    (configuration.metadata.generator.holdsRagged ||
      configuration.metadata.generatedAt.holdsRagged ||
      configuration.metadata.project.holdsRagged || configuration.metadata.extra.holdsRagged)

/-- The metadata of a configuration as they are saved. -/
def savedEntries (configuration : Configuration) (extra : Table) : Table :=
  fieldTable configuration.metadata.generator configuration.metadata.generatedAt
    configuration.metadata.project ++ extra

/-- A configuration as it is saved. -/
def savedForm (configuration : Configuration) (extra : Table) : Table :=
  [(.text defaultsKey, .table configuration.defaults.entries),
    (.text metadataKey, .table (configuration.savedEntries extra))]

/-- Without entries of reserved names, the metadata are saved as the fields and the extra entries
behind them. -/
theorem IsJson.entries_eq (json : configuration.IsJson extra)
    (plain : ∀ name ∈ reservedNames, Table.field? extra name = none) :
    configuration.entries = .ok (configuration.savedForm extra) := by
  have saved : savedTime configuration.metadata = .ok configuration.metadata.generatedAt := by
    have data := json.fields.2.1
    rw [savedTime]
    cases same : configuration.metadata.generatedAt with
    | moment date =>
        rw [same] at data
        cases data
    | _ => rfl
  have fixed : ∀ name ∈ fixedKeys, name ∈ reservedNames := by decide
  have apart : ∀ entry ∈ extra, ∀ name ∈ fixedKeys, entry.1.same (.text name) = false :=
    fun entry member name among =>
      Table.field?_eq_none_iff.mp (plain name (fixed name among)) entry member
  have joined : Table.insertAll (fieldTable configuration.metadata.generator
      configuration.metadata.generatedAt configuration.metadata.project) extra = _ :=
    insertAll_fieldTable apart
  rw [Table.ofList_of_lawful json.lawful] at joined
  rw [Configuration.entries, bind_ok (metadata_entries_eq saved json.held), joined]
  rfl

/-- The options of a configuration made from JSON data are JSON data. -/
theorem IsJson.options_entries (json : configuration.IsJson extra) :
    isJsonData (.table configuration.defaults.entries) = true := by
  refine Json.isJsonData_table.mpr ⟨?_, ?_⟩
  · have apart : (OptionField.names.map Value.text).Pairwise
        fun first second => first.same second = false := by decide
    rw [Table.lawful_iff_keys, SectionOptions.keys_entries]
    exact apart
  · intro entry member
    obtain ⟨field, _, rfl⟩ := List.mem_map.mp member
    exact ⟨⟨_, rfl⟩, json.options field⟩

/-- Of the keys that JSON data may give, only a ragged one is not written. -/
theorem keyFailure_of_isJsonKey {key : Value} (own : IsJsonKey key) :
    Json.keyFailure key = Json.tornFailure key.holdsRagged := by
  obtain ⟨data, hashable⟩ := own
  cases key with
  | int number => exact (Json.keyFailure_int number).trans (Json.writeFailure_of_isJsonData _ data)
  | bool flag => cases flag <;> rfl
  | null | text _ | ragged _ => rfl
  | list _ | table _ => cases hashable
  | _ => cases data

/-- A JSON entry comes back with the text of its key. -/
theorem rereadEntry_eq {entry : Value × Value} (own : IsJsonEntry entry)
    (whole : entry.2.holdsRagged = false) : Json.rereadEntry entry = keyed entry := by
  rw [Json.rereadEntry, (Json.writable_of_isJsonData _ own.2 whole).2]
  rfl

/-- None of the extra entries comes back under a reserved name. -/
theorem IsJson.keyed_apart (json : configuration.IsJson extra)
    (plain : ∀ name ∈ reservedNames, Table.field? extra name = none) :
    ∀ entry ∈ extra.map keyed, ∀ name ∈ reservedNames, entry.1.same (.text name) = false := by
  intro entry member name reserved
  obtain ⟨old, among, rfl⟩ := List.mem_map.mp member
  have other := Table.field?_eq_none_iff.mp (plain name reserved) old among
  have apart := keyName_ne_reserved (json.entries old among).1 reserved other
  rw [keyed, Bool.eq_false_iff, Ne, Value.same_text, Value.text.injEq]
  exact apart

theorem IsJson.savedEntries_isJson (json : configuration.IsJson extra) :
    ∀ entry ∈ configuration.savedEntries extra, IsJsonEntry entry := by
  obtain ⟨generator, time, project⟩ := json.fields
  refine List.forall_mem_append.mpr ⟨fun entry member => ?_, json.entries⟩
  simp only [fieldTable, List.mem_cons, List.not_mem_nil, or_false] at member
  rcases member with rfl | rfl | rfl
  · exact ⟨⟨rfl, rfl⟩, generator⟩
  · exact ⟨⟨rfl, rfl⟩, time⟩
  · exact ⟨⟨rfl, rfl⟩, project⟩

theorem IsJson.holdsRagged_eq (json : configuration.IsJson extra) :
    configuration.holdsRagged = (Value.entryRagged configuration.defaults.entries ||
      Value.entryRagged (configuration.savedEntries extra)) := by
  rw [holdsRagged, json.held, savedEntries, Value.entryRagged_append]
  simp only [fieldTable, Value.entryRagged, Value.holdsRagged, Bool.false_or, Bool.or_false,
    Bool.or_assoc]

/-- A ragged text is all that keeps a configuration from JSON data from being written. -/
theorem IsJson.failure_output (json : configuration.IsJson extra)
    (plain : ∀ name ∈ reservedNames, Table.field? extra name = none) :
    configuration.output.failure = Json.tornFailure configuration.holdsRagged := by
  have metadata : Json.entryFailure (configuration.savedEntries extra) =
      Json.tornFailure (Value.entryRagged (configuration.savedEntries extra)) :=
    Json.entryFailure_eq_torn fun entry member =>
      have own := json.savedEntries_isJson entry member
      ⟨keyFailure_of_isJsonKey own.1, Json.writeFailure_of_isJsonData _ own.2⟩
  have options : Json.writeFailure (.table configuration.defaults.entries) =
      Json.tornFailure (Value.entryRagged configuration.defaults.entries) :=
    Json.writeFailure_of_isJsonData _ json.options_entries
  rw [output, json.entries_eq plain]
  calc (Json.write (.table (configuration.savedForm extra))).failure
      = Json.entryFailure (configuration.savedForm extra) := Json.failure_writeValue 0 [] _
    _ = (Json.writeFailure (.table configuration.defaults.entries)).or
          ((Json.entryFailure (configuration.savedEntries extra)).or none) := rfl
    _ = Json.tornFailure configuration.holdsRagged := by
        rw [Option.or_none, options, metadata, Json.tornFailure_or, json.holdsRagged_eq]

/-! ## What is read back -/

/-- The metadata of a configuration from JSON data without ragged texts are written, and come back
with the texts of the keys of extra entries. -/
theorem IsJson.reread_metadata (json : configuration.IsJson extra)
    (plain : ∀ name ∈ reservedNames, Table.field? extra name = none)
    (whole : Value.entryRagged (configuration.savedEntries extra) = false) :
    Json.isWritable (.table (configuration.savedEntries extra)) = true ∧
      Json.reread (.table (configuration.savedEntries extra)) =
        .table (configuration.savedEntries (Table.ofList (extra.map keyed))) := by
  have all := json.savedEntries_isJson
  have untorn := Value.entryRagged_eq_false_iff.mp whole
  refine ⟨Json.isWritable_table.mpr fun entry member => ?_, ?_⟩
  · have written : Json.keyFailure entry.1 = none := by
      rw [keyFailure_of_isJsonKey (all entry member).1, (untorn entry member).1]
      rfl
    exact ⟨Json.isOk_keyText written,
      (Json.writable_of_isJsonData _ (all entry member).2 (untorn entry member).2).1⟩
  · have kept : (fieldTable configuration.metadata.generator configuration.metadata.generatedAt
        configuration.metadata.project).map keyed = fieldTable configuration.metadata.generator
        configuration.metadata.generatedAt configuration.metadata.project := rfl
    have fixed : ∀ name ∈ fixedKeys, name ∈ reservedNames := by decide
    rw [Json.reread, Json.rereadEntries_eq, List.map_congr_left fun entry member =>
      rereadEntry_eq (all entry member) (untorn entry member).2, savedEntries, List.map_append,
      kept, Table.ofList_append, Table.ofList_of_lawful lawful_fieldTable, insertAll_fieldTable]
    · rfl
    · exact fun entry member name among =>
        json.keyed_apart plain entry member name (fixed name among)

/-- A configuration from JSON data without reserved names among its extra entries, and without
ragged texts, is written, and what is written is read as a configuration with the same options and
fields. Its extra entries have texts for keys. -/
theorem IsJson.ofText_output (json : configuration.IsJson extra)
    (plain : ∀ name ∈ reservedNames, Table.field? extra name = none)
    (whole : configuration.holdsRagged = false) {later : Calendar.Moment} {stamp : Text}
    (present : Timestamp.ofMoment later = .ok stamp) :
    ∃ text, configuration.output = .ofText text ∧ ∀ path, ofText later path text =
      .ok { configuration with metadata := { configuration.metadata with
        extra := .table (Table.ofList (extra.map keyed)) } } := by
  rw [json.holdsRagged_eq, Bool.or_eq_false_iff] at whole
  obtain ⟨writable, reread⟩ := json.reread_metadata plain whole.2
  have options := Json.writable_of_isJsonData _ json.options_entries whole.1
  have apart : ∀ entry ∈ Table.ofList (extra.map keyed),
      (∀ name ∈ reservedNames, entry.1.same (.text name) = false) ∧ True :=
    Table.forall_insertAll (fun key => ∀ name ∈ reservedNames, key.same (.text name) = false)
      (fun _ => True) (fun _ member => absurd member List.not_mem_nil)
      fun entry member => ⟨json.keyed_apart plain entry member, trivial⟩
  have read := ofValue_entries json.settled (readMetadata_plain present
    configuration.metadata.generator configuration.metadata.generatedAt
    configuration.metadata.project (Table.lawful_ofList (extra.map keyed))
    fun entry member => (apart entry member).1)
  -- The two entries of the whole table are written, and come back one by one.
  have whole : Json.isWritable (.table (configuration.savedForm extra)) = true :=
    Json.isWritable_table.mpr fun entry member => by
      simp only [savedForm, List.mem_cons, List.not_mem_nil, or_false] at member
      rcases member with rfl | rfl
      · exact ⟨rfl, options.1⟩
      · exact ⟨rfl, writable⟩
  obtain ⟨text, written, found⟩ := Json.read_write whole
  have back : Json.reread (.table (configuration.savedForm extra)) =
      .table (configuration.savedForm (Table.ofList (extra.map keyed))) := by
    rw [Json.reread, Json.rereadEntries_eq, savedForm, List.map_cons, List.map_singleton,
      Json.rereadEntry, Json.rereadEntry, options.2, reread]
    rfl
  refine ⟨text, ?_, fun path => ?_⟩
  · rw [output, json.entries_eq plain]
    exact written
  · rw [ofText, found, back]
    exact read

end Configuration

end TypeScriptGen
