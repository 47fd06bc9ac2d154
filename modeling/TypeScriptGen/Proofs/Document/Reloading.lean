import TypeScriptGen.Document.Configuration
import TypeScriptGen.Proofs.Document.Defaults
import TypeScriptGen.Proofs.Value.Listed

/-!
# Configurations made from tables

A configuration that was made from a table consists of the options and metadata
that the two entries of the table give. Metadata are read entry by entry: those of
the four names go into the fields, all others among the extra entries.
-/

namespace TypeScriptGen

namespace Configuration

open Metadata (generatorKey timeKey timeTag projectKey extraKey)

/-! ## Reading metadata -/

/-- The key stands for one of the fields. -/
def isFieldKey : Value → Bool
  | .text name => name = generatorKey || name = timeKey || name = projectKey || name = timeTag
  | _ => false

/-- The names of the fields, and the tag of the time. -/
def fieldKeys : List Text := [generatorKey, timeKey, projectKey, timeTag]

theorem isFieldKey_eq (key : Value) : isFieldKey key = Table.isNamed fieldKeys key := by
  rw [Bool.eq_iff_iff, Table.isNamed, List.any_eq_true]
  simp only [Value.same_text]
  cases key with
  | text name => simp [isFieldKey, fieldKeys, or_assoc]
  | _ =>
      constructor
      · intro field
        cases field
      · rintro ⟨_, _, same⟩
        cases same

/-- The entries that become extra entries. -/
def others (entries : Table) : Table := entries.filter fun entry => !isFieldKey entry.1

theorem others_eq (entries : Table) : others entries = Table.without fieldKeys entries := by
  simp only [others, Table.without, isFieldKey_eq]

theorem addEntry_snd (state : Metadata × Table) (entry : Value × Value) :
    (addEntry state entry).2 =
      if isFieldKey entry.1 then state.2 else Table.insert state.2 entry.1 entry.2 := by
  obtain ⟨metadata, extra⟩ := state
  obtain ⟨key, value⟩ := entry
  cases key with
  | text name =>
      by_cases field : (name = generatorKey || name = timeKey || name = projectKey) = true
      · have own : isFieldKey (.text name) = true := by
          rw [isFieldKey, field, Bool.true_or]
        simp only [addEntry, field, own, if_true]
      · by_cases tag : name = timeTag
        · have own : isFieldKey (.text name) = true := by simp [isFieldKey, tag]
          simp only [addEntry, if_neg field, if_pos tag, own, if_true]
        · have own : isFieldKey (.text name) = false := by
            rw [isFieldKey, Bool.eq_false_iff.mpr field]
            simpa using tag
          simp only [addEntry, if_neg field, if_neg tag, own, Bool.false_eq_true, if_false]
  | _ => rfl

/-- The other entries come among the extra entries, in their order. -/
theorem foldl_addEntry_snd (state : Metadata × Table) (entries : Table) :
    (entries.foldl addEntry state).2 = Table.insertAll state.2 (others entries) := by
  induction entries generalizing state with
  | nil => rfl
  | cons entry entries ih =>
      rw [List.foldl_cons, ih, addEntry_snd, others, others, List.filter_cons]
      cases isFieldKey entry.1 <;> rfl

/-- An entry leaves the fields as they are, or sets one of them to its value. -/
theorem addEntry_fst (state : Metadata × Table) (entry : Value × Value) :
    (addEntry state entry).1 = state.1 ∨
      ∃ name, (addEntry state entry).1 = state.1.setNamed name entry.2 := by
  obtain ⟨metadata, extra⟩ := state
  obtain ⟨key, value⟩ := entry
  cases key with
  | text name =>
      by_cases field : (name = generatorKey || name = timeKey || name = projectKey) = true
      · exact .inr ⟨name, by simp only [addEntry, if_pos field]⟩
      by_cases tag : name = timeTag
      · exact .inr ⟨timeKey, by simp only [addEntry, if_neg field, if_pos tag]⟩
      · exact .inl (by simp only [addEntry, if_neg field, if_neg tag])
  | _ => exact .inl rfl

/-- Something holds of each of the three fields that are no table of entries. -/
def EachField (holds : Value → Prop) (metadata : Metadata) : Prop :=
  holds metadata.generator ∧ holds metadata.generatedAt ∧ holds metadata.project

theorem EachField.setNamed {holds : Value → Prop} {metadata : Metadata}
    (each : EachField holds metadata) {value : Value} (own : holds value) (name : Text) :
    EachField holds (metadata.setNamed name value) := by
  obtain ⟨generator, time, project⟩ := each
  unfold Metadata.setNamed
  split
  · exact ⟨own, time, project⟩
  split
  · exact ⟨generator, own, project⟩
  split
  · exact ⟨generator, time, own⟩
  split
  · exact ⟨generator, time, project⟩
  · exact ⟨generator, time, project⟩

theorem EachField.foldl_addEntry {holds : Value → Prop} {state : Metadata × Table}
    {entries : Table} (each : EachField holds state.1) (all : ∀ entry ∈ entries, holds entry.2) :
    EachField holds (entries.foldl addEntry state).1 := by
  induction entries generalizing state with
  | nil => exact each
  | cons entry entries ih =>
      refine ih ?_ fun other member => all other (List.mem_cons_of_mem entry member)
      rcases addEntry_fst state entry with kept | ⟨name, set⟩
      · rw [kept]
        exact each
      · rw [set]
        exact each.setNamed (all entry List.mem_cons_self) name

/-- The keys that set the generator, the time and the project. -/
def fixedKeys : List Text := [generatorKey, timeKey, projectKey]

/-- An entry with none of the three keys sets the time if it is under the tag of the time. -/
theorem addEntry_fst_eq (metadata : Metadata) (extra : Table) {key : Value} (value : Value)
    (absent : ∀ name ∈ fixedKeys, key.same (.text name) = false) :
    (addEntry (metadata, extra) (key, value)).1 =
      if key.same (.text timeTag) then { metadata with generatedAt := value } else metadata := by
  cases tag : key.same (.text timeTag) with
  | true =>
      rw [(Value.same_text _ _).mp tag]
      rfl
  | false =>
      cases key with
      | text name =>
          have other (known : Text) (apart : Value.same (.text name) (.text known) = false) :
              name ≠ known := by
            rintro rfl
            exact Bool.false_ne_true (apart.symm.trans ((Value.same_text _ _).mpr rfl))
          have field : ¬(name = generatorKey || name = timeKey || name = projectKey) = true := by
            simp only [Bool.or_eq_true, decide_eq_true_eq, not_or]
            exact ⟨⟨other _ (absent _ (by decide)), other _ (absent _ (by decide))⟩,
              other _ (absent _ (by decide))⟩
          simp only [addEntry, if_neg field, if_neg (other _ tag), Bool.false_eq_true, if_false]
      | _ => rfl

/-- Entries with none of the three keys set the time at most. -/
theorem foldl_addEntry_fst {entries : Table} (lawful : Table.Lawful entries)
    (absent : ∀ name ∈ fixedKeys, Table.field? entries name = none) (metadata : Metadata)
    (extra : Table) : (entries.foldl addEntry (metadata, extra)).1 =
      { metadata with
        generatedAt := (Table.field? entries timeTag).getD metadata.generatedAt } := by
  induction entries generalizing metadata extra with
  | nil => rfl
  | cons entry entries ih =>
      obtain ⟨key, value⟩ := entry
      have own : ∀ name ∈ fixedKeys, key.same (.text name) = false := fun name among =>
        Table.field?_eq_none_iff.mp (absent name among) _ List.mem_cons_self
      have later : ∀ name ∈ fixedKeys, Table.field? entries name = none := fun name among =>
        Table.field?_eq_none_iff.mpr fun other member =>
          Table.field?_eq_none_iff.mp (absent name among) other (List.mem_cons_of_mem _ member)
      have first := addEntry_fst_eq metadata extra value own
      rw [List.foldl_cons, ← Prod.eta (addEntry _ _), ih (List.pairwise_cons.mp lawful).2 later,
        first, Table.field?_cons]
      cases tag : key.same (.text timeTag) with
      | true =>
          rw [lawful.field?_tail tag]
          rfl
      | false => rfl

/-- Metadata are read into the fields and extra entries, from the present on. -/
theorem readMetadata_cases {now : Calendar.Moment} {fields : Table} {metadata : Metadata}
    (read : readMetadata now fields = .ok metadata) :
    ∃ stamp first, Timestamp.ofMoment now = .ok stamp ∧
      (entryOf fields extraKey).toTableOrEmpty = .ok first ∧
      metadata =
        let start : Metadata := ⟨.text Metadata.generatorName, .text stamp, .null, .table []⟩
        let result := (Table.erase fields (.text extraKey)).foldl addEntry (start, first)
        { result.1 with extra := .table result.2 } := by
  obtain ⟨start, standard, read⟩ := exists_of_bind_ok read
  obtain ⟨stamp, present, standard⟩ := exists_of_bind_ok standard
  obtain ⟨first, found, read⟩ := exists_of_bind_ok read
  cases standard
  cases read
  exact ⟨stamp, first, present, found, rfl⟩

/-- A configuration is made of a table's entries for the options and for the metadata. -/
theorem ofValue_cases {now : Calendar.Moment} {value : Value} {configuration : Configuration}
    (made : ofValue now value = .ok configuration) :
    ∃ entries fields, value = .table entries ∧
      (let overrides := entryOf entries defaultsKey
      SectionOptions.standard.merged
        (if overrides.isTruthy then overrides else .table []) = .ok configuration.defaults) ∧
      (entryOf entries metadataKey).toTableOrEmpty = .ok fields ∧
      readMetadata now fields = .ok configuration.metadata := by
  obtain ⟨unknown, _, made⟩ := exists_of_bind_ok made
  split at made
  · cases made
  cases value with
  | table entries =>
      obtain ⟨defaults, merged, made⟩ := exists_of_bind_ok made
      obtain ⟨fields, listed, made⟩ := exists_of_bind_ok made
      obtain ⟨metadata, read, made⟩ := exists_of_bind_ok made
      obtain ⟨_, _, made⟩ := exists_of_bind_ok made
      cases made
      exact ⟨entries, fields, rfl, merged, listed, read⟩
  | _ => cases made

/-! ## What configurations inherit -/

/-- Something that a value passes on to its parts; a part that can be a key is of a kind of its
own. -/
structure Inherited (keyed holds : Value → Prop) : Prop where
  null : holds .null
  text : ∀ content, holds (.text content)
  elements : ∀ {value : Value} {items : List Value}, holds value → value.elements? = some items →
    ∀ item ∈ items, holds item
  table : ∀ {entries : Table}, holds (.table entries) →
    Table.Lawful entries ∧ ∀ entry ∈ entries, keyed entry.1 ∧ holds entry.2
  key : ∀ {value : Value}, holds value → value.isHashable = true → keyed value

section Inheritance

variable {keyed holds : Value → Prop}

theorem Inherited.pair (inherited : Inherited keyed holds) {value : Value} (own : holds value)
    {entry : Value × Value} (made : value.pair = .ok entry) : keyed entry.1 ∧ holds entry.2 := by
  obtain ⟨walked, hashable⟩ := Value.pair_eq_ok made
  have parts := inherited.elements own walked
  exact ⟨inherited.key (parts entry.1 List.mem_cons_self) hashable, parts entry.2 (by simp)⟩

theorem Inherited.toTable (inherited : Inherited keyed holds) {value : Value} (own : holds value)
    {table : Table} (made : value.toTable = .ok table) :
    Table.Lawful table ∧ ∀ entry ∈ table, keyed entry.1 ∧ holds entry.2 := by
  rcases Value.toTable_eq_ok made with rfl | ⟨items, pairs, walked, paired, rfl⟩
  · exact inherited.table own
  · refine ⟨Table.lawful_ofList pairs, Table.forall_insertAll keyed holds (fun _ member =>
      absurd member List.not_mem_nil) fun entry member => ?_⟩
    obtain ⟨item, among, made⟩ := exists_of_mem_mapM paired member
    exact inherited.pair (inherited.elements own walked item among) made

theorem Inherited.toTableOrEmpty (inherited : Inherited keyed holds) {value : Value}
    (own : holds value) {table : Table} (made : value.toTableOrEmpty = .ok table) :
    Table.Lawful table ∧ ∀ entry ∈ table, keyed entry.1 ∧ holds entry.2 := by
  unfold Value.toTableOrEmpty at made
  split at made
  · exact inherited.toTable own made
  · cases made
    exact ⟨List.Pairwise.nil, fun _ member => absurd member List.not_mem_nil⟩

theorem Inherited.entryOf (inherited : Inherited keyed holds) {table : Table}
    (all : ∀ entry ∈ table, keyed entry.1 ∧ holds entry.2) (key : Text) :
    holds (entryOf table key) := by
  unfold Configuration.entryOf
  cases found : Table.field? table key with
  | none => exact inherited.null
  | some value => exact (all _ (Table.mem_of_field? found)).2

/-- A configuration inherits from the value that it is made from: the fields of its metadata, and
its extra entries, of which no two have the same key. -/
theorem Inherited.configuration (inherited : Inherited keyed holds) {now : Calendar.Moment}
    {value : Value} {configuration : Configuration} (own : holds value)
    (made : ofValue now value = .ok configuration) :
    EachField holds configuration.metadata ∧
      ∃ extra, configuration.metadata.extra = .table extra ∧ Table.Lawful extra ∧
        ∀ entry ∈ extra, keyed entry.1 ∧ holds entry.2 := by
  obtain ⟨entries, fields, rfl, _, listed, read⟩ := ofValue_cases made
  obtain ⟨stamp, first, _, started, same⟩ := readMetadata_cases read
  have whole := (inherited.table own).2
  obtain ⟨_, all⟩ := inherited.toTableOrEmpty (inherited.entryOf whole _) listed
  obtain ⟨ordered, firsts⟩ := inherited.toTableOrEmpty (inherited.entryOf all _) started
  have rest : ∀ entry ∈ Table.erase fields (.text extraKey), keyed entry.1 ∧ holds entry.2 :=
    fun entry member => all entry (List.mem_filter.mp member).1
  have extra := foldl_addEntry_snd (⟨.text Metadata.generatorName, .text stamp, .null, .table []⟩,
    first) (Table.erase fields (.text extraKey))
  rw [same]
  refine ⟨?_, _, rfl, ?_, ?_⟩
  · exact EachField.foldl_addEntry ⟨inherited.text _, inherited.text _, inherited.null⟩
      fun entry member => (rest entry member).2
  · rw [extra]
    exact ordered.insertAll _
  · rw [extra]
    exact Table.forall_insertAll keyed holds firsts fun entry member =>
      rest entry (List.mem_filter.mp member).1

end Inheritance

/-! ## Tables of the saved form -/

/-- The time of generation as it is saved. -/
def savedTime (metadata : Metadata) : Except Failure Value :=
  match metadata.generatedAt with
  | .moment date => (Timestamp.ofMoment date).map .text
  | other => .ok other

/-- The entries of the three fields. -/
def fieldTable (generator time project : Value) : Table :=
  [(.text generatorKey, generator), (.text timeKey, time), (.text projectKey, project)]

section Fields

variable {generator time project : Value}

/-- A key is among those of the fields only if it is the text of one of their names. -/
theorem contains_fieldTable {key : Value}
    (other : ∀ name ∈ fixedKeys, key.same (.text name) = false) :
    Table.contains (fieldTable generator time project) key = false := by
  refine Table.contains_eq_false_iff.mpr fun entry member => ?_
  have among : ∃ name ∈ fixedKeys, entry.1 = .text name := by
    simp only [fieldTable, List.mem_cons, List.not_mem_nil, or_false] at member
    rcases member with rfl | rfl | rfl
    · exact ⟨generatorKey, by decide, rfl⟩
    · exact ⟨timeKey, by decide, rfl⟩
    · exact ⟨projectKey, by decide, rfl⟩
  obtain ⟨name, fixed, same⟩ := among
  rw [same, ← Value.same_text_comm]
  exact other name fixed

theorem lawful_fieldTable : Table.Lawful (fieldTable generator time project) := by
  have apart : [Value.text generatorKey, .text timeKey, .text projectKey].Pairwise
      fun first second => first.same second = false := by decide
  exact Table.lawful_iff_keys.mpr apart

/-- Entries without the names of the fields stand behind the fields. -/
theorem insertAll_fieldTable {entries : Table}
    (absent : ∀ entry ∈ entries, ∀ name ∈ fixedKeys, entry.1.same (.text name) = false) :
    Table.insertAll (fieldTable generator time project) entries =
      fieldTable generator time project ++ Table.ofList entries := by
  have split : Table.insertAll (fieldTable generator time project ++ []) entries =
      fieldTable generator time project ++ Table.ofList entries :=
    Table.insertAll_append fun entry member => contains_fieldTable (absent entry member)
  rw [List.append_nil] at split
  exact split

end Fields

/-- The saved metadata are the fields and the extra entries. -/
theorem metadata_entries_eq {metadata : Metadata} {time : Value} {extra : Table}
    (saved : savedTime metadata = .ok time) (held : metadata.extra = .table extra) :
    metadata.entries =
      .ok (Table.insertAll (fieldTable metadata.generator time metadata.project) extra) := by
  have found : metadata.extraEntries = .ok extra := by rw [Metadata.extraEntries, held]
  rw [savedTime] at saved
  rw [Metadata.entries]
  cases same : metadata.generatedAt with
  | moment date =>
      rw [same] at saved
      dsimp only
      rw [bind_ok saved, bind_ok found]
      rfl
  | _ =>
      rw [same] at saved
      cases saved
      dsimp only
      rw [pure_bind, bind_ok found]
      rfl

theorem toTableOrEmpty_table (entries : Table) :
    Value.toTableOrEmpty (.table entries) = .ok entries := by
  cases entries <;> rfl

/-- Metadata are read from the three fields and other entries behind them: a time under its tag
takes the place of the one before, and an entry `extra` lists the first extra entries. -/
theorem readMetadata_fields {now : Calendar.Moment} {stamp : Text}
    (present : Timestamp.ofMoment now = .ok stamp) (generator time project : Value)
    {rest first : Table} (lawful : Table.Lawful rest)
    (absent : ∀ name ∈ fixedKeys, Table.field? rest name = none)
    (listed : (entryOf rest extraKey).toTableOrEmpty = .ok first) :
    readMetadata now (fieldTable generator time project ++ rest) =
      .ok ⟨generator, (Table.field? rest timeTag).getD time, project,
        .table (Table.insertAll first (others (Table.erase rest (.text extraKey))))⟩ := by
  have standard : Metadata.standard now =
      .ok ⟨.text Metadata.generatorName, .text stamp, .null, .table []⟩ := by
    rw [Metadata.standard, bind_ok present]
    rfl
  have erased : Table.erase (fieldTable generator time project ++ rest) (.text extraKey) =
      fieldTable generator time project ++ Table.erase rest (.text extraKey) := rfl
  have kept (name : Text) (other : name ≠ extraKey) :
      Table.field? (Table.erase rest (.text extraKey)) name = Table.field? rest name := by
    refine Table.field?_filter (fun value => ?_) rest
    rw [Bool.not_eq_true', Bool.eq_false_iff, Ne, Value.same_text, Value.text.injEq]
    exact other
  have behind : ∀ name ∈ fixedKeys,
      Table.field? (Table.erase rest (.text extraKey)) name = none := fun name among =>
    (kept name (by rintro rfl; revert among; decide)).trans (absent name among)
  have found : entryOf (fieldTable generator time project ++ rest) extraKey =
      entryOf rest extraKey := rfl
  have set := foldl_addEntry_fst (lawful.filter _) behind ⟨generator, time, project, .table []⟩
    first
  have added := foldl_addEntry_snd (⟨generator, time, project, .table []⟩, first)
    (Table.erase rest (.text extraKey))
  rw [← Table.erase, kept timeTag (by decide)] at set
  -- The three fields in front come first, whatever the metadata start from.
  have folded : List.foldl addEntry (⟨.text Metadata.generatorName, .text stamp, .null, .table []⟩,
      first) (fieldTable generator time project ++ Table.erase rest (.text extraKey)) =
      (⟨generator, (Table.field? rest timeTag).getD time, project, .table []⟩,
        Table.insertAll first (others (Table.erase rest (.text extraKey)))) :=
    Prod.ext set added
  rw [readMetadata, bind_ok standard, found, bind_ok listed, erased]
  dsimp only
  rw [folded]
  rfl

/-- The names that an extra entry shares with a field or with the table of extra entries. -/
def reservedNames : List Text := [generatorKey, timeKey, projectKey, timeTag, extraKey]

theorem isFieldKey_eq_false {key : Value}
    (apart : ∀ name ∈ reservedNames, key.same (.text name) = false) : isFieldKey key = false := by
  have kept : ∀ name ∈ fieldKeys, name ∈ reservedNames := by decide
  rw [isFieldKey_eq, Table.isNamed_eq_false_iff]
  exact fun name among => apart name (kept name among)

/-- Behind the fields, entries without reserved names are the extra entries. -/
theorem readMetadata_plain {now : Calendar.Moment} {stamp : Text}
    (present : Timestamp.ofMoment now = .ok stamp) (generator time project : Value) {rest : Table}
    (lawful : Table.Lawful rest)
    (apart : ∀ entry ∈ rest, ∀ name ∈ reservedNames, entry.1.same (.text name) = false) :
    readMetadata now (fieldTable generator time project ++ rest) =
      .ok ⟨generator, time, project, .table rest⟩ := by
  have absent (name : Text) (reserved : name ∈ reservedNames) : Table.field? rest name = none :=
    Table.field?_eq_none_iff.mpr fun entry member => apart entry member name reserved
  have fixed : ∀ name ∈ fixedKeys, name ∈ reservedNames := by decide
  have listed : (entryOf rest extraKey).toTableOrEmpty = .ok [] := by
    rw [entryOf, absent extraKey (by decide)]
    rfl
  have erased : Table.erase rest (.text extraKey) = rest :=
    List.filter_eq_self.mpr fun entry member => by
      rw [apart entry member extraKey (by decide)]
      rfl
  have kept : others rest = rest :=
    List.filter_eq_self.mpr fun entry member => by
      rw [isFieldKey_eq_false (apart entry member)]
      rfl
  rw [readMetadata_fields present generator time project lawful
    (fun name among => absent name (fixed name among)) listed, erased, kept,
    absent timeTag (by decide)]
  exact congrArg (fun table => Except.ok (Metadata.mk generator time project (.table table)))
    (Table.ofList_of_lawful lawful)

/-- The entries have none but the two names of a configuration. -/
def KnownKeys (entries : Table) : Prop :=
  ∀ key ∈ Table.keys entries, Value.isKnown [defaultsKey, metadataKey] key = true

/-- Entries with the two names give the options, and then the metadata. -/
theorem ofValue_known {now : Calendar.Moment} {entries : Table} (known : KnownKeys entries) :
    ofValue now (.table entries) =
      SectionOptions.standard.merged (entryOf entries defaultsKey) >>= fun defaults =>
        (entryOf entries metadataKey).toTableOrEmpty >>= fun fields =>
          readMetadata now fields >>= fun metadata =>
            defaults.validate >>= fun _ => pure ⟨defaults, metadata⟩ := by
  have unknown : (Value.table entries).unknownNames [defaultsKey, metadataKey] = .ok [] :=
    Value.unknownNames_of_known rfl known
  rw [ofValue, bind_ok unknown, ← SectionOptions.merged_given]
  rfl

/-- A table without unknown keys is a configuration when its options can be merged and its metadata
can be read. -/
theorem ofValue_eq {now : Calendar.Moment} {entries fields : Table} {options : SectionOptions}
    {metadata : Metadata} (known : KnownKeys entries)
    (merged : SectionOptions.standard.merged (entryOf entries defaultsKey) = .ok options)
    (listed : (entryOf entries metadataKey).toTableOrEmpty = .ok fields)
    (read : readMetadata now fields = .ok metadata) :
    ofValue now (.table entries) = .ok ⟨options, metadata⟩ := by
  have valid := (SectionOptions.validate_eq_ok_iff options).mpr
    (SectionOptions.standard_merged_cases merged).1
  rw [ofValue_known known, bind_ok merged, bind_ok listed, bind_ok read, bind_ok valid]
  rfl

/-- Settled options and metadata that can be read are a configuration. -/
theorem ofValue_entries {now : Calendar.Moment} {options : SectionOptions} {fields : Table}
    {metadata : Metadata} (settled : options.Settled)
    (read : readMetadata now fields = .ok metadata) :
    ofValue now (.table [(.text defaultsKey, .table options.entries),
      (.text metadataKey, .table fields)]) = .ok ⟨options, metadata⟩ := by
  have known : ∀ key ∈ [Value.text defaultsKey, .text metadataKey],
      Value.isKnown [defaultsKey, metadataKey] key = true := by decide
  exact ofValue_eq known settled.merged_entries (toTableOrEmpty_table fields) read

/-! ## Configurations made at noon -/

def noon : Calendar.Moment := ⟨⟨2024, 5, 1⟩, 12, 0, 0, 0, none⟩

def noonStamp : Text := "2024-05-01T12:00:00.000Z".toList

theorem ofMoment_noon : Timestamp.ofMoment noon = .ok noonStamp := rfl

/-- Data that sets the order of sections and gives the metadata. -/
def orderedValue (metadata : Value) : Value :=
  .table [(.text defaultsKey, .table [(.text "order".toList, .int 3)]),
    (.text metadataKey, metadata)]

/-- The configuration with an order and the given extra entries. -/
def ordered (extra : Table) : Configuration :=
  ⟨{ SectionOptions.standard with order := .int 3 },
    ⟨.text Metadata.generatorName, .text noonStamp, .null, .table extra⟩⟩

theorem ofValue_orderedValue {metadata : Value} {fields extra : Table}
    (listed : metadata.toTableOrEmpty = .ok fields)
    (read : readMetadata noon fields = .ok (ordered extra).metadata) :
    ofValue noon (orderedValue metadata) = .ok (ordered extra) := by
  have known : ∀ key ∈ [Value.text defaultsKey, .text metadataKey],
      Value.isKnown [defaultsKey, metadataKey] key = true := by decide
  have merged : SectionOptions.standard.merged (.table [(.text "order".toList, .int 3)]) =
      .ok { SectionOptions.standard with order := .int 3 } :=
    SectionOptions.standard_merged_of_known (by decide) rfl
  exact ofValue_eq known merged listed read

end Configuration

end TypeScriptGen
