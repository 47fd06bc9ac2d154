import TypeScriptGen.Proofs.Calendar.Instants
import TypeScriptGen.Proofs.Document.Reloading

/-!
# Header tags of a configuration that is made again

A configuration is saved as a table with a name for each field and the extra
entries beside them, and a configuration that is made of the table takes the two
apart by their names. An extra entry with the name of the generator or of the
project is then the field, and gives the same tag. The tags change only by an entry
`extra`, which is taken for further entries, by an entry with one of the two names
of the time, and by a null that hides the time.
-/

namespace TypeScriptGen

/-! ## Header tags -/

namespace Metadata

/-- The tag of a time of generation. -/
def shownTime (clock : Clock) (time : Value) : Except Failure Value :=
  if time.isNull then .ok .null else (Timestamp.ofValue clock time).1

theorem timeValue_fst (clock : Clock) (metadata : Metadata) :
    (metadata.timeValue clock).1 = shownTime clock metadata.generatedAt := by
  unfold timeValue shownTime
  split <;> rfl

/-- Only null has no tag. -/
theorem shownTime_eq_null {clock : Clock} {time : Value}
    (shown : shownTime clock time = .ok .null) : time = .null := by
  unfold shownTime Timestamp.ofValue at shown
  split at shown
  · next null => exact Value.eq_null_of_isNull null
  split at shown
  · rfl
  · obtain ⟨_, _, same⟩ := exists_of_map_ok shown
    cases same
  · split at shown
    · cases shown
    split at shown
    · obtain ⟨_, _, same⟩ := exists_of_map_ok shown
      cases same
    · exact Except.ok.inj shown

/-- The tags of the header for a time and extra entries. -/
def headerTags (metadata : Metadata) (time : Value) (extra : Table) : Table :=
  (metadata.tagTable time extra).filter fun entry => !entry.2.isNull

section Tags

variable {metadata : Metadata} {time : Value} {extra : Table}

theorem tags_eq (metadata : Metadata) (held : metadata.extra = .table extra)
    {clock : Clock} (shown : shownTime clock metadata.generatedAt = .ok time) :
    (metadata.tags clock).1 = .ok (metadata.headerTags time extra) := by
  have found : metadata.extraEntries = .ok extra := by rw [extraEntries, held]
  have own : (metadata.timeValue clock).1 = .ok time := (timeValue_fst clock metadata).trans shown
  rw [tags]
  dsimp only
  rw [bind_ok own, bind_ok found]
  rfl

theorem exists_of_tags (held : metadata.extra = .table extra) {clock : Clock} {tags : Table}
    (made : (metadata.tags clock).1 = .ok tags) :
    ∃ time, shownTime clock metadata.generatedAt = .ok time ∧
      tags = metadata.headerTags time extra := by
  have same := made
  rw [Metadata.tags] at made
  obtain ⟨time, own, _⟩ := exists_of_bind_ok made
  have shown := (timeValue_fst clock metadata).symm.trans own
  exact ⟨time, shown, Except.ok.inj (same.symm.trans (metadata.tags_eq held shown))⟩

/-- The names of the tags that the fields give, with their values. -/
def fieldTags (metadata : Metadata) (time : Value) : List (Text × Value) :=
  [(generatorKey, metadata.generator), (timeTag, time), (projectKey, metadata.project)]

def tagNames : List Text := [generatorKey, timeTag, projectKey]

/-- A tag is that of the extra entry of its name, or else that of a field. -/
theorem field?_headerTags (lawful : Table.Lawful extra) (name : Text) :
    Table.field? (metadata.headerTags time extra) name =
      ((Table.field? extra name).or
        (Table.field? (Table.named (metadata.fieldTags time)) name)).filter (!·.isNull) := by
  have apart : [Value.text generatorKey, .text timeTag, .text projectKey].Pairwise
      fun first second => first.same second = false := by decide
  have fields : Table.Lawful (Table.named (metadata.fieldTags time)) :=
    Table.lawful_iff_keys.mpr apart
  have whole : Table.Lawful (metadata.tagTable time extra) := fields.insertAll extra
  rw [headerTags, Table.field?_filter_values whole fun value => !value.isNull]
  exact congrArg _ (Table.field?_insertAll lawful _ name)

/-- The tags of the fields come first, and the extra entries of other names follow. -/
theorem headerTags_eq (lawful : Table.Lawful extra) :
    metadata.headerTags time extra =
      (Table.named ((metadata.fieldTags time).map (Table.given extra)) ++
        Table.without tagNames extra).filter fun entry => !entry.2.isNull :=
  congrArg _ (Table.insertAll_named lawful (metadata.fieldTags time))

end Tags

end Metadata

namespace Configuration

open Metadata (generatorKey timeKey timeTag projectKey extraKey shownTime tagNames)

/-! ## The saved form of metadata -/

/-- A timestamp is its own tag. -/
theorem shownTime_stamp {date : Calendar.Moment} {text : Text} {clock : Clock}
    (made : Timestamp.ofMoment date = .ok text) (reads : clock.ReadsStamp text) :
    shownTime clock (.text text) = .ok (.text text) :=
  congrArg Prod.fst (Timestamp.ofValue_stamp made reads)

/-- If the time is a moment, which is saved as its timestamp, the reader reads this timestamp. -/
def ReadsSaved (clock : Clock) (time : Value) : Prop :=
  ∀ date text, time = .moment date → Timestamp.ofMoment date = .ok text → clock.ReadsStamp text

/-- A saved time gives the same tag. -/
theorem exists_savedTime {metadata : Metadata} {shown : Value} {clock : Clock}
    (reads : ReadsSaved clock metadata.generatedAt)
    (made : shownTime clock metadata.generatedAt = .ok shown) :
    ∃ time, savedTime metadata = .ok time ∧ shownTime clock time = .ok shown := by
  unfold savedTime
  cases same : metadata.generatedAt with
  | moment date =>
      rw [same] at made
      obtain ⟨text, stamped, rfl⟩ := exists_of_map_ok made
      exact ⟨.text text, made, shownTime_stamp stamped (reads date text same stamped)⟩
  | _ => exact ⟨_, rfl, same ▸ made⟩

section Saved

variable {metadata : Metadata} {time : Value} {extra first : Table}

/-- What is neither read into a field nor taken for further entries. -/
theorem others_without (extra : Table) :
    others (Table.erase (Table.without fixedKeys extra) (.text extraKey)) =
      Table.without reservedNames extra := by
  have names : ∀ name, name ∈ fixedKeys ++ [extraKey] ++ fieldKeys ↔ name ∈ reservedNames := by
    have front : ∀ name ∈ fixedKeys ++ [extraKey] ++ fieldKeys, name ∈ reservedNames := by decide
    have behind : ∀ name ∈ reservedNames, name ∈ fixedKeys ++ [extraKey] ++ fieldKeys := by decide
    exact fun name => ⟨front name, behind name⟩
  rw [others_eq, Table.erase_text, Table.without_without, Table.without_without]
  exact Table.without_congr names extra

/-- The saved metadata: the fields, with the values of extra entries of their names, and the other
extra entries. -/
def savedMetadata (metadata : Metadata) (time : Value) (extra : Table) : Table :=
  fieldTable ((Table.field? extra generatorKey).getD metadata.generator)
    ((Table.field? extra timeKey).getD time)
    ((Table.field? extra projectKey).getD metadata.project) ++ Table.without fixedKeys extra

theorem metadata_entries_eq_saved (lawful : Table.Lawful extra)
    (saved : savedTime metadata = .ok time) (held : metadata.extra = .table extra) :
    metadata.entries = .ok (savedMetadata metadata time extra) := by
  rw [metadata_entries_eq saved held]
  exact congrArg Except.ok (Table.insertAll_named lawful [(generatorKey, metadata.generator),
    (timeKey, time), (projectKey, metadata.project)])

/-- The metadata that are read from the saved ones, with first extra entries. -/
def reloaded (metadata : Metadata) (time : Value) (extra first : Table) : Metadata where
  generator := (Table.field? extra generatorKey).getD metadata.generator
  generatedAt := (Table.field? extra timeTag).getD ((Table.field? extra timeKey).getD time)
  project := (Table.field? extra projectKey).getD metadata.project
  extra := .table (Table.insertAll first (Table.without reservedNames extra))

theorem readMetadata_saved {later : Calendar.Moment} {stamp : Text}
    (present : Timestamp.ofMoment later = .ok stamp) (lawful : Table.Lawful extra)
    (listed : (entryOf extra extraKey).toTableOrEmpty = .ok first) :
    readMetadata later (savedMetadata metadata time extra) =
      .ok (reloaded metadata time extra first) := by
  have found : entryOf (Table.without fixedKeys extra) extraKey = entryOf extra extraKey := by
    rw [entryOf, entryOf, Table.field?_without (by decide)]
  have ordered : Table.Lawful (Table.without fixedKeys extra) := lawful.filter _
  rw [savedMetadata, readMetadata_fields present _ _ _ ordered
    (fun _ fixed => Table.field?_without_of_mem fixed extra) (found.symm ▸ listed),
    Table.field?_without (by decide), others_without]
  rfl

end Saved

/-! ## What the tags depend on -/

/-- The extra entries and the time of generation give the same tags from the saved form: there is no
list of entries and no time under its saved name among the extra entries but null, the tag of the
time is the tag of itself, and a null that is saved for the time hides none. -/
structure KeepsTags (clock : Clock) (extra : Table) (time : Value) : Prop where
  list : entryOf extra extraKey = .null
  saved : entryOf extra timeKey = .null
  tag : ∀ tag, Table.field? extra timeTag = some tag → shownTime clock tag = .ok tag
  hidden : Table.field? extra timeTag = none → Table.field? extra timeKey = some .null →
    time = .null

section Tags

variable {metadata : Metadata} {time shown : Value} {extra first : Table} {clock : Clock}

theorem eq_of_filter_some {first second : Value}
    (same : (some first).filter (!·.isNull) = (some second).filter (!·.isNull)) :
    first = second := by
  cases first <;> cases second <;> first | rfl | exact Option.some.inj same | cases same

/-- Entries with reserved names are given by the first extra entries only. -/
theorem field?_reloaded (lawful : Table.Lawful extra) {name : Text}
    (reserved : name ∈ reservedNames) :
    Table.field? (Table.insertAll first (Table.without reservedNames extra)) name =
      Table.field? first name := by
  have ordered : Table.Lawful (Table.without reservedNames extra) := lawful.filter _
  rw [Table.field?_insertAll ordered, Table.field?_without_of_mem reserved, Option.none_or]

/-- The time that is read is shown as the tag that was there. -/
theorem KeepsTags.shownTime_reloaded (keeps : KeepsTags clock extra metadata.generatedAt)
    (own : shownTime clock metadata.generatedAt = .ok shown)
    (saved : shownTime clock time = .ok shown) :
    shownTime clock (reloaded metadata time extra first).generatedAt =
      .ok ((Table.field? extra timeTag).getD shown) := by
  rw [reloaded]
  cases tagged : Table.field? extra timeTag with
  | some tag => exact keeps.tag tag tagged
  | none =>
      cases named : Table.field? extra timeKey with
      | none => exact saved
      | some value =>
          have null : value = .null := by
            have same := keeps.saved
            rw [entryOf, named] at same
            exact same
          subst null
          rw [keeps.hidden tagged named] at own
          exact own

/-- Names without a value but null name only null entries. -/
theorem filter_without_null {table : Table} (lawful : Table.Lawful table) {names : List Text}
    (null : ∀ name ∈ names, entryOf table name = .null) :
    (Table.without names table).filter (fun entry => !entry.2.isNull) =
      table.filter fun entry => !entry.2.isNull := by
  rw [Table.without, List.filter_filter]
  refine List.filter_congr fun entry member => ?_
  cases own : entry.2.isNull with
  | true => rfl
  | false =>
      have unnamed : Table.isNamed names entry.1 = false := by
        refine Table.isNamed_eq_false_iff.mpr fun name among => Bool.eq_false_iff.mpr fun same => ?_
        have held : (.text name, entry.2) ∈ table := (Value.same_text _ _).mp same ▸ member
        have value := null name among
        rw [entryOf, Table.field?_of_mem lawful held, Option.getD_some] at value
        rw [value] at own
        cases own
      rw [unnamed]
      rfl

/-- Among the entries that are not null, those without the names of tags have no reserved names. -/
theorem KeepsTags.filter_without (keeps : KeepsTags clock extra time)
    (lawful : Table.Lawful extra) :
    (Table.without tagNames extra).filter (fun entry => !entry.2.isNull) =
      (Table.without reservedNames extra).filter fun entry => !entry.2.isNull := by
  have names : ∀ name, name ∈ tagNames ++ [timeKey, extraKey] ↔ name ∈ reservedNames := by
    have front : ∀ name ∈ tagNames ++ [timeKey, extraKey], name ∈ reservedNames := by decide
    have behind : ∀ name ∈ reservedNames, name ∈ tagNames ++ [timeKey, extraKey] := by decide
    exact fun name => ⟨front name, behind name⟩
  have null : ∀ name ∈ [timeKey, extraKey],
      entryOf (Table.without tagNames extra) name = .null := by
    refine List.forall_mem_cons.mpr ⟨?_, List.forall_mem_singleton.mpr ?_⟩
    · rw [entryOf, Table.field?_without (by decide)]
      exact keeps.saved
    · rw [entryOf, Table.field?_without (by decide)]
      exact keeps.list
  rw [← Table.without_congr names, ← Table.without_without]
  exact (filter_without_null (lawful.filter _) null).symm

/-- The tags are the same, in the same order. -/
theorem KeepsTags.headerTags_eq (keeps : KeepsTags clock extra metadata.generatedAt)
    (lawful : Table.Lawful extra) :
    (reloaded metadata time extra []).headerTags ((Table.field? extra timeTag).getD shown)
        (Table.without reservedNames extra) = metadata.headerTags shown extra := by
  have ordered : Table.Lawful (Table.without reservedNames extra) := lawful.filter _
  have among : ∀ name ∈ tagNames, name ∈ reservedNames := by decide
  have given : ((reloaded metadata time extra []).fieldTags
      ((Table.field? extra timeTag).getD shown)).map
        (Table.given (Table.without reservedNames extra)) =
      (metadata.fieldTags shown).map (Table.given extra) := by
    simp only [Metadata.fieldTags, List.map_cons, List.map_nil, Table.given,
      Table.field?_without_of_mem (by decide : generatorKey ∈ reservedNames),
      Table.field?_without_of_mem (by decide : timeTag ∈ reservedNames),
      Table.field?_without_of_mem (by decide : projectKey ∈ reservedNames)]
    rfl
  rw [Metadata.headerTags_eq lawful, Metadata.headerTags_eq ordered, given, List.filter_append,
    List.filter_append, keeps.filter_without lawful, Table.without_of_subset among]

/-- A value under a key that is not null is not left out of the tags. -/
theorem filter_entryOf {table : Table} {name : Text} (given : (entryOf table name).isNull = false) :
    (Table.field? table name).filter (!·.isNull) = some (entryOf table name) := by
  rw [entryOf] at given ⊢
  cases found : Table.field? table name with
  | some value =>
      rw [found] at given
      exact Option.filter_some_pos (congrArg not given)
  | none =>
      rw [found] at given
      cases given

/-- If the same tags come back, the extra entries and the time keep them. -/
theorem keepsTags_of_same {again : Value} (lawful : Table.Lawful extra)
    (ordered : Table.Lawful first)
    (own : shownTime clock metadata.generatedAt = .ok shown)
    (listed : (entryOf extra extraKey).toTableOrEmpty = .ok first)
    (read : shownTime clock (reloaded metadata time extra first).generatedAt = .ok again)
    (same : ∀ name, Table.field? ((reloaded metadata time extra first).headerTags again
        (Table.insertAll first (Table.without reservedNames extra))) name =
      Table.field? (metadata.headerTags shown extra) name) :
    KeepsTags clock extra metadata.generatedAt := by
  have apart : Table.Lawful (Table.without reservedNames extra) := lawful.filter _
  have tags (name : Text) (reserved : name ∈ reservedNames) :
      ((Table.field? first name).or (Table.field? (Table.named
        ((reloaded metadata time extra first).fieldTags again)) name)).filter (!·.isNull) =
      ((Table.field? extra name).or
        (Table.field? (Table.named (metadata.fieldTags shown)) name)).filter (!·.isNull) := by
    have found := same name
    rw [Metadata.field?_headerTags lawful, Metadata.field?_headerTags (ordered.insertAll _),
      field?_reloaded lawful reserved] at found
    exact found
  have list : entryOf extra extraKey = .null := by
    refine Value.eq_null_of_isNull ((Bool.not_eq_false _).mp fun given => ?_)
    have found := tags extraKey (by decide)
    have alone (fields : Metadata) (time : Value) :
        Table.field? (Table.named (fields.fieldTags time)) extraKey = none := rfl
    rw [alone, alone, Option.or_none, Option.or_none, filter_entryOf given] at found
    have member := Table.mem_of_field? (Option.filter_eq_some_iff.mp found).1
    exact Value.ne_of_mem_toTableOrEmpty listed _ member rfl
  obtain rfl : first = [] := by
    rw [list] at listed
    exact (Except.ok.inj listed).symm
  have saved : entryOf extra timeKey = .null := by
    refine Value.eq_null_of_isNull ((Bool.not_eq_false _).mp fun given => ?_)
    have found := tags timeKey (by decide)
    have alone : Table.field? (Table.named (metadata.fieldTags shown)) timeKey = none := rfl
    rw [alone, Option.or_none, filter_entryOf given] at found
    cases found
  have tag : (some again).filter (!·.isNull) =
      ((Table.field? extra timeTag).or (some shown)).filter (!·.isNull) := tags timeTag (by decide)
  refine ⟨list, saved, fun found tagged => ?_, fun tagged named => ?_⟩
  · rw [tagged] at tag
    rw [reloaded, tagged] at read
    rw [eq_of_filter_some tag] at read
    exact read
  · rw [tagged] at tag
    rw [reloaded, tagged, named] at read
    cases read
    rw [← eq_of_filter_some tag] at own
    exact Metadata.shownTime_eq_null own

end Tags

/-! ## Configurations that are made again -/

theorem inherited_isLawful : Inherited (fun _ => True) fun value => value.isLawful = true where
  null := rfl
  text _ := rfl
  elements {value items} lawful walked := by
    cases value with
    | text _ | ragged _ =>
        intro item member
        exact Value.isLawful_of_isText (Value.isText_of_elements? ⟨_, rfl⟩ walked item member)
    | list items =>
        cases walked
        exact Value.isLawful_list.mp lawful
    | tuple items =>
        cases walked
        exact Value.isLawful_list.mp lawful
    | table entries =>
        cases walked
        intro item member
        obtain ⟨entry, among, rfl⟩ := List.mem_map.mp member
        exact ((Value.lawful_of_isLawful lawful).2 entry among).1
    | _ => cases walked
  table lawful := by
    obtain ⟨ordered, parts⟩ := Value.lawful_of_isLawful lawful
    exact ⟨ordered, fun entry member => ⟨trivial, (parts entry member).2⟩⟩
  key _ _ := trivial

section Again

variable {now later : Calendar.Moment} {clock : Clock} {value : Value}
  {configuration : Configuration} {extra tags : Table} {stamp : Text}

/-- The entries of a configuration. -/
def savedTable (configuration : Configuration) (time : Value) (extra : Table) : Table :=
  [(.text defaultsKey, .table configuration.defaults.entries),
    (.text metadataKey, .table (savedMetadata configuration.metadata time extra))]

theorem entries_eq_savedTable {time : Value} (lawful : Table.Lawful extra)
    (saved : savedTime configuration.metadata = .ok time)
    (held : configuration.metadata.extra = .table extra) :
    configuration.entries = .ok (configuration.savedTable time extra) := by
  rw [entries, bind_ok (metadata_entries_eq_saved lawful saved held)]
  rfl

/-- A configuration is made of the saved table if the first extra entries can be read. -/
theorem ofValue_savedTable {time : Value} {first : Table} (settled : configuration.defaults.Settled)
    (present : Timestamp.ofMoment later = .ok stamp) (lawful : Table.Lawful extra)
    (listed : (entryOf extra extraKey).toTableOrEmpty = .ok first) :
    ofValue later (.table (configuration.savedTable time extra)) =
      .ok ⟨configuration.defaults, reloaded configuration.metadata time extra first⟩ :=
  ofValue_entries settled (readMetadata_saved present lawful listed)

theorem exists_of_ofValue_savedTable {time : Value} {again : Configuration}
    (present : Timestamp.ofMoment later = .ok stamp) (lawful : Table.Lawful extra)
    (made : ofValue later (.table (configuration.savedTable time extra)) = .ok again) :
    ∃ first, (entryOf extra extraKey).toTableOrEmpty = .ok first ∧
      again.metadata = reloaded configuration.metadata time extra first := by
  obtain ⟨entries, fields, same, _, listed, read⟩ := ofValue_cases made
  cases same
  obtain rfl := Except.ok.inj ((toTableOrEmpty_table _).symm.trans listed)
  obtain ⟨_, first, _, started, _⟩ := readMetadata_cases read
  have found : (entryOf extra extraKey).toTableOrEmpty = .ok first := by
    rw [← started, entryOf, ← Table.field?_without (by decide : extraKey ∉ fixedKeys)]
    rfl
  exact ⟨first, found, Except.ok.inj (read.symm.trans (readMetadata_saved present lawful found))⟩

/-- The entries of a configuration that has tags are a table of which a configuration with the same
tags is made if and only if the extra entries and the time keep the tags; the tags are in
the same order then. The reader of dates may take any text for any moment, if only it reads the
timestamp that is saved for a moment. -/
theorem tags_reloaded_iff (lawful : value.isLawful = true)
    (made : ofValue now value = .ok configuration)
    (held : configuration.metadata.extra = .table extra)
    (tagged : (configuration.metadata.tags clock).1 = .ok tags)
    (present : Timestamp.ofMoment later = .ok stamp)
    (reads : ReadsSaved clock configuration.metadata.generatedAt) :
    ∃ table, configuration.entries = .ok table ∧
      ((∃ again retagged, ofValue later (.table table) = .ok again ∧
          (again.metadata.tags clock).1 = .ok retagged ∧
          ∀ key, Table.get? retagged key = Table.get? tags key) ↔
        KeepsTags clock extra configuration.metadata.generatedAt) ∧
      (KeepsTags clock extra configuration.metadata.generatedAt →
        ∃ again, ofValue later (.table table) = .ok again ∧
          (again.metadata.tags clock).1 = .ok tags) := by
  obtain ⟨_, entries, same, ordered, parts⟩ := inherited_isLawful.configuration lawful made
  obtain rfl : entries = extra := Value.table.inj (same.symm.trans held)
  obtain ⟨shown, own, rfl⟩ := Metadata.exists_of_tags held tagged
  obtain ⟨time, saved, showing⟩ := exists_savedTime reads own
  obtain ⟨_, _, _, merged, _, _⟩ := ofValue_cases made
  have settled := SectionOptions.settled_of_merged merged
  have forward (keeps : KeepsTags clock entries configuration.metadata.generatedAt) :
      ∃ again, ofValue later (.table (configuration.savedTable time entries)) = .ok again ∧
        (again.metadata.tags clock).1 = .ok (configuration.metadata.headerTags shown entries) := by
    have listed : (entryOf entries extraKey).toTableOrEmpty = .ok [] := by
      rw [keeps.list]
      rfl
    have plain : Table.insertAll [] (Table.without reservedNames entries) =
        Table.without reservedNames entries :=
      Table.ofList_of_lawful (ordered.filter _)
    refine ⟨_, ofValue_savedTable settled present ordered listed, ?_⟩
    rw [← keeps.headerTags_eq ordered]
    exact Metadata.tags_eq _ (congrArg Value.table plain) (keeps.shownTime_reloaded own showing)
  refine ⟨_, entries_eq_savedTable ordered saved held, ⟨?_, fun keeps => ?_⟩, forward⟩
  · rintro ⟨again, retagged, remade, found, equal⟩
    obtain ⟨first, listed, read⟩ := exists_of_ofValue_savedTable present ordered remade
    have firsts := (inherited_isLawful.toTableOrEmpty
      (inherited_isLawful.entryOf parts extraKey) listed).1
    obtain ⟨shown', own', rfl⟩ := Metadata.exists_of_tags (congrArg Metadata.extra read) found
    rw [read] at own' equal
    exact keepsTags_of_same ordered firsts own listed own' fun name => equal (.text name)
  · obtain ⟨again, remade, found⟩ := forward keeps
    exact ⟨again, _, remade, found, fun _ => rfl⟩

end Again

/-- A text that spells no time. -/
def unknown : Text := "unknown".toList

/-- Extra entries with the names of fields that keep the tags. -/
def shadowing : Table :=
  [(.text generatorKey, .text "mine".toList), (.text timeKey, .null), (.text extraKey, .null),
    (.text timeTag, .text unknown)]

theorem shownTime_unknown : shownTime (.plain noon) (.text unknown) = .ok (.text unknown) := by
  have none : (Clock.plain noon).read (unknown.map .char) = none := by decide +kernel
  simp only [shownTime, Value.isNull, Timestamp.ofValue, Value.points?, none, Bool.false_eq_true,
    if_false]

theorem shownTime_noonStamp :
    shownTime (.plain noon) (.text noonStamp) = .ok (.text noonStamp) :=
  shownTime_stamp ofMoment_noon (Clock.readsStamp_plain noon noonStamp)

/-- The hypotheses hold for extra entries with the names of fields, and the tags are kept. -/
theorem tags_reloaded_shadowing :
    ofValue noon (orderedValue (.table [(.text extraKey, .table shadowing)])) =
        .ok (ordered shadowing) ∧
      ∃ table again, (ordered shadowing).entries = .ok table ∧
        ofValue noon (.table table) = .ok again ∧
        (again.metadata.tags (.plain noon)).1 =
          ((ordered shadowing).metadata.tags (.plain noon)).1 := by
  have lawful : (orderedValue (.table [(.text extraKey, .table shadowing)])).isLawful = true := by
    decide +kernel
  have made : ofValue noon (orderedValue (.table [(.text extraKey, .table shadowing)])) =
      .ok (ordered shadowing) := ofValue_orderedValue rfl rfl
  have keeps : KeepsTags (.plain noon) shadowing (ordered shadowing).metadata.generatedAt := by
    refine ⟨rfl, rfl, fun tag found => ?_, nofun⟩
    obtain rfl : Value.text unknown = tag := Option.some.inj found
    exact shownTime_unknown
  have tagged := (ordered shadowing).metadata.tags_eq rfl shownTime_noonStamp
  obtain ⟨table, saved, _, kept⟩ := tags_reloaded_iff lawful made rfl tagged ofMoment_noon
    fun _ text _ _ => Clock.readsStamp_plain noon text
  obtain ⟨again, remade, same⟩ := kept keeps
  exact ⟨made, table, again, saved, remade, same.trans tagged.symm⟩

/-- An extra entry under the saved name of the time. -/
def retimed : Table := [(.text timeKey, .text unknown)]

/-- An extra entry under the saved name of the time is a tag of its own, but the tag of the time
once the configuration is made again. -/
theorem tags_reloaded_retimed :
    (orderedValue (.table [(.text extraKey, .table retimed)])).isLawful = true ∧
      ofValue noon (orderedValue (.table [(.text extraKey, .table retimed)])) =
        .ok (ordered retimed) ∧
      ∃ tags table again retagged, ((ordered retimed).metadata.tags (.plain noon)).1 = .ok tags ∧
        (ordered retimed).entries = .ok table ∧ ofValue noon (.table table) = .ok again ∧
        (again.metadata.tags (.plain noon)).1 = .ok retagged ∧
        Table.field? tags timeKey = some (.text unknown) ∧
        Table.field? tags timeTag = some (.text noonStamp) ∧
        Table.field? retagged timeKey = none ∧
        Table.field? retagged timeTag = some (.text unknown) := by
  have lawful : (orderedValue (.table [(.text extraKey, .table retimed)])).isLawful = true := by
    decide +kernel
  have made : ofValue noon (orderedValue (.table [(.text extraKey, .table retimed)])) =
      .ok (ordered retimed) := ofValue_orderedValue rfl rfl
  have single : Table.Lawful retimed := List.pairwise_singleton _ _
  obtain ⟨_, _, _, merged, _, _⟩ := ofValue_cases made
  have remade : ofValue noon (.table ((ordered retimed).savedTable (.text noonStamp) retimed)) =
      .ok ⟨_, reloaded (ordered retimed).metadata (.text noonStamp) retimed []⟩ :=
    ofValue_savedTable (SectionOptions.settled_of_merged merged) ofMoment_noon single rfl
  have held : (reloaded (ordered retimed).metadata (.text noonStamp) retimed []).extra =
      .table [] := rfl
  have before := (ordered retimed).metadata.tags_eq rfl shownTime_noonStamp
  have after := Metadata.tags_eq _ held shownTime_unknown
  have saved : (ordered retimed).entries =
      .ok ((ordered retimed).savedTable (.text noonStamp) retimed) :=
    entries_eq_savedTable single rfl rfl
  exact ⟨lawful, made, _, _, _, _, before, saved, remade, after, rfl, rfl, rfl, rfl⟩

end Configuration

end TypeScriptGen
