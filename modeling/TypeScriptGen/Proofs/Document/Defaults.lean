import TypeScriptGen.Document.Options
import TypeScriptGen.Proofs.Value.Listed

/-!
# Merged options

Merging refuses names that are unknown, and sets the options that entries name and
give a value. It leaves an option null only if it is the description or the order,
and the result is valid. Options of that kind are what their own entries make of the
standard options.
-/

namespace TypeScriptGen

namespace Value

theorem eq_null_of_isNull {value : Value} (null : value.isNull = true) : value = .null := by
  cases value with
  | null => rfl
  | _ => cases null

/-! ## Unknown names -/

theorem distinct_eq_nil {texts : List Text} (none : distinct texts = []) : texts = [] := by
  cases texts with
  | nil => rfl
  | cons text texts =>
      rw [distinct, List.foldr_cons, ← distinct] at none
      split at none
      · next again =>
          rw [none] at again
          cases again
      · cases none

theorem sortTexts_eq_nil {texts : List Text} (none : sortTexts texts = []) : texts = [] := by
  have size := congrArg List.length none
  rw [sortTexts, List.length_mergeSort] at size
  exact List.eq_nil_of_length_eq_zero size

section Unknown

variable {known : List Text} {value : Value} {items : List Value}

/-- Known names alone leave none that is unknown. -/
theorem unknownNames_of_known (walked : value.elements? = some items)
    (all : ∀ item ∈ items, isKnown known item = true) : value.unknownNames known = .ok [] := by
  have hashable : items.all isHashable = true := by
    refine List.all_eq_true.mpr fun item member => ?_
    have text := all item member
    cases item with
    | text _ => rfl
    | _ => cases text
  have none : items.filter (fun item => !isKnown known item) = [] :=
    List.filter_eq_nil_iff.mpr fun item member => by simp [all item member]
  rw [unknownNames, bind_ok (elements_eq_ok walked), if_pos hashable]
  simp [none, distinct, sortTexts, pure, Except.pure]

/-- Texts of which one is not known leave names. -/
theorem unknownNames_of_texts (walked : value.elements? = some items)
    (texts : ∀ item ∈ items, item.IsText) {item : Value} (among : item ∈ items)
    (unknown : isKnown known item = false) :
    ∃ name names, value.unknownNames known = .ok (name :: names) := by
  have hashable : items.all isHashable = true := by
    refine List.all_eq_true.mpr fun item member => ?_
    rcases isText_iff.mp (texts item member) with ⟨content, rfl⟩ | ⟨content, rfl⟩ <;> rfl
  have spelled : ((items.filter fun item => !isKnown known item).filterMap text?).length =
      (items.filter fun item => !isKnown known item).length := by
    refine List.filterMap_length_eq_length.mpr fun item member => ?_
    have text := texts item (List.mem_filter.mp member).1
    rcases isText_iff.mp text with ⟨content, rfl⟩ | ⟨content, rfl⟩ <;> rfl
  rw [unknownNames, bind_ok (elements_eq_ok walked), if_pos hashable]
  dsimp only
  rw [if_pos spelled]
  obtain ⟨content, shown⟩ : ∃ content, item.text? = some content := by
    rcases isText_iff.mp (texts item among) with ⟨content, rfl⟩ | ⟨content, rfl⟩ <;>
      exact ⟨_, rfl⟩
  have left : content ∈ (items.filter fun item => !isKnown known item).filterMap text? :=
    List.mem_filterMap.mpr ⟨item, List.mem_filter.mpr ⟨among, by rw [unknown]; rfl⟩, shown⟩
  cases found : sortTexts (distinct
      ((items.filter fun item => !isKnown known item).filterMap text?)) with
  | nil =>
      rw [distinct_eq_nil (sortTexts_eq_nil found)] at left
      cases left
  | cons name names => exact ⟨name, names, rfl⟩

/-- Something among the elements that is no text is refused. -/
theorem unknownNames_of_odd (walked : value.elements? = some items) {item : Value}
    (among : item ∈ items) (odd : ¬item.IsText) :
    value.unknownNames known = .error .wrongKind := by
  have silent : item.text? = none := by
    cases item with
    | text content => exact absurd ⟨_, rfl⟩ odd
    | ragged content => exact absurd ⟨_, rfl⟩ odd
    | _ => rfl
  have unknown : isKnown known item = false := by
    cases item with
    | text content => exact absurd ⟨_, rfl⟩ odd
    | ragged content => exact absurd ⟨_, rfl⟩ odd
    | _ => rfl
  have unspelled : ¬((items.filter fun item => !isKnown known item).filterMap text?).length =
      (items.filter fun item => !isKnown known item).length := by
    intro spelled
    have named := List.filterMap_length_eq_length.mp spelled item
      (List.mem_filter.mpr ⟨among, by rw [unknown]; rfl⟩)
    rw [silent] at named
    cases named
  rw [unknownNames, bind_ok (elements_eq_ok walked)]
  split
  · dsimp only
    rw [if_neg unspelled]
  · rfl

/-- Only if all names are known, none is left. -/
theorem known_of_unknownNames (walked : value.elements? = some items)
    (none : value.unknownNames known = .ok []) : ∀ item ∈ items, isKnown known item = true := by
  intro item among
  by_cases texts : ∀ item ∈ items, item.IsText
  · cases unknown : isKnown known item with
    | true => rfl
    | false =>
        obtain ⟨name, names, left⟩ := unknownNames_of_texts walked texts among unknown
        rw [none] at left
        cases left
  · obtain ⟨other, member, odd⟩ : ∃ other ∈ items, ¬other.IsText := by
      simpa using texts
    rw [unknownNames_of_odd walked member odd] at none
    cases none

end Unknown

end Value

namespace SectionOptions

theorem ext_get {first second : SectionOptions}
    (same : ∀ field, first.get field = second.get field) : first = second := by
  obtain ⟨_, _, _, _, _, _, _, _⟩ := first
  obtain ⟨_, _, _, _, _, _, _, _⟩ := second
  rw [mk.injEq]
  exact ⟨same .description, same .style, same .endMarker, same .exportAll, same .spacing,
    same .sortItems, same .order, same .metadata⟩

theorem ofName?_name (field : OptionField) : OptionField.ofName? field.name = some field := by
  cases field <;> rfl

theorem setNamed_name (options : SectionOptions) (field : OptionField) (value : Value) :
    options.setNamed field.name value = options.set field value := by
  rw [setNamed, ofName?_name]

/-- An option that may stay null. -/
def Optional (field : OptionField) : Prop := field = .description ∨ field = .order

/-- The options are valid, and none of them is null that must not be. -/
structure Settled (options : SectionOptions) : Prop where
  valid : options.isValid = true
  given : ∀ field, (options.get field).isNull = true → Optional field

/-! ## Merging entries -/

section Merging

variable {options result : SectionOptions} {entries : Table}

/-- The options with entries in the place of some of them, not yet validated. -/
def replaced (options : SectionOptions) (entries : Table) : Except Failure SectionOptions := do
  let metadata ←
    if setsMetadata entries then pure options.metadata else options.metadata.toTable.map .table
  pure (setEntries { options with metadata := metadata } entries)

theorem replaced_of_isTable (table : isTable options.metadata = true) (entries : Table) :
    options.replaced entries = .ok (options.setEntries entries) := by
  obtain ⟨description, style, endMarker, exportAll, spacing, sortItems, order, metadata⟩ := options
  cases metadata with
  | table held =>
      unfold replaced
      cases setsMetadata entries <;> rfl
  | _ => cases table

/-- Where there is nothing to merge, nothing is validated. -/
theorem merged_nil (options : SectionOptions) :
    options.merged (.table []) = options.replaced [] := by
  have truthy : (Value.table []).isTruthy = false := rfl
  rw [merged, truthy, Bool.not_false, if_pos rfl, replaced]
  cases options.metadata.toTable <;> rfl

/-- Entries of known names are put in place, and the result is validated. -/
theorem merged_of_known (some : entries ≠ [])
    (known : ∀ key ∈ Table.keys entries, Value.isKnown OptionField.names key = true) :
    options.merged (.table entries) = (do
      let made ← options.replaced entries
      made.validate
      pure made) := by
  obtain ⟨entry, rest, rfl⟩ := List.exists_cons_of_ne_nil some
  have none : (Value.table (entry :: rest)).unknownNames OptionField.names = .ok [] :=
    Value.unknownNames_of_known rfl known
  have truthy : (Value.table (entry :: rest)).isTruthy = true := rfl
  rw [merged, truthy, if_neg (by decide), bind_ok none, replaced]
  cases setsMetadata (entry :: rest) with
  | true => rfl
  | false => cases options.metadata.toTable <;> rfl

theorem known_of_merged (merged : options.merged (.table entries) = .ok result) :
    ∀ key ∈ Table.keys entries, Value.isKnown OptionField.names key = true := by
  cases entries with
  | nil => nofun
  | cons entry rest =>
      have truthy : (Value.table (entry :: rest)).isTruthy = true := rfl
      rw [SectionOptions.merged, truthy, if_neg (by decide)] at merged
      obtain ⟨unknown, found, merged⟩ := exists_of_bind_ok merged
      cases unknown with
      | nil => exact Value.known_of_unknownNames rfl found
      | cons name names => cases merged

/-- What merging gives are the options with the entries in place, and they are valid if there are
any entries. -/
theorem replaced_of_merged (merged : options.merged (.table entries) = .ok result) :
    options.replaced entries = .ok result ∧ (entries ≠ [] → result.validate = .ok ()) := by
  by_cases none : entries = []
  · rw [none, merged_nil] at merged
    rw [none]
    exact ⟨merged, fun some => absurd rfl some⟩
  · rw [merged_of_known none (known_of_merged merged)] at merged
    obtain ⟨made, replaced, merged⟩ := exists_of_bind_ok merged
    obtain ⟨_, valid, merged⟩ := exists_of_bind_ok merged
    cases merged
    exact ⟨replaced, fun _ => valid⟩

theorem isTable_of_isValid (valid : options.isValid = true) : isTable options.metadata = true :=
  ((Bool.and_eq_true _ _).mp valid).2

/-- Of valid options merging makes the options with the entries in place, if they are valid. -/
theorem merged_eq_ok_iff (valid : options.isValid = true) :
    options.merged (.table entries) = .ok result ↔
      (∀ key ∈ Table.keys entries, Value.isKnown OptionField.names key = true) ∧
        (options.setEntries entries).isValid = true ∧ result = options.setEntries entries := by
  have inPlace := replaced_of_isTable (isTable_of_isValid valid) entries
  constructor
  · intro merged
    obtain ⟨replaced, validated⟩ := replaced_of_merged merged
    rw [inPlace] at replaced
    obtain rfl := Except.ok.inj replaced
    refine ⟨known_of_merged merged, ?_, rfl⟩
    by_cases none : entries = []
    · rw [none]
      exact valid
    · exact (validate_eq_ok_iff _).mp (validated none)
  · rintro ⟨known, settled, rfl⟩
    by_cases none : entries = []
    · rw [none] at inPlace ⊢
      exact (merged_nil options).trans inPlace
    · rw [merged_of_known none known, bind_ok inPlace]
      exact bind_ok ((validate_eq_ok_iff _).mpr settled)

end Merging

/-! ## Merging gives settled options -/

/-- One entry sets the option of its name, if it counts. -/
theorem get_setEntries_singleton (options : SectionOptions) (entry : Value × Value)
    (field : OptionField) :
    (options.setEntries [entry]).get field =
      if entry.1.same (.text field.name) && counts field.name entry.2 then entry.2
      else options.get field := by
  obtain ⟨key, value⟩ := entry
  dsimp only
  cases own : key.same (.text field.name) with
  | true =>
      obtain rfl := (Value.same_text _ _).mp own
      cases counting : counts field.name value with
      | true => simp [setEntries, counting, setNamed_name, get_set]
      | false => simp [setEntries, counting]
  | false =>
      cases key with
      | text name =>
          simp only [setEntries, List.foldl_cons, List.foldl_nil]
          split
          · rw [setNamed]
            cases found : OptionField.ofName? name with
            | none => rfl
            | some other =>
                have named : other.name = name := by
                  simpa using List.find?_some found
                have apart : field ≠ other := by
                  rintro rfl
                  rw [named, (Value.same_text _ _).mpr rfl] at own
                  cases own
                dsimp only
                rw [get_set, if_neg apart]
                rfl
          · rfl
      | _ => rfl

theorem setEntries_cons (options : SectionOptions) (entry : Value × Value) (overrides : Table) :
    options.setEntries (entry :: overrides) = (options.setEntries [entry]).setEntries overrides :=
  rfl

/-- What holds of the standard options and of what entries set holds after setting entries. -/
theorem forall_setEntries (holds : OptionField → Value → Prop) {options : SectionOptions}
    {overrides : Table} (start : ∀ field, holds field (options.get field))
    (given : ∀ entry ∈ overrides, ∀ field, entry.1 = .text field.name →
      counts field.name entry.2 = true → holds field entry.2) :
    ∀ field, holds field ((options.setEntries overrides).get field) := by
  induction overrides generalizing options with
  | nil => exact start
  | cons entry overrides ih =>
      rw [setEntries_cons]
      refine ih (fun field => ?_) fun other member => given other (List.mem_cons_of_mem entry member)
      rw [get_setEntries_singleton]
      split
      · next own =>
          obtain ⟨same, counting⟩ := Bool.and_eq_true_iff.mp own
          exact given entry List.mem_cons_self field ((Value.same_text _ _).mp same) counting
      · exact start field

/-- The standard options are kept, or changed by the entries of a table and found to be valid. -/
theorem standard_merged_cases {overrides : Value} {result : SectionOptions}
    (merged : standard.merged overrides = .ok result) :
    result.isValid = true ∧ (result = standard ∨
      ∃ entries, overrides = .table entries ∧ result = standard.setEntries entries) := by
  unfold SectionOptions.merged at merged
  split at merged
  · cases merged
    exact ⟨rfl, .inl rfl⟩
  · obtain ⟨unknown, _, merged⟩ := exists_of_bind_ok merged
    split at merged
    · cases merged
    cases overrides with
    | table entries =>
        have made : ((standard.setEntries entries).validate >>= fun _ =>
            pure (standard.setEntries entries)) = .ok result := by
          cases sets : setsMetadata entries with
          | true =>
              simp only [sets] at merged
              exact merged
          | false =>
              simp only [sets] at merged
              exact merged
        obtain ⟨_, valid, made⟩ := exists_of_bind_ok made
        cases made
        exact ⟨(validate_eq_ok_iff _).mp valid, .inr ⟨entries, rfl, rfl⟩⟩
    | _ => cases merged

theorem optional_of_isNull {field : OptionField} (null : (standard.get field).isNull = true) :
    Optional field := by
  cases field with
  | description => exact .inl rfl
  | order => exact .inr rfl
  | _ => cases null

theorem settled_of_merged {overrides : Value} {result : SectionOptions}
    (merged : standard.merged overrides = .ok result) : result.Settled := by
  obtain ⟨valid, rfl | ⟨entries, _, rfl⟩⟩ := standard_merged_cases merged
  · exact ⟨valid, fun _ => optional_of_isNull⟩
  · refine ⟨valid, forall_setEntries (fun field value => value.isNull = true → Optional field)
      (fun _ => optional_of_isNull) ?_⟩
    intro entry _ field _ counting null
    rw [counts, null] at counting
    exact .inr (by cases field <;> first | rfl | (revert counting; decide))

/-! ## Merging own entries -/

theorem merged_of_falsy {overrides : Value} (falsy : overrides.isTruthy = false) :
    standard.merged overrides = .ok standard := by
  unfold merged
  rw [falsy]
  rfl

/-- Overrides that count as nothing are as good as an empty table. -/
theorem merged_given (overrides : Value) :
    standard.merged (if overrides.isTruthy then overrides else .table []) =
      standard.merged overrides := by
  cases truthy : overrides.isTruthy with
  | true => rfl
  | false =>
      rw [merged_of_falsy truthy, if_neg Bool.false_ne_true]
      rfl

/-- Entries of known names are set and validated. -/
theorem standard_merged_table {overrides : Table}
    (known : ∀ key ∈ Table.keys overrides, Value.isKnown OptionField.names key = true) :
    standard.merged (.table overrides) = (standard.setEntries overrides).validate >>= fun _ =>
      pure (standard.setEntries overrides) := by
  by_cases none : overrides = []
  · rw [none]
    rfl
  · have inPlace : standard.replaced overrides = _ := replaced_of_isTable rfl overrides
    rw [merged_of_known none known, bind_ok inPlace]

/-- Overrides of known names set the options that count, if the result is valid. -/
theorem standard_merged_of_known {overrides : Table}
    (known : ∀ key ∈ Table.keys overrides, Value.isKnown OptionField.names key = true)
    (valid : (standard.setEntries overrides).isValid = true) :
    standard.merged (.table overrides) = .ok (standard.setEntries overrides) := by
  rw [standard_merged_table known, bind_ok ((validate_eq_ok_iff _).mpr valid)]
  rfl

theorem keys_entries (options : SectionOptions) :
    Table.keys options.entries = OptionField.names.map Value.text := by
  rw [entries, Table.keys, List.map_map, OptionField.names, List.map_map]
  rfl

/-- Setting entries of options sets those that count. -/
theorem get_setEntries (start options : SectionOptions) (fields : List OptionField)
    (other : OptionField) :
    (start.setEntries (fields.map fun field => (.text field.name, options.get field))).get other =
      if other ∈ fields ∧ counts other.name (options.get other) = true then options.get other
      else start.get other := by
  induction fields generalizing start with
  | nil => rfl
  | cons field fields ih =>
      rw [List.map_cons, setEntries, List.foldl_cons, ← setEntries]
      dsimp only
      rw [setNamed_name, ih]
      by_cases same : other = field
      · subst same
        cases counting : counts other.name (options.get other) with
        | true => simp [get_set]
        | false => simp
      · simp only [List.mem_cons, same, false_or]
        split
        · rfl
        · split
          · rw [get_set, if_neg same]
          · rfl

/-- Entries set an option to the value of its name, if it counts. -/
theorem get_setEntries_of_lawful {overrides : Table} (lawful : Table.Lawful overrides)
    (options : SectionOptions) (field : OptionField) :
    (options.setEntries overrides).get field =
      ((Table.field? overrides field.name).filter (counts field.name)).getD
        (options.get field) := by
  induction overrides generalizing options with
  | nil => rfl
  | cons entry overrides ih =>
      rw [setEntries_cons, ih (List.pairwise_cons.mp lawful).2, Table.field?_cons,
        get_setEntries_singleton]
      cases own : entry.1.same (.text field.name) with
      | true =>
          rw [lawful.field?_tail own]
          cases counting : counts field.name entry.2 <;> simp [Option.filter, counting]
      | false => simp

theorem standard_get_of_optional {field : OptionField} (free : Optional field) :
    standard.get field = .null := by
  rcases free with rfl | rfl <;> rfl

/-- Settled options are what merging makes of their entries. -/
theorem Settled.merged_entries {options : SectionOptions} (settled : options.Settled) :
    standard.merged (.table options.entries) = .ok options := by
  have result : standard.setEntries options.entries = options := by
    refine ext_get fun field => ?_
    rw [entries, get_setEntries]
    split
    · rfl
    · next skipped =>
        have null : (options.get field).isNull = true := by
          have among : field ∈ OptionField.all := by cases field <;> decide
          simp only [among, true_and, counts, Bool.or_eq_true, Bool.not_eq_true', not_or] at skipped
          simpa using skipped.1
        rw [standard_get_of_optional (settled.given field null), Value.eq_null_of_isNull null]
  have known : ∀ key ∈ Table.keys options.entries, Value.isKnown OptionField.names key = true := by
    intro key member
    rw [keys_entries] at member
    obtain ⟨name, among, rfl⟩ := List.mem_map.mp member
    exact List.contains_iff_mem.mpr among
  have merged := standard_merged_of_known known (by rw [result]; exact settled.valid)
  rw [merged, result]

end SectionOptions

end TypeScriptGen
