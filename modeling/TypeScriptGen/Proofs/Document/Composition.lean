import TypeScriptGen.Proofs.Document.Registration

/-!
# Options that are given twice

A section call may give options as a table, or as an object, and overrides beside
them. The overrides of an object are merged into it, so a null leaves in force what
the object says. Those of a table are put into the table first, where a null takes
the place of the value that is there: what the table says is lost, and the default
comes back.
-/

namespace TypeScriptGen

namespace SectionOptions

variable {options first second result : SectionOptions} {table overrides : Table}

/-- Steps that set the option of a name set all options whose names are given. -/
theorem foldlM_fields {step : SectionOptions → Value × Value → Except Failure SectionOptions}
    (sets : ∀ made field value, step made (.text (OptionField.name field), value) =
      .ok (made.set field value)) (options : SectionOptions) (fields : List OptionField)
    (start : SectionOptions) :
    (fields.map fun field => (Value.text field.name, options.get field)).foldlM step start =
      .ok (fields.foldl (fun made field => made.set field (options.get field)) start) := by
  induction fields generalizing start with
  | nil => rfl
  | cons field fields ih =>
      rw [List.map_cons, List.foldlM_cons, sets]
      exact ih _

/-- Options are what their own entries make. -/
theorem ofTable_entries (options : SectionOptions) : ofTable options.entries = .ok options := by
  unfold ofTable entries
  rw [foldlM_fields]
  · simp only [OptionField.all, List.foldl_cons, List.foldl_nil, set, get]
  · intro made field value
    dsimp only
    rw [ofName?_name]

/-- Options that take each of their values from one of two valid ones are valid. -/
theorem isValid_of_either (left : first.isValid = true) (right : second.isValid = true)
    (either : ∀ field, result.get field = first.get field ∨ result.get field = second.get field) :
    result.isValid = true := by
  have pick (field : OptionField) (check : Value → Bool) (one : check (first.get field) = true)
      (other : check (second.get field) = true) : check (result.get field) = true := by
    rcases either field with same | same <;> rwa [same]
  simp only [isValid, Bool.and_eq_true] at left right ⊢
  obtain ⟨⟨⟨style, spacing⟩, order⟩, metadata⟩ := left
  obtain ⟨⟨⟨style', spacing'⟩, order'⟩, metadata'⟩ := right
  exact ⟨⟨⟨pick .style isStyle style style', pick .spacing isSpacing spacing spacing'⟩,
    pick .order isOrder order order'⟩, pick .metadata isTable metadata metadata'⟩

/-! ## Overrides that do not count -/

/-- The override for the option is null, which counts for the order alone. -/
structure Masked (overrides : Table) (field : OptionField) : Prop where
  null : Table.field? overrides field.name = some .null
  other : field ≠ .order

variable {field : OptionField}

theorem counts_null (other : field ≠ .order) : counts field.name .null = false := by
  cases field with
  | order => exact absurd rfl other
  | _ => decide

theorem masked_of_counts {value : Value} (found : Table.field? overrides field.name = some value)
    (idle : counts field.name value = false) : Masked overrides field := by
  obtain ⟨null, apart⟩ := Bool.or_eq_false_iff.mp idle
  rw [Value.eq_null_of_isNull ((Bool.not_eq_false' _).mp null)] at found
  refine ⟨found, ?_⟩
  rintro rfl
  exact absurd rfl (beq_eq_false_iff_ne.mp apart)

theorem Masked.get_setEntries (masked : Masked overrides field) (lawful : Table.Lawful overrides)
    (options : SectionOptions) : (options.setEntries overrides).get field = options.get field := by
  rw [get_setEntries_of_lawful lawful, masked.null, Option.filter_some, counts_null masked.other]
  rfl

/-- In a table, an override that does not count takes the place of a value that does. -/
theorem Masked.get_setEntries_insertAll (masked : Masked overrides field)
    (given : Table.Lawful table) (lawful : Table.Lawful overrides) (options : SectionOptions) :
    (options.setEntries (Table.insertAll table overrides)).get field = options.get field := by
  rw [get_setEntries_of_lawful (given.insertAll overrides), Table.field?_insertAll lawful,
    masked.null, Option.some_or, Option.filter_some, counts_null masked.other]
  rfl

/-- Otherwise setting the entries of both at once is setting those of the table and then the
overrides. -/
theorem get_setEntries_insertAll (unmasked : ¬Masked overrides field)
    (given : Table.Lawful table) (lawful : Table.Lawful overrides) (options : SectionOptions) :
    (options.setEntries (Table.insertAll table overrides)).get field =
      ((options.setEntries table).setEntries overrides).get field := by
  rw [get_setEntries_of_lawful (given.insertAll overrides), get_setEntries_of_lawful lawful,
    get_setEntries_of_lawful given, Table.field?_insertAll lawful]
  cases found : Table.field? overrides field.name with
  | none => rfl
  | some value =>
      cases counting : counts field.name value with
      | true => simp [Option.filter, counting]
      | false => exact absurd (masked_of_counts found counting) unmasked

/-! ## Merging twice -/

theorem isOverrideKey_of_isKnown {key : Value}
    (known : Value.isKnown OptionField.names key = true) : Document.isOverrideKey key = true := by
  have apart : ∀ name ∈ OptionField.names, (!Document.givenNames.contains name) = true := by decide
  cases key with
  | text name => exact apart name (List.contains_iff_mem.mp known)
  | _ => cases known

theorem known_insertAll
    (first : ∀ key ∈ Table.keys table, Value.isKnown OptionField.names key = true)
    (second : ∀ key ∈ Table.keys overrides, Value.isKnown OptionField.names key = true) :
    ∀ key ∈ Table.keys (Table.insertAll table overrides),
      Value.isKnown OptionField.names key = true := by
  have all := Table.forall_insertAll (fun key => Value.isKnown OptionField.names key = true)
    (fun _ => True) (fun entry among => ⟨first _ (List.mem_map_of_mem among), trivial⟩)
    fun entry among => ⟨second _ (List.mem_map_of_mem among), trivial⟩
  intro key among
  obtain ⟨entry, member, rfl⟩ := List.mem_map.mp among
  exact (all entry member).1

/-- What merging both tables at once gives, beside what merging one after the other gives. -/
structure Joined (overrides : Table) (start second both : SectionOptions) : Prop where
  masked : ∀ field, Masked overrides field → both.get field = start.get field
  unmasked : ∀ field, ¬Masked overrides field → both.get field = second.get field

/-- Where two merges in turn succeed, so does merging both tables at once. -/
theorem merged_insertAll (valid : options.isValid = true) (given : Table.Lawful table)
    (lawful : Table.Lawful overrides) (one : options.merged (.table table) = .ok first)
    (two : first.merged (.table overrides) = .ok second) :
    ∃ both, options.merged (.table (Table.insertAll table overrides)) = .ok both ∧
      Joined overrides options second both := by
  obtain ⟨known, settled, rfl⟩ := (merged_eq_ok_iff valid).mp one
  obtain ⟨knownToo, settledToo, rfl⟩ := (merged_eq_ok_iff settled).mp two
  have joined : Joined overrides options _ _ :=
    ⟨fun _ masked => masked.get_setEntries_insertAll given lawful options,
      fun _ unmasked => get_setEntries_insertAll unmasked given lawful options⟩
  refine ⟨_, (merged_eq_ok_iff valid).mpr ⟨known_insertAll known knownToo, ?_, rfl⟩, joined⟩
  -- a masked field has the value of the start again, any other that of both merges
  refine isValid_of_either valid settledToo fun field => ?_
  by_cases masked : Masked overrides field
  · exact .inl (joined.masked field masked)
  · exact .inr (joined.unmasked field masked)

end SectionOptions

namespace Document

open SectionOptions (Masked Joined)

/-- For options given as an object a section call registers what merging twice gives, and keeps what
the object says where an override is null. For those given as a table it registers the same only if
what the table says under such overrides is what the defaults say. -/
theorem register_composed_iff (document : Document) (table overrides : Table)
    (merged result : SectionOptions)
    (valid : document.configuration.defaults.validate = .ok ())
    (given : Table.Lawful table) (lawful : Table.Lawful overrides)
    (one : document.configuration.defaults.merged (.table table) = .ok merged)
    (two : merged.merged (.table overrides) = .ok result) (name : Text)
    (calls : List Section.Command) :
    apply (.section name calls (.fields merged.entries) overrides) document =
        document.opened name result calls ∧
      (∀ field, Masked overrides field → result.get field = merged.get field) ∧
      ∃ both, apply (.section name calls (.table table) overrides) document =
          document.opened name both calls ∧
        Joined overrides document.configuration.defaults result both ∧
        (both = result ↔ ∀ field, Masked overrides field →
          merged.get field = document.configuration.defaults.get field) := by
  have defaultsValid := (SectionOptions.validate_eq_ok_iff _).mp valid
  obtain ⟨_, settled, _⟩ := (SectionOptions.merged_eq_ok_iff defaultsValid).mp one
  have mergedValid : merged.isValid = true := by
    rw [((SectionOptions.merged_eq_ok_iff defaultsValid).mp one).2.2]
    exact settled
  obtain ⟨known, _, rfl⟩ := (SectionOptions.merged_eq_ok_iff mergedValid).mp two
  have named : (Table.keys overrides).all isOverrideKey = true :=
    List.all_eq_true.mpr fun key among =>
      SectionOptions.isOverrideKey_of_isKnown (known key among)
  have keeps (field : OptionField) (masked : Masked overrides field) :=
    masked.get_setEntries lawful merged
  obtain ⟨both, atOnce, joined⟩ :=
    SectionOptions.merged_insertAll defaultsValid given lawful one two
  refine ⟨addSection_ok ?_, keeps, both, addSection_ok ?_, joined, ?_⟩
  · rw [sectionOptions_eq named]
    exact (bind_ok (SectionOptions.ofTable_entries merged)).trans two
  · rw [sectionOptions_eq named]
    exact atOnce
  · constructor
    · rintro same field masked
      rw [← keeps field masked, ← same, joined.masked field masked]
    · intro same
      refine SectionOptions.ext_get fun field => ?_
      by_cases masked : Masked overrides field
      · rw [joined.masked field masked, keeps field masked, same field masked]
      · exact joined.unmasked field masked

/-- A description in a table, and overrides with and without a value. -/
private def aboutTable : Table := [(.text "description".toList, .text "About".toList)]

private def withoutText : Table :=
  [(.text "description".toList, .null), (.text "spacing".toList, .text "loose".toList)]

private def aboutOptions : SectionOptions :=
  { SectionOptions.standard with description := .text "About".toList }

private def looseOptions : SectionOptions := { aboutOptions with spacing := .text "loose".toList }

private theorem merged_about : SectionOptions.standard.merged (.table aboutTable) =
    .ok aboutOptions :=
  (SectionOptions.merged_eq_ok_iff rfl).mpr ⟨by decide, by decide, rfl⟩

private theorem merged_loose : aboutOptions.merged (.table withoutText) = .ok looseOptions :=
  (SectionOptions.merged_eq_ok_iff rfl).mpr ⟨by decide, by decide, rfl⟩

/-- The description of the object stays. -/
theorem register_composed_about :
    apply (.section "A".toList [] (.fields aboutOptions.entries) withoutText) plainDocument =
        plainDocument.opened "A".toList looseOptions [] ∧
      looseOptions.description = .text "About".toList :=
  ⟨(register_composed_iff plainDocument aboutTable withoutText aboutOptions looseOptions rfl
    (Table.lawful_ofList aboutTable) (Table.lawful_ofList withoutText) merged_about merged_loose
    "A".toList []).1, rfl⟩

/-- The description of the table is lost. -/
theorem table_description_lost :
    plainDocument.configuration.defaults.merged (.table aboutTable) = .ok aboutOptions ∧
      aboutOptions.merged (.table withoutText) = .ok looseOptions ∧
      apply (.section "A".toList [] (.table aboutTable) withoutText) plainDocument =
        plainDocument.opened "A".toList { looseOptions with description := .null } [] ∧
      looseOptions.description = .text "About".toList := by
  have atOnce : SectionOptions.standard.merged (.table withoutText) =
      .ok { looseOptions with description := .null } :=
    (SectionOptions.merged_eq_ok_iff rfl).mpr ⟨by decide, by decide, rfl⟩
  exact ⟨merged_about, merged_loose, addSection_ok atOnce, rfl⟩

end Document

end TypeScriptGen
