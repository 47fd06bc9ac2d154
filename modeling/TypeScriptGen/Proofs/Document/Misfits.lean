import TypeScriptGen.Proofs.Document.Defaults
import TypeScriptGen.Proofs.Json.Data

/-!
# Overrides of another kind

An outcome is clear when its failure, if there is one, is a fault of the
configuration. Overrides that come from JSON text are merged clearly, unless
something else than a table of options stands in their place, or a list or table
stands where the spacing should be.
-/

namespace TypeScriptGen

/-! ## Clear outcomes -/

/-- The failure, if there is one, is a fault of the configuration. -/
def Clear {α : Type} (outcome : Except Failure α) : Prop :=
  ∀ failure, outcome = .error failure → ∃ fault, failure = .config fault

section Clear

variable {α β : Type} {outcome : Except Failure α}

theorem clear_ok (result : α) : Clear (.ok result : Except Failure α) := nofun

theorem clear_config (fault : ConfigFault) : Clear (.error (.config fault) : Except Failure α) :=
  fun _ same => ⟨fault, (Except.error.inj same).symm⟩

theorem clear_error_iff {failure : Failure} :
    Clear (.error failure : Except Failure α) ↔ ∃ fault, failure = .config fault :=
  ⟨fun clear => clear failure rfl, fun fault _ same => Except.error.inj same ▸ fault⟩

theorem not_clear_error {failure : Failure} (other : ∀ fault, failure ≠ .config fault) :
    ¬Clear (.error failure : Except Failure α) := fun clear =>
  have ⟨fault, same⟩ := clear_error_iff.mp clear
  other fault same

theorem clear_bind_iff {next : α → Except Failure β} :
    Clear (outcome >>= next) ↔
      Clear outcome ∧ ∀ result, outcome = .ok result → Clear (next result) := by
  cases outcome with
  | ok result =>
      exact ⟨fun clear => ⟨clear_ok result, fun _ same => Except.ok.inj same ▸ clear⟩,
        fun clear => clear.2 result rfl⟩
  | error failure =>
      exact ⟨fun clear => ⟨clear_error_iff.mpr (clear_error_iff.mp clear), nofun⟩,
        fun clear => clear_error_iff.mpr (clear_error_iff.mp clear.1)⟩

theorem Value.Refused.not_clear (refused : Value.Refused outcome) : ¬Clear outcome := by
  rcases refused with rfl | rfl <;> exact not_clear_error nofun

end Clear

/-! ## Options -/

namespace SectionOptions

/-- Overrides that merging refuses otherwise than as a fault of the configuration: what is walked
through in vain, a list with something that is no text, a list of known names alone, and a table of
known names in which the spacing is a list or table, behind a valid style. -/
inductive Misfit : Value → Prop
  | unlisted {value : Value} (truthy : value.isTruthy = true) (single : value.elements? = none) :
      Misfit value
  | unnamed {items : List Value} {item : Value} (among : item ∈ items) (odd : ¬item.IsText) :
      Misfit (.list items)
  | listed {items : List Value} (some : items ≠ [])
      (known : ∀ item ∈ items, Value.isKnown OptionField.names item = true) : Misfit (.list items)
  | spacing {entries : Table} {spacing : Value}
      (known : ∀ key ∈ Table.keys entries, Value.isKnown OptionField.names key = true)
      (style : ∀ style, Table.field? entries OptionField.style.name = some style →
        style = .null ∨ isStyle style = true)
      (found : Table.field? entries OptionField.spacing.name = some spacing)
      (odd : spacing.isHashable = false) : Misfit (.table entries)

theorem Misfit.isTruthy {value : Value} (misfit : Misfit value) : value.isTruthy = true := by
  cases misfit with
  | unlisted truthy _ => exact truthy
  | unnamed among _ =>
      obtain ⟨_, _, rfl⟩ := List.exists_cons_of_ne_nil (List.ne_nil_of_mem among)
      rfl
  | listed some _ =>
      obtain ⟨_, _, rfl⟩ := List.exists_cons_of_ne_nil some
      rfl
  | spacing _ _ found _ =>
      have among := Table.mem_of_field? found
      obtain ⟨_, _, rfl⟩ := List.exists_cons_of_ne_nil (List.ne_nil_of_mem among)
      rfl

theorem clear_complaint {fault : Value → ConfigFault} {value : Value}
    (small : value.holdsOversize = false) :
    Clear (.error (complaint fault value) : Except Failure Unit) := by
  rw [complaint, small, if_neg Bool.false_ne_true]
  exact clear_config _

/-- Options are validated clearly unless the spacing is of a kind that cannot be compared. -/
theorem clear_validate_iff {options : SectionOptions}
    (small : ∀ field, (options.get field).holdsOversize = false) :
    Clear options.validate ↔
      ¬(isStyle options.style = true ∧ options.spacing.isHashable = false) := by
  unfold validate
  cases style : isStyle options.style with
  | false =>
      rw [Bool.not_false, if_pos rfl]
      exact iff_of_true (clear_complaint (small .style)) (fun odd => nomatch odd.1)
  | true =>
      rw [Bool.not_true, if_neg Bool.false_ne_true]
      cases hashable : options.spacing.isHashable with
      | false =>
          rw [Bool.not_false, if_pos rfl]
          exact iff_of_false (not_clear_error nofun) (not_not_intro ⟨rfl, rfl⟩)
      | true =>
          rw [Bool.not_true, if_neg Bool.false_ne_true]
          refine iff_of_true ?_ fun odd => nomatch odd.2
          split
          · exact clear_complaint (small .spacing)
          split
          · exact clear_complaint (small .order)
          split
          · exact clear_config _
          · exact clear_ok _

section Table

variable {entries : Table}

/-- An option other than the order has the value of its entry, unless that is null or missing. -/
theorem setEntries_cases (lawful : Table.Lawful entries) (field : OptionField)
    (other : field.name ≠ OptionField.order.name) :
    ((∀ value, Table.field? entries field.name = some value → value = .null) ∧
        (standard.setEntries entries).get field = standard.get field) ∨
      ∃ value, Table.field? entries field.name = some value ∧ value.isNull = false ∧
        (standard.setEntries entries).get field = value := by
  rw [get_setEntries_of_lawful lawful]
  cases found : Table.field? entries field.name with
  | none => exact .inl ⟨nofun, rfl⟩
  | some value =>
      have counting : counts field.name value = !value.isNull := by
        rw [counts, beq_eq_false_iff_ne.mpr other, Bool.or_false]
      cases null : value.isNull with
      | true =>
          refine .inl ⟨fun _ same => Option.some.inj same ▸ Value.eq_null_of_isNull null, ?_⟩
          rw [Option.filter, counting, null]
          rfl
      | false =>
          refine .inr ⟨value, rfl, null, ?_⟩
          rw [Option.filter, counting, null]
          rfl

theorem isStyle_setEntries_iff (lawful : Table.Lawful entries) :
    isStyle (standard.setEntries entries).style = true ↔
      ∀ style, Table.field? entries OptionField.style.name = some style →
        style = .null ∨ isStyle style = true := by
  rcases setEntries_cases lawful .style (by decide) with
    ⟨none, same⟩ | ⟨style, found, null, same⟩
  · rw [show (standard.setEntries entries).style = _ from same]
    exact iff_of_true rfl fun style found => .inl (none style found)
  · rw [show (standard.setEntries entries).style = _ from same, found]
    constructor
    · exact fun valid other own => .inr (Option.some.inj own ▸ valid)
    · intro valid
      rcases valid style rfl with rfl | valid
      · cases null
      · exact valid

theorem isHashable_setEntries_iff (lawful : Table.Lawful entries) :
    (standard.setEntries entries).spacing.isHashable = false ↔
      ∃ spacing, Table.field? entries OptionField.spacing.name = some spacing ∧
        spacing.isHashable = false := by
  rcases setEntries_cases lawful .spacing (by decide) with
    ⟨none, same⟩ | ⟨spacing, found, _, same⟩
  · rw [show (standard.setEntries entries).spacing = _ from same]
    refine iff_of_false (by decide) ?_
    rintro ⟨spacing, found, odd⟩
    rw [none spacing found] at odd
    cases odd
  · rw [show (standard.setEntries entries).spacing = _ from same, found]
    exact ⟨fun odd => ⟨spacing, rfl, odd⟩, fun ⟨_, own, odd⟩ => Option.some.inj own ▸ odd⟩

theorem clear_merged_table_iff (data : Json.Data (.table entries))
    (known : ∀ key ∈ Table.keys entries, Value.isKnown OptionField.names key = true) :
    Clear (standard.merged (.table entries)) ↔ ¬Misfit (.table entries) := by
  obtain ⟨lawful, _, all⟩ : Table.Lawful entries ∧ _ ∧ ∀ entry ∈ entries, Json.Data entry.2 := by
    cases data with
    | table lawful named all => exact ⟨lawful, named, all⟩
  have small : ∀ field, ((standard.setEntries entries).get field).holdsOversize = false :=
    forall_setEntries (fun _ value => value.holdsOversize = false)
      (fun field => by cases field <;> rfl)
      fun entry among _ _ _ => (all entry among).holdsOversize_eq_false
  have merged : Clear (standard.merged (.table entries)) ↔
      Clear (standard.setEntries entries).validate := by
    rw [standard_merged_table known]
    cases (standard.setEntries entries).validate with
    | ok _ => exact iff_of_true (clear_ok _) (clear_ok _)
    | error failure => exact clear_error_iff.trans clear_error_iff.symm
  rw [merged, clear_validate_iff small, isStyle_setEntries_iff lawful,
    isHashable_setEntries_iff lawful]
  refine not_congr ⟨fun ⟨style, spacing, found, odd⟩ => .spacing known style found odd, ?_⟩
  rintro (⟨_, single⟩ | _ | _ | ⟨_, style, found, odd⟩)
  · cases single
  · exact ⟨style, _, found, odd⟩

end Table

section Merged

variable {overrides : Value}

theorem merged_of_error (truthy : overrides.isTruthy = true) {failure : Failure}
    (refused : overrides.unknownNames OptionField.names = .error failure) :
    standard.merged overrides = .error failure := by
  unfold merged
  rw [truthy, refused]
  rfl

theorem merged_of_unknown (truthy : overrides.isTruthy = true) {name : Text} {names : List Text}
    (unknown : overrides.unknownNames OptionField.names = .ok (name :: names)) :
    standard.merged overrides = .error (.config (.unknownOptions (name :: names))) := by
  unfold merged
  rw [truthy, unknown]
  rfl

theorem isKnown_singleton (c : Char) : Value.isKnown OptionField.names (.text [c]) = false := by
  have longer : ∀ name ∈ OptionField.names, name.length ≠ 1 := by decide
  exact Bool.eq_false_iff.mpr fun known => longer [c] (List.contains_iff_mem.mp known) rfl

theorem isKnown_point (point : Text.Point) :
    Value.isKnown OptionField.names (Value.ofPoints [point]) = false := by
  cases point with
  | char c => exact isKnown_singleton c
  | surrogate place => rfl

theorem elements?_texts (data : Json.Data overrides) {items : List Value}
    (walked : overrides.elements? = some items) :
    (∀ item ∈ items, item.IsText) ∨ overrides = .list items := by
  cases data with
  | text _ | ragged _ => exact .inl (Value.isText_of_elements? ⟨_, rfl⟩ walked)
  | list _ =>
      cases walked
      exact .inr rfl
  | table _ named _ =>
      cases walked
      refine .inl fun key among => ?_
      obtain ⟨entry, member, rfl⟩ := List.mem_map.mp among
      exact named entry member
  | _ => cases walked

theorem Misfit.elements (misfit : Misfit overrides) {items : List Value}
    (walked : overrides.elements? = some items) :
    (∃ item ∈ items, ¬item.IsText) ∨
      ∀ item ∈ items, Value.isKnown OptionField.names item = true := by
  cases misfit with
  | unlisted _ single => cases single.symm.trans walked
  | unnamed among odd =>
      cases walked
      exact .inl ⟨_, among, odd⟩
  | listed _ known =>
      cases walked
      exact .inr known
  | spacing known _ _ _ =>
      cases walked
      exact .inr known

/-- Known names are the keys of a table, or they are listed without values. -/
theorem clear_merged_known (data : Json.Data overrides) (truthy : overrides.isTruthy = true)
    {items : List Value} (walked : overrides.elements? = some items)
    (known : ∀ item ∈ items, Value.isKnown OptionField.names item = true) :
    Clear (standard.merged overrides) ↔ ¬Misfit overrides := by
  cases data with
  | text content =>
      cases walked
      cases content with
      | nil => cases truthy
      | cons c content => cases (isKnown_singleton c).symm.trans (known _ (.head _))
  | ragged content =>
      cases walked
      obtain ⟨⟨point, points⟩, torn⟩ := content
      · cases torn
      · cases (isKnown_point _).symm.trans (known _ (.head _))
  | @list items _ =>
      cases walked
      have merged : standard.merged (.list items) = .error .unsupported := by
        unfold merged
        rw [truthy, Value.unknownNames_of_known rfl known]
        rfl
      have some : items ≠ [] := by
        rintro rfl
        cases truthy
      rw [merged]
      exact iff_of_false (not_clear_error nofun) (not_not_intro (.listed some known))
  | table lawful named all =>
      cases walked
      exact clear_merged_table_iff (.table lawful named all) known
  | _ => cases walked

/-- Merging with JSON data fails clearly unless the data is a misfit. -/
theorem clear_merged_iff (data : Json.Data overrides) :
    Clear (standard.merged overrides) ↔ ¬Misfit overrides := by
  cases truthy : overrides.isTruthy with
  | false =>
      rw [merged_of_falsy truthy]
      exact iff_of_true (clear_ok _) fun misfit => nomatch truthy.symm.trans misfit.isTruthy
  | true =>
      have refuses (refused : overrides.unknownNames OptionField.names = .error .wrongKind)
          (misfit : Misfit overrides) : Clear (standard.merged overrides) ↔ ¬Misfit overrides := by
        rw [merged_of_error truthy refused]
        exact iff_of_false (not_clear_error nofun) (not_not_intro misfit)
      cases walked : overrides.elements? with
      | none =>
          refine refuses ?_ (.unlisted truthy walked)
          rw [Value.unknownNames, Value.elements, walked]
          rfl
      | some items =>
          by_cases texts : ∀ item ∈ items, item.IsText
          · by_cases known : ∀ item ∈ items, Value.isKnown OptionField.names item = true
            · exact clear_merged_known data truthy walked known
            · obtain ⟨item, among, unknown⟩ :
                  ∃ item ∈ items, Value.isKnown OptionField.names item = false := by
                simpa using known
              obtain ⟨name, names, left⟩ := Value.unknownNames_of_texts walked texts among unknown
              rw [merged_of_unknown truthy left]
              refine iff_of_true (clear_config _) fun misfit => ?_
              rcases misfit.elements walked with ⟨other, member, odd⟩ | all
              · exact odd (texts other member)
              · exact known all
          · obtain ⟨item, among, odd⟩ : ∃ item ∈ items, ¬item.IsText := by
              simpa using texts
            refine refuses (Value.unknownNames_of_odd walked among odd) ?_
            rcases elements?_texts data walked with all | rfl
            · exact absurd all texts
            · exact .unnamed among odd

end Merged

end SectionOptions

end TypeScriptGen
