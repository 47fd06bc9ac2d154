import TypeScriptGen.Proofs.Document.Assembly
import TypeScriptGen.Proofs.Document.Misfits

/-!
# The options of registered sections

A section call merges the entries that it gives into the options that it starts
from, which are those of an object or the defaults. It validates the result only
if there are entries. So the options of a registered section are valid unless the
call gave none and started from options that were not: an object that nobody
validated, or defaults that were assigned to.
-/

namespace TypeScriptGen

namespace SectionOptions

/-- The options are valid, up to the metadata. -/
def isRegular (options : SectionOptions) : Bool :=
  isStyle options.style && isSpacing options.spacing && isOrder options.order

/-- Without entries only the metadata is replaced, by a table. -/
theorem isValid_of_replaced_nil {options result : SectionOptions}
    (replaced : options.replaced [] = .ok result) : result.isValid = options.isRegular := by
  obtain ⟨metadata, held, replaced⟩ := exists_of_bind_ok replaced
  obtain ⟨entries, _, rfl⟩ := exists_of_map_ok held
  cases replaced
  exact Bool.and_true _

theorem merged_valid_iff {options result : SectionOptions} {entries : Table}
    (merged : options.merged (.table entries) = .ok result) :
    result.validate = .ok () ↔ entries ≠ [] ∨ options.isRegular = true := by
  obtain ⟨replaced, validated⟩ := replaced_of_merged merged
  by_cases none : entries = []
  · rw [none] at replaced
    rw [validate_eq_ok_iff, isValid_of_replaced_nil replaced]
    exact (or_iff_right (not_not_intro none)).symm
  · exact iff_of_true (validated none) (.inl none)

end SectionOptions

theorem Section.options_run {commands : List Command}
    (keep : commands.all Command.keepsOptions = true) (current : Section) :
    (Outcome.run apply commands current).state.options = current.options :=
  have step (command : Command) (among : command ∈ commands) (state : Section)
      (same : state.options = current.options) :
      (state.apply command).state.options = current.options :=
    (options_apply (List.all_eq_true.mp keep command among) state).trans same
  Outcome.run_state_of_mem step rfl

namespace Document

/-! ## Section calls -/

/-- The options that a section call starts from. -/
def baseOf (document : Document) : OptionSource → Except Failure SectionOptions
  | .fields fields => SectionOptions.ofTable fields
  | .table _ => .ok document.configuration.defaults

/-- The entries that a section call merges into them; the overrides come after a table. -/
def givenOf (overrides : Table) : OptionSource → Table
  | .fields _ => overrides
  | .table options => Table.insertAll options overrides

/-- Opens a section with options and runs the calls on it. -/
def opened (document : Document) (name : Text) (options : SectionOptions)
    (calls : List Section.Command) : Outcome Document :=
  .embed document (Outcome.run Section.apply calls (.start name options)) fun added =>
    .ok { document with sections := document.sections ++ [added] }

section SectionCalls

variable {document : Document} {name : Text} {calls : List Section.Command}
  {source : OptionSource} {overrides : Table}

theorem sectionOptions_eq (named : (Table.keys overrides).all isOverrideKey = true) :
    document.sectionOptions source overrides =
      document.baseOf source >>= fun base => base.merged (.table (givenOf overrides source)) := by
  unfold sectionOptions
  rw [if_pos named]
  cases source <;> rfl

theorem exists_of_sectionOptions {options : SectionOptions}
    (made : document.sectionOptions source overrides = .ok options) :
    ∃ base, document.baseOf source = .ok base ∧
      base.merged (.table (givenOf overrides source)) = .ok options := by
  by_cases named : (Table.keys overrides).all isOverrideKey = true
  · rw [sectionOptions_eq named] at made
    exact exists_of_bind_ok made
  · unfold sectionOptions at made
    rw [if_neg named] at made
    cases made

theorem addSection_ok {options : SectionOptions}
    (made : document.sectionOptions source overrides = .ok options) :
    document.addSection name calls source overrides = document.opened name options calls := by
  rw [addSection, made]
  rfl

theorem addSection_error {failure : Failure}
    (failed : document.sectionOptions source overrides = .error failure) :
    document.addSection name calls source overrides = .failed document failure := by
  rw [addSection, failed]

end SectionCalls

/-! ## Registrations -/

/-- The options of a registered section, and what they were made of. -/
structure Registration where
  base : SectionOptions
  given : Table
  options : SectionOptions

/-- What a call registers. -/
def registrationsBy (command : Command) (document : Document) : List Registration :=
  match command with
  | .section name calls source overrides =>
      match (document.addSection name calls source overrides).result, document.baseOf source,
          document.sectionOptions source overrides with
      | .ok _, .ok base, .ok options => [⟨base, givenOf overrides source, options⟩]
      | _, _, _ => []
  | _ => []

/-- What calls register, in this order. -/
def registrations : List Command → Document → List Registration
  | [], _ => []
  | command :: commands, document =>
      registrationsBy command document ++ registrations commands (apply command document).state

/-- The options are those of the start with the given entries in place, and valid exactly if there
are entries or the start was valid up to the metadata. -/
structure Registration.Made (made : Registration) : Prop where
  replaced : made.base.replaced made.given = .ok made.options
  valid_iff : made.options.validate = .ok () ↔ made.given ≠ [] ∨ made.base.isRegular = true

theorem made_of_mem_registrationsBy {command : Command} {document : Document}
    {made : Registration} (member : made ∈ registrationsBy command document) : made.Made := by
  cases command with
  | «section» name calls source overrides =>
      unfold registrationsBy at member
      dsimp only at member
      split at member
      · next base options _ based given =>
          rw [List.mem_singleton.mp member]
          obtain ⟨start, same, merged⟩ := exists_of_sectionOptions given
          obtain rfl := Except.ok.inj (based.symm.trans same)
          exact ⟨(SectionOptions.replaced_of_merged merged).1,
            SectionOptions.merged_valid_iff merged⟩
      · cases member
  | _ => cases member

theorem made_of_mem_registrations {commands : List Command} {document : Document}
    {made : Registration} (member : made ∈ registrations commands document) : made.Made := by
  induction commands generalizing document with
  | nil => cases member
  | cons command commands ih =>
      exact (List.mem_append.mp member).elim made_of_mem_registrationsBy ih

/-! ## The sections of a document -/

/-- No call on a section assigns an option of it. -/
def Command.keepsOptions : Command → Bool
  | .section _ calls _ _ => calls.all Section.Command.keepsOptions
  | .inSection _ calls => calls.all Section.Command.keepsOptions
  | _ => true

def optionsHeld (document : Document) : List SectionOptions := document.sections.map Section.options

theorem optionsHeld_addSection (document : Document) (name : Text) {calls : List Section.Command}
    (keep : calls.all Section.Command.keepsOptions = true) (source : OptionSource)
    (overrides : Table) :
    (document.addSection name calls source overrides).state.optionsHeld =
      document.optionsHeld ++
        (registrationsBy (.section name calls source overrides) document).map
          Registration.options := by
  unfold registrationsBy
  dsimp only
  cases made : document.sectionOptions source overrides with
  | error failure =>
      rw [addSection_error made]
      exact (List.append_nil _).symm
  | ok options =>
      obtain ⟨base, based, _⟩ := exists_of_sectionOptions made
      -- the calls on the new section leave it the options that it was opened with
      have kept := Section.options_run keep (.start name options)
      rw [addSection_ok made, based]
      unfold opened Outcome.embed
      cases (Outcome.run Section.apply calls (.start name options)).result with
      | error failure => exact (List.append_nil _).symm
      | ok text =>
          simp only [optionsHeld, List.map_append, List.map_cons, List.map_nil, kept]
          rfl

theorem optionsHeld_onSection (document : Document) (index : Int) {calls : List Section.Command}
    (keep : calls.all Section.Command.keepsOptions = true) :
    (document.onSection index calls).state.optionsHeld = document.optionsHeld := by
  unfold onSection
  split
  · rfl
  · next found _ =>
      split
      · rfl
      · next current held =>
          have there : document.optionsHeld[found]? = some current.options := by
            rw [optionsHeld, List.getElem?_map, held]
            rfl
          rw [optionsHeld, List.map_set, Section.options_run keep]
          exact set_eq_self there

theorem optionsHeld_print (document : Document) :
    document.print.1.optionsHeld = document.optionsHeld := by
  have same := congrArg (List.map Section.options) document.forget_sections_print
  rwa [List.map_map, List.map_map] at same

/-- A call adds the options that it registers to those that are held. -/
theorem optionsHeld_apply {command : Command} (keep : command.keepsOptions = true)
    (document : Document) :
    (apply command document).state.optionsHeld =
      document.optionsHeld ++ (registrationsBy command document).map Registration.options := by
  cases command with
  | «section» name calls source overrides =>
      exact document.optionsHeld_addSection name keep source overrides
  | inSection index calls =>
      exact (document.optionsHeld_onSection index keep).trans (List.append_nil _).symm
  | setDefault name value => exact (List.append_nil _).symm
  | setMetadata name value => exact (List.append_nil _).symm
  | print => exact document.optionsHeld_print.trans (List.append_nil _).symm

theorem optionsHeld_after {commands : List Command}
    (keep : commands.all Command.keepsOptions = true) (document : Document) :
    (after commands document).optionsHeld =
      document.optionsHeld ++ (registrations commands document).map Registration.options := by
  induction commands generalizing document with
  | nil => exact (List.append_nil _).symm
  | cons command commands ih =>
      rw [List.all_cons, Bool.and_eq_true] at keep
      have rest := ih keep.2 (apply command document).state
      rw [optionsHeld_apply keep.1, List.append_assoc] at rest
      rw [registrations, List.map_append]
      exact rest

/-! ## What is validated -/

/-- In every run the sections hold the options that they were registered with, and these are valid
unless the call gave no entries and started from options that were not. Options that are not valid
are refused with the very complaint of validation where there are entries, which is a fault of the
configuration but for a spacing that cannot be compared, and accepted where there are none. -/
theorem registered_valid_iff (document : Document) :
    (∀ commands : List Command,
      (∀ made ∈ registrations commands document, made.Made) ∧
      (commands.all Command.keepsOptions = true →
        (after commands document).optionsHeld =
          document.optionsHeld ++ (registrations commands document).map Registration.options)) ∧
    ∀ (name : Text) (calls : List Section.Command) (source : OptionSource) (overrides : Table)
        (base options : SectionOptions) (failure : Failure),
      (Table.keys overrides).all isOverrideKey = true →
      document.baseOf source = .ok base →
      (∀ key ∈ Table.keys (givenOf overrides source),
        Value.isKnown OptionField.names key = true) →
      base.replaced (givenOf overrides source) = .ok options →
      options.validate = .error failure →
        (givenOf overrides source ≠ [] →
          apply (.section name calls source overrides) document = .failed document failure) ∧
        (givenOf overrides source = [] →
          apply (.section name calls source overrides) document =
            document.opened name options calls) ∧
        ((∀ field, (options.get field).holdsOversize = false) →
          ((∃ fault, failure = .config fault) ↔
            ¬(SectionOptions.isStyle options.style = true ∧
              options.spacing.isHashable = false))) := by
  constructor
  · exact fun commands =>
      ⟨fun _ => made_of_mem_registrations, fun keep => optionsHeld_after keep document⟩
  · intro name calls source overrides base options failure named based known replaced invalid
    have merging : document.sectionOptions source overrides = _ := sectionOptions_eq named
    rw [bind_ok based] at merging
    refine ⟨fun some => ?_, fun none => ?_, fun small => ?_⟩
    · refine addSection_error (merging.trans ?_)
      rw [SectionOptions.merged_of_known some known, bind_ok replaced, invalid]
      rfl
    · refine addSection_ok (merging.trans ?_)
      rw [none] at replaced ⊢
      exact base.merged_nil.trans replaced
    · rw [← SectionOptions.clear_validate_iff small, invalid]
      exact clear_error_iff.symm

/-- Assigns a spacing that there is none of to the defaults. -/
def wideSpacing : Command := .setDefault "spacing".toList (.text "wide".toList)

/-- A section from the defaults as they are. -/
def plainSection : Command := .section "A".toList [] (.table []) []

/-- A section with an option that has nothing to do with its spacing. -/
def markedSection : Command :=
  .section "B".toList [] (.table []) [(.text "add_end_comment".toList, .bool true)]

/-- Any override has the spacing looked at. -/
theorem registered_valid_wide :
    (after [plainSection, wideSpacing, markedSection] plainDocument).optionsHeld =
        (registrations [plainSection, wideSpacing, markedSection] plainDocument).map
          Registration.options ∧
      apply markedSection (after [wideSpacing] plainDocument) =
        .failed (after [wideSpacing] plainDocument)
          (.config (.invalidSpacing (.text "wide".toList))) := by
  refine ⟨((registered_valid_iff plainDocument).1 _).2 rfl, ?_⟩
  exact ((registered_valid_iff (after [wideSpacing] plainDocument)).2 _ _ _ _ _ _ _ (by decide) rfl
    (by decide) rfl rfl).1 (List.cons_ne_nil _ _)

/-- A spacing that no section may have, from the defaults. -/
theorem unvalidated_spacing_registered :
    (apply plainSection (after [wideSpacing] plainDocument)).result = .ok none ∧
      (after [wideSpacing, plainSection] plainDocument).optionsHeld.map SectionOptions.validate =
        [.error (.config (.invalidSpacing (.text "wide".toList)))] := ⟨rfl, rfl⟩

end Document

end TypeScriptGen
