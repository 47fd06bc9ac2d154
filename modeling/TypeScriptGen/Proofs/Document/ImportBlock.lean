import TypeScriptGen.Proofs.Document.Content

/-!
# The import block of a section

A section is printed as its header, the statements of its registries in the order
of their declaration, its content and its end marker. Which bindings a registry
writes is decided by the names that the content uses, the marks and the option to
write all, and by nothing else.
-/

namespace TypeScriptGen

def Item.registry? (item : Item) : Option Registry :=
  match item.payload with
  | .registry registry => some registry
  | _ => none

namespace Section

/-- The registries in the order of their declaration. -/
def registries (current : Section) : List Registry := current.items.filterMap Item.registry?

/-- The statements of the registries that write any, for the names that the content uses. -/
def importTexts (current : Section) : List Text :=
  (current.registries.map fun registry => registry.rendering current.usedNames).filter fun text =>
    !text.isEmpty

def importBlock (current : Section) : Text := ['\n'].intercalate current.importTexts

def contentTexts (current : Section) : List Text := current.content.map Item.text

/-- The text of a section around its import block and its content. -/
def page (current : Section) (gap header : Text) : Text :=
  let blocks := [current.importBlock, gap.intercalate current.contentTexts].filter fun block =>
    !block.isEmpty
  let body := if blocks.isEmpty then [] else [['\n', '\n'].intercalate blocks]
  let marker :=
    if current.options.endMarker.isTruthy then [Comment.sectionEnd current.name] else []
  ['\n'].intercalate (header :: body ++ marker)

/-! ## Printing -/

theorem mapM_printImport {items : List Item} (sound : ∀ item ∈ items, item.Sound)
    (names : List Text) :
    ((items.map (Item.reconcile names.contains)).filter Item.isImport).mapM Item.printImport =
      .ok ((items.filterMap Item.registry?).map fun registry =>
        some (registry.rendering names)) := by
  induction items with
  | nil => rfl
  | cons item items ih =>
      have rest := ih fun other member => sound other (List.mem_cons_of_mem item member)
      obtain ⟨kind, name, payload⟩ := item
      cases payload with
      | node node => exact rest
      | text text => exact rest
      | registry registry =>
          have counted : registry.Counted := sound _ List.mem_cons_self
          have printed : Item.printImport
              ⟨kind, name, .registry (registry.reconcile names.contains)⟩ =
                .ok (some (registry.rendering names)) :=
            congrArg (Except.map some) (Registry.print_reconcile names counted)
          change List.mapM Item.printImport
            (⟨kind, name, .registry (registry.reconcile names.contains)⟩ ::
              (items.map (Item.reconcile names.contains)).filter Item.isImport) = _
          rw [List.mapM_cons, printed, rest]
          rfl

theorem importLines_reconcile {current : Section} (sound : current.Sound) :
    importLines (current.reconcile current.usedNames.contains).imports =
      .ok current.importTexts := by
  refine (bind_ok (mapM_printImport sound current.usedNames)).trans ?_
  have written : ((current.registries.map fun registry =>
      some (registry.rendering current.usedNames)).filterMap id) =
        current.registries.map fun registry => registry.rendering current.usedNames := by
    rw [List.filterMap_map]
    exact congrFun List.filterMap_eq_map _
  exact congrArg (fun texts => Except.ok (texts.filter fun text => !text.isEmpty)) written

/-- Printing reconciles the registries with the names that the content uses, and lays the section
out around its import block. -/
theorem print_eq {current : Section} (sound : current.Sound) :
    current.print =
      (current.reconcile current.usedNames.contains, do
        let gap ← separator current.options.spacing
        let header ← Comment.sectionHeader current.name current.options.description
          current.options.metadata current.options.style
        pure (current.page gap header)) := by
  obtain ⟨tracker, printed, found⟩ := printContent_content sound
  have used : tracker.isUsed = current.usedNames.contains := by
    funext name
    exact Bool.eq_iff_iff.mpr (List.contains_iff_mem.trans
      ((found name).trans List.contains_iff_mem.symm))
  rw [print_ok printed, used]
  refine congrArg _ ((bind_ok (importLines_reconcile sound)).trans ?_)
  rfl

/-! ## Printing succeeds -/

end Section

namespace SectionOptions

/-- A text, or nothing. -/
def isOptionalText : Value → Bool
  | .null => true
  | .text _ => true
  | _ => false

/-- An entry of metadata whose key is a text. -/
def isTextEntry : Value × Value → Bool
  | (.text _, value) => isOptionalText value
  | _ => false

/-- The description and the metadata are given by texts. -/
def isTextual (options : SectionOptions) : Bool :=
  isOptionalText options.description &&
    match options.metadata with
    | .table entries => entries.all isTextEntry
    | _ => false

/-- A comment that is given in texts, if at all: in one, or in a list of them. -/
def isRemark : Value → Bool
  | .list lines => lines.all fun line => line.text?.isSome
  | comment => isOptionalText comment

/-- An entry of metadata that gives a text, or nothing, to a key that can be written. -/
def isTag (entry : Value × Value) : Bool := !entry.1.holdsOversize && isOptionalText entry.2

/-- The description can be read, and so can the metadata. -/
def isLegible (options : SectionOptions) : Bool :=
  isRemark options.description &&
    match options.metadata with
    | .table entries => entries.all isTag
    | _ => false

theorem isRemark_of_isOptionalText {comment : Value} (textual : isOptionalText comment = true) :
    isRemark comment = true := by
  cases comment with
  | list lines => cases textual
  | _ => exact textual

theorem isTag_of_isTextEntry {entry : Value × Value} (textual : isTextEntry entry = true) :
    isTag entry = true := by
  obtain ⟨key, value⟩ := entry
  cases key with
  | text name => exact textual
  | _ => cases textual

/-- Texts can be read. -/
theorem isLegible_of_isTextual {options : SectionOptions} (textual : options.isTextual = true) :
    options.isLegible = true := by
  unfold isTextual at textual
  obtain ⟨described, tagged⟩ := (Bool.and_eq_true _ _).mp textual
  refine (Bool.and_eq_true _ _).mpr ⟨isRemark_of_isOptionalText described, ?_⟩
  split at tagged
  · exact List.all_eq_true.mpr fun entry among =>
      isTag_of_isTextEntry (List.all_eq_true.mp tagged entry among)
  · cases tagged

end SectionOptions

namespace Section

open SectionOptions (isOptionalText isTextEntry isTextual isRemark isTag isLegible isSpacing)

/-- Texts are lines. -/
theorem mapM_display?_texts {items : List Value}
    (texts : (items.all fun item => item.text?.isSome) = true) :
    ∃ lines, items.mapM Value.display? = .ok lines := by
  induction items with
  | nil => exact ⟨[], rfl⟩
  | cons item items ih =>
      obtain ⟨first, rest⟩ := (Bool.and_eq_true _ _).mp texts
      obtain ⟨lines, read⟩ := ih rest
      cases item with
      | text content =>
          rw [List.mapM_cons]
          exact ⟨_, (bind_ok (Value.display?_text content)).trans (bind_ok read)⟩
      | ragged content =>
          rw [List.mapM_cons]
          have own : (Value.ragged content).display? = .ok content.shown := rfl
          exact ⟨_, (bind_ok own).trans (bind_ok read)⟩
      | _ => cases first

theorem linesOf_ok {comment : Value} (remark : isRemark comment = true) :
    ∃ lines, Comment.linesOf comment = .ok lines := by
  cases comment with
  | null => exact ⟨_, rfl⟩
  | text content => exact ⟨_, Comment.linesOf_text content⟩
  | list items =>
      cases items with
      | nil => exact ⟨_, rfl⟩
      | cons item items => exact mapM_display?_texts remark
  | _ => cases remark

theorem tagLines_ok {entries : Table} (legible : entries.all isTag = true) :
    ∃ lines, Comment.tagLines entries = .ok lines := by
  induction entries with
  | nil => exact ⟨[], rfl⟩
  | cons entry entries ih =>
      rw [List.all_cons, Bool.and_eq_true] at legible
      obtain ⟨lines, written⟩ := ih legible.2
      obtain ⟨key, value⟩ := entry
      obtain ⟨small, given⟩ := (Bool.and_eq_true _ _).mp legible.1
      have named : key.display? = .ok key.display := by
        rw [Value.display?, (Bool.not_eq_true' _).mp small, if_neg Bool.false_ne_true]
      cases value with
      | null => exact ⟨lines, written⟩
      | text content =>
          have line : Comment.tagLine key (.text content) =
              .ok ('@' :: key.display ++ ' ' :: content) := bind_ok named
          exact ⟨_, (bind_ok line).trans (bind_ok written)⟩
      | _ => cases given

theorem sectionHeader_ok (name : Text) {options : SectionOptions}
    (legible : options.isLegible = true) :
    ∃ header, Comment.sectionHeader name options.description options.metadata options.style =
      .ok header := by
  unfold isLegible at legible
  obtain ⟨described, tagged⟩ := (Bool.and_eq_true _ _).mp legible
  obtain ⟨lines, read⟩ := linesOf_ok described
  split at tagged
  · next entries same =>
      have table : Comment.entriesOf options.metadata = .ok entries := by
        rw [same]
        cases entries <;> rfl
      obtain ⟨tags, written⟩ := tagLines_ok tagged
      exact ⟨_, (bind_ok read).trans ((bind_ok table).trans (bind_ok written))⟩
  · cases tagged

theorem separator_ok {spacing : Value} (valid : isSpacing spacing = true) :
    ∃ gap, separator spacing = .ok gap := by
  cases spacing with
  | text content =>
      change ∃ gap, (if content = "compact".toList then Except.ok ['\n']
        else if content = "loose".toList then .ok ['\n', '\n', '\n'] else .ok ['\n', '\n']) =
          Except.ok gap
      split
      · exact ⟨_, rfl⟩
      · split <;> exact ⟨_, rfl⟩
  | _ => cases valid

/-- With valid options that can be read, a section is always printed. -/
theorem print_legible {current : Section} (sound : current.Sound)
    (valid : current.options.isValid = true) (legible : current.options.isLegible = true) :
    ∃ gap header, separator current.options.spacing = .ok gap ∧
      Comment.sectionHeader current.name current.options.description current.options.metadata
        current.options.style = .ok header ∧
      current.print.2 = .ok (current.page gap header) := by
  have spaced : isSpacing current.options.spacing = true := by
    simp only [SectionOptions.isValid, Bool.and_eq_true] at valid
    exact valid.1.1.2
  obtain ⟨gap, separated⟩ := separator_ok spaced
  obtain ⟨header, headed⟩ := sectionHeader_ok current.name legible
  refine ⟨gap, header, separated, headed, ?_⟩
  rw [print_eq sound]
  exact (bind_ok separated).trans (bind_ok headed)

/-- With valid options, described in texts, a section is always printed. -/
theorem print_eq_page {current : Section} (sound : current.Sound)
    (valid : current.options.isValid = true) (textual : current.options.isTextual = true) :
    ∃ gap header, separator current.options.spacing = .ok gap ∧
      Comment.sectionHeader current.name current.options.description current.options.metadata
        current.options.style = .ok header ∧
      current.print.2 = .ok (current.page gap header) :=
  print_legible sound valid (SectionOptions.isLegible_of_isTextual textual)

end Section

end TypeScriptGen
