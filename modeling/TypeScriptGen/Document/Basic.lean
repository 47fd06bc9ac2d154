import TypeScriptGen.Document.Configuration
import TypeScriptGen.Document.Section
import TypeScriptGen.Sorting
import TypeScriptGen.Value.Order

/-!
# Documents

A document is a header, which is fixed when the document is started, and
sections. Sections with an order are written first, the lowest first; sections
of the same order and those without one keep the order of registration. Orders
are values of any kind, and when two of them have to be compared and cannot be,
the document is not printed.
-/

namespace TypeScriptGen

structure Document where
  configuration : Configuration
  header : Text
  sections : List Section

namespace Document

def title : Text := "Generated TypeScript code".toList

/-- The header above the sections; without tags there is none. -/
def headerText (tags : Table) : Except Failure Text :=
  if tags.isEmpty then .ok []
  else Comment.format (.text title) (.text "multi".toList) (.table tags)

def start (clock : Clock) (configuration : Configuration) :
    Except Failure Document × List Warning :=
  let (tags, warnings) := configuration.metadata.tags clock
  (do
    let tags ← tags
    let header ← headerText tags
    pure ⟨configuration, header, []⟩, warnings)

/-- Options for one section: a table that is merged into the defaults, or the fields of options
that stand in their place. -/
inductive OptionSource
  | table (options : Table)
  | fields (fields : Table)

inductive Command
  | section (name : Text) (commands : List Section.Command) (source : OptionSource)
      (overrides : Table)
  | inSection (index : Int) (commands : List Section.Command)
  | setDefault (name : Text) (value : Value)
  | setMetadata (name : Text) (value : Value)
  | print

/-- The names of what a section is made from beside its overrides. -/
def givenNames : List Text := ["self", "name", "callback", "options"].map String.toList

/-- A key that can name an override. -/
def isOverrideKey : Value → Bool
  | .text name => !givenNames.contains name
  | _ => false

/-- The options of a section: its own options, then the overrides. -/
def sectionOptions (document : Document) (source : OptionSource) (overrides : Table) :
    Except Failure SectionOptions :=
  if (Table.keys overrides).all isOverrideKey then
    match source with
    | .fields fields => do
        let options ← SectionOptions.ofTable fields
        options.merged (.table overrides)
    | .table options =>
        document.configuration.defaults.merged (.table (Table.insertAll options overrides))
  else .error .wrongKind

def addSection (document : Document) (name : Text) (commands : List Section.Command)
    (source : OptionSource) (overrides : Table) : Outcome Document :=
  match document.sectionOptions source overrides with
  | .error failure => .failed document failure
  | .ok options =>
      let part := Outcome.run Section.apply commands (.start name options)
      .embed document part fun added => .ok { document with sections := document.sections ++ [added] }

/-- Runs commands on a section that the document holds already. -/
def onSection (document : Document) (index : Int) (commands : List Section.Command) :
    Outcome Document :=
  match Section.place document.sections.length index with
  | none => .failed document .noItem
  | some found =>
      match document.sections[found]? with
      | none => .failed document .noItem
      | some current =>
          let part := Outcome.run Section.apply commands current
          ⟨{ document with sections := document.sections.set found part.state }, part.warnings,
            part.result⟩

def setDefault (document : Document) (name : Text) (value : Value) : Document :=
  let configuration := document.configuration
  { document with
    configuration :=
      { configuration with defaults := configuration.defaults.setNamed name value } }

/-- Sets a field of the metadata; the header stays as it is. -/
def setMetadata (document : Document) (name : Text) (value : Value) : Document :=
  let configuration := document.configuration
  { document with
    configuration :=
      { configuration with metadata := configuration.metadata.setNamed name value } }

/-! ## Order -/

/-- The order of a section, if it has one; an empty value counts as zero. -/
def orderOf (current : Section) : Option Value :=
  match current.options.order with
  | .null => none
  | order => some (if order.isTruthy then order else .int 0)

/-- Whether one section comes before another; no answer for orders that cannot be compared. Orders
that are the same need no comparison. -/
def precedes? (first second : Section) : Option Bool :=
  match orderOf first, orderOf second with
  | some a, some b => if a.same b then some false else a.less? b
  | some _, none => some true
  | none, _ => some false

/-- Sections with their places of registration, in the order of writing. -/
def ordered? (sections : List Section) : Option (List (Section × Nat)) :=
  Sorting.sort (fun first second => precedes? first.1 second.1) sections.zipIdx

/-! ## Printing -/

/-- Prints sections one after the other, up to the first that fails. -/
def printSections : List (Section × Nat) → List Section → List Section × Except Failure (List Text)
  | [], sections => (sections, .ok [])
  | (current, found) :: rest, sections =>
      let (next, text) := current.print
      let sections := sections.set found next
      match text with
      | .error failure => (sections, .error failure)
      | .ok text =>
          let (sections, texts) := printSections rest sections
          (sections, texts.map (text :: ·))

/-- The header and the texts of the sections; nothing at all when there is neither. -/
def layout (header : Text) (texts : List Text) : Text :=
  let parts :=
    (if header.isEmpty then [] else [header]) ++
      (if texts.isEmpty then [] else [['\n', '\n'].intercalate texts])
  if parts.isEmpty then [] else ['\n'].intercalate parts ++ ['\n']

def print (document : Document) : Document × Except Failure Text :=
  match ordered? document.sections with
  | none => (document, .error .wrongKind)
  | some sections =>
      let (sections, texts) := printSections sections document.sections
      ({ document with sections := sections }, texts.map (layout document.header))

def apply (command : Command) (document : Document) : Outcome Document :=
  match command with
  | .section name commands source overrides => document.addSection name commands source overrides
  | .inSection index commands => document.onSection index commands
  | .setDefault name value => .done (document.setDefault name value)
  | .setMetadata name value => .done (document.setMetadata name value)
  | .print =>
      let (next, text) := document.print
      .answered next text

end Document

end TypeScriptGen
