import TypeScriptGen.Declaration.Alias
import TypeScriptGen.Declaration.Enumeration
import TypeScriptGen.Declaration.Interface
import TypeScriptGen.Declaration.Object
import TypeScriptGen.Document.Options
import TypeScriptGen.Import.Registry
import TypeScriptGen.Statement.Draft

/-!
# Sections

A section holds declarations, statements and import registries in the order in
which they were added. It is written in two phases. First every declaration and
statement is printed, and the names in its node and in its text are collected;
then each registry is reconciled with these names and printed. So an imported name
is kept whenever anything in the section uses it, wherever either of them stands.
-/

namespace TypeScriptGen

inductive ItemKind
  | interface
  | type
  | enumeration
  | object
  | registry
  | conditional
  | switch
  | forLoop
  | whileLoop
  | doLoop
deriving DecidableEq

/-- What an item holds: a node, a text, or a registry that is printed last. -/
inductive Payload
  | node (node : Node)
  | text (text : Text)
  | registry (registry : Registry)

structure Item where
  kind : ItemKind
  name : Text
  payload : Payload

namespace ItemKind

def name : ItemKind → Text
  | .interface => "interface".toList
  | .type => "type".toList
  | .enumeration => "enum".toList
  | .object => "object".toList
  | .registry => "import".toList
  | .conditional => "if".toList
  | .switch => "switch".toList
  | .forLoop => "for".toList
  | .whileLoop => "while".toList
  | .doLoop => "do_while".toList

end ItemKind

namespace Item

def isImport (item : Item) : Bool :=
  match item.payload with
  | .registry _ => true
  | _ => false

def print (item : Item) : Except Failure Text :=
  match item.payload with
  | .text text => .ok text
  | .node node => node.print
  | .registry _ => .error (.importItem item.name)

/-- The code of an item that is scanned for names: its node, if it has one, and its text. -/
def fragments (item : Item) (text : Text) : List Usage.Fragment :=
  match item.payload with
  | .node node => [.node node, .code text]
  | _ => [.code text]

def reconcile (isUsed : Text → Bool) (item : Item) : Item :=
  match item.payload with
  | .registry registry => { item with payload := .registry (registry.reconcile isUsed) }
  | _ => item

/-- The import statements of an item, if it is a registry. -/
def printImport (item : Item) : Except Failure (Option Text) :=
  match item.payload with
  | .registry registry => (registry.print none none).map some
  | _ => .ok none

end Item

structure Section where
  name : Text
  options : SectionOptions
  items : List Item

namespace Section

def start (name : Text) (options : SectionOptions) : Section := ⟨name, options, []⟩

/-- A type is given by its text or by commands. -/
inductive AliasSource
  | text (type : Text)
  | commands (commands : List AliasDraft.Command)

inductive Command
  | interface (name : Text) (commands : List InterfaceDraft.Command)
  | type (name : Text) (source : AliasSource) (exported : Option Bool) (comment : Value)
  | enumeration (name : Text) (commands : List EnumDraft.Command) (constant : Bool)
  | object (commands : List ObjectDraft.Command) (name : Text) (exported : Option Bool)
      (constant : Bool) (comment : Value)
  | imports (module : Text) (commands : List Registry.Command) (includeUnused typeOnly : Bool)
  | conditional (commands : List ConditionalCommand)
  | switch (commands : List SwitchCommand)
  | forLoop (commands : List ForCommand)
  | loop (kind : LoopKind) (commands : List LoopCommand)
  | registry (index : Int) (commands : List Registry.Command)
  | option (name : Text) (value : Value)
  | printItem (index : Int)
  | print

/-! ## Adding items -/

def add (current : Section) (kind : ItemKind) (name : Text) (payload : Payload) : Section :=
  { current with items := current.items ++ [⟨kind, name, payload⟩] }

def exportsAll (current : Section) : Bool := current.options.exportAll.isTruthy

def isExported (current : Section) (exported : Option Bool) : Bool :=
  exported.getD current.exportsAll

def addInterface (current : Section) (name : Text) (commands : List InterfaceDraft.Command) :
    Outcome Section :=
  let part := Outcome.run InterfaceDraft.apply commands (.start name current.exportsAll)
  .embed current part fun draft => .ok (current.add .interface name (.node draft.node))

/-- A comment that is not empty is set before the commands run. -/
def commented {σ : Type} (comment : Value) (set : σ → Value → Except Failure σ) (draft : σ) :
    Except Failure σ :=
  if comment.isTruthy then set draft comment else .ok draft

def addType (current : Section) (name : Text) (source : AliasSource) (exported : Option Bool)
    (comment : Value) : Outcome Section :=
  match source with
  | .text type =>
      .ofExcept current do
        let lines ← Comment.linesOf comment
        let node := Node.typeAlias name (Syntax.parseType type) [] (current.isExported exported) lines
        pure (current.add .type name (.node node), none)
  | .commands commands =>
      match commented comment AliasDraft.setComment (.start name (current.isExported exported)) with
      | .error failure => .failed current failure
      | .ok draft =>
          let part := Outcome.run AliasDraft.apply commands draft
          .embed current part fun draft => .ok (current.add .type name (.node draft.node))

def addEnumeration (current : Section) (name : Text) (commands : List EnumDraft.Command)
    (constant : Bool) : Outcome Section :=
  let part := Outcome.run EnumDraft.apply commands (.start name current.exportsAll constant)
  .embed current part fun draft => .ok (current.add .enumeration name (.node draft.node))

def objectName (name : Text) : Text := if name.isEmpty then "anonymousObject".toList else name

def addObject (current : Section) (commands : List ObjectDraft.Command) (name : Text)
    (exported : Option Bool) (constant : Bool) (comment : Value) : Outcome Section :=
  .ofExcept current do
    let fresh := ObjectDraft.start name (current.isExported exported) constant
    let draft ← commented comment ObjectDraft.setComment fresh
    let draft ← draft.steps commands
    let text ← draft.print
    pure (current.add .object (objectName name) (.text text), none)

def addImports (current : Section) (module : Text) (commands : List Registry.Command)
    (includeUnused typeOnly : Bool) : Outcome Section :=
  let part := Outcome.run Registry.apply commands (.start module includeUnused typeOnly)
  .embed current part fun registry => .ok (current.add .registry module (.registry registry))

/-- Adds a statement, which is named after its kind. -/
def addStatement (current : Section) (kind : ItemKind) (node : Except Failure Node) :
    Outcome Section :=
  .ofExcept current (node.map fun node => (current.add kind kind.name (.node node), none))

def addConditional (current : Section) (commands : List ConditionalCommand) : Outcome Section :=
  current.addStatement .conditional do
    let draft ← ConditionalDraft.steps .empty commands
    draft.node

def addSwitch (current : Section) (commands : List SwitchCommand) : Outcome Section :=
  current.addStatement .switch do
    let draft ← SwitchDraft.steps .empty commands
    draft.node

def addForLoop (current : Section) (commands : List ForCommand) : Outcome Section :=
  current.addStatement .forLoop do
    let draft ← ForDraft.steps .empty commands
    draft.node

def loopItem : LoopKind → ItemKind
  | .whileLoop => .whileLoop
  | .doLoop => .doLoop

def addLoop (current : Section) (kind : LoopKind) (commands : List LoopCommand) :
    Outcome Section :=
  current.addStatement (loopItem kind) do
    let draft ← LoopDraft.steps kind .empty commands
    draft.node kind

/-! ## Printing -/

def separator (spacing : Value) : Except Failure Text :=
  if !spacing.isHashable then .error .wrongKind
  else
    match spacing with
    | .text content =>
        if content = "compact".toList then .ok ['\n']
        else if content = "loose".toList then .ok ['\n', '\n', '\n']
        else .ok ['\n', '\n']
    | _ => .ok ['\n', '\n']

def imports (current : Section) : List Item := current.items.filter Item.isImport

def contentInOrder (current : Section) : List Item :=
  current.items.filter fun item => !item.isImport

def sortByName (items : List Item) : List Item :=
  items.mergeSort fun first second => !(second.name < first.name)

/-- The items that are no imports, as they are written. -/
def content (current : Section) : List Item :=
  if current.options.sortItems.isTruthy then sortByName current.contentInOrder
  else current.contentInOrder

/-- Prints items one after the other and scans each into the tracker. -/
def printContent : List Item → Usage.Tracker → Except Failure (List Text × Usage.Tracker)
  | [], tracker => .ok ([], tracker)
  | item :: items, tracker => do
      let text ← item.print
      let (tracker, scanned) := tracker.scanAll (item.fragments text)
      scanned
      let (texts, tracker) ← printContent items tracker
      pure (text :: texts, tracker)

/-- The lines of imports, without those of registries that keep nothing. -/
def importLines (items : List Item) : Except Failure (List Text) := do
  let lines ← items.mapM Item.printImport
  pure ((lines.filterMap id).filter fun line => !line.isEmpty)

/-- The header, the body and the end marker around the texts of a section. -/
def layout (current : Section) (imports contents : List Text) : Except Failure Text := do
  let gap ← separator current.options.spacing
  let blocks := [['\n'].intercalate imports, gap.intercalate contents].filter fun block =>
    !block.isEmpty
  let header ← Comment.sectionHeader current.name current.options.description
    current.options.metadata current.options.style
  let body := if blocks.isEmpty then [] else [['\n', '\n'].intercalate blocks]
  let marker :=
    if current.options.endMarker.isTruthy then [Comment.sectionEnd current.name] else []
  pure (['\n'].intercalate (header :: body ++ marker))

/-- Prints the section; its registries are left reconciled with the names that it uses. -/
def print (current : Section) : Section × Except Failure Text :=
  match printContent current.content .empty with
  | .error failure => (current, .error failure)
  | .ok (contents, tracker) =>
      let next :=
        { current with items := current.items.map (Item.reconcile tracker.freeze.isUsed) }
      (next, do
        let lines ← importLines next.imports
        next.layout lines contents)

/-! ## Commands -/

/-- The place that an index means; a negative one counts from the end. -/
def place (count : Nat) (index : Int) : Option Nat :=
  let found := if index < 0 then index + count else index
  if 0 ≤ found && found < count then some found.toNat else none

def item? (current : Section) (index : Int) : Option (Nat × Item) := do
  let found ← place current.items.length index
  let item ← current.items[found]?
  pure (found, item)

/-- Runs commands on a registry that the section holds already. -/
def onRegistry (current : Section) (index : Int) (commands : List Registry.Command) :
    Outcome Section :=
  match current.item? index with
  | none => .failed current .noItem
  | some (found, item) =>
      match item.payload with
      | .registry registry =>
          let part := Outcome.run Registry.apply commands registry
          let changed := { item with payload := .registry part.state }
          ⟨{ current with items := current.items.set found changed }, part.warnings, part.result⟩
      | _ => if commands.isEmpty then .done current else .failed current .unsupported

def setOption (current : Section) (name : Text) (value : Value) : Section :=
  { current with options := current.options.setNamed name value }

def printItem (current : Section) (index : Int) : Except Failure Text :=
  match current.item? index with
  | none => .error .noItem
  | some (_, item) => item.print

def apply (command : Command) (current : Section) : Outcome Section :=
  match command with
  | .interface name commands => current.addInterface name commands
  | .type name source exported comment => current.addType name source exported comment
  | .enumeration name commands constant => current.addEnumeration name commands constant
  | .object commands name exported constant comment =>
      current.addObject commands name exported constant comment
  | .imports module commands includeUnused typeOnly =>
      current.addImports module commands includeUnused typeOnly
  | .conditional commands => current.addConditional commands
  | .switch commands => current.addSwitch commands
  | .forLoop commands => current.addForLoop commands
  | .loop kind commands => current.addLoop kind commands
  | .registry index commands => current.onRegistry index commands
  | .option name value => .done (current.setOption name value)
  | .printItem index => .answered current (current.printItem index)
  | .print =>
      let (next, text) := current.print
      .answered next text

end Section

end TypeScriptGen
