import TypeScriptGen.Document.Basic
import TypeScriptGen.Proofs.Outcome.Procedure

/-!
# Calls that take a part

A document, a section, a block, a statement or an object takes parts: the call
makes a fresh object, hands it to a callback, and uses what the callback made of
it. Here these calls are procedures that work in place, with any callback. The
commands for them do what the calls do whose callbacks run the inner commands.
-/

namespace TypeScriptGen

open Procedure (calls compute hand look take update)

/-! ## Statements and receivers -/

/-- The statements that are drafted on their own. -/
inductive StatementForm
  | conditional
  | switch
  | forLoop
  | loop (kind : LoopKind)

namespace StatementForm

@[reducible] def Draft : StatementForm → Type
  | .conditional => ConditionalDraft
  | .switch => SwitchDraft
  | .forLoop => ForDraft
  | .loop _ => LoopDraft

@[reducible] def Command : StatementForm → Type
  | .conditional => ConditionalCommand
  | .switch => SwitchCommand
  | .forLoop => ForCommand
  | .loop _ => LoopCommand

def empty : (form : StatementForm) → form.Draft
  | .conditional => ConditionalDraft.empty
  | .switch => SwitchDraft.empty
  | .forLoop => ForDraft.empty
  | .loop _ => LoopDraft.empty

def node : (form : StatementForm) → form.Draft → Except Failure Node
  | .conditional, draft => ConditionalDraft.node draft
  | .switch, draft => SwitchDraft.node draft
  | .forLoop, draft => ForDraft.node draft
  | .loop kind, draft => LoopDraft.node draft kind

def steps : (form : StatementForm) → form.Draft → List form.Command → Except Failure form.Draft
  | .conditional, draft, commands => ConditionalDraft.steps draft commands
  | .switch, draft, commands => SwitchDraft.steps draft commands
  | .forLoop, draft, commands => ForDraft.steps draft commands
  | .loop kind, draft, commands => LoopDraft.steps kind draft commands

def apply : (form : StatementForm) → form.Command → form.Draft → Outcome form.Draft
  | .conditional, command, draft => ConditionalDraft.apply command draft
  | .switch, command, draft => SwitchDraft.apply command draft
  | .forLoop, command, draft => ForDraft.apply command draft
  | .loop kind, command, draft => LoopDraft.apply kind command draft

def itemKind : StatementForm → ItemKind
  | .conditional => .conditional
  | .switch => .switch
  | .forLoop => .forLoop
  | .loop kind => Section.loopItem kind

end StatementForm

/-- What takes parts. -/
inductive Receiver
  | document
  | section
  | block
  | statement (form : StatementForm)
  | object

namespace Receiver

@[reducible] def State : Receiver → Type
  | .document => Document
  | .section => Section
  | .block => BlockDraft
  | .statement form => form.Draft
  | .object => ObjectDraft

@[reducible] def Command : Receiver → Type
  | .document => Document.Command
  | .section => Section.Command
  | .block => BlockCommand
  | .statement form => form.Command
  | .object => ObjectDraft.Command

def apply : (receiver : Receiver) → receiver.Command → receiver.State → Outcome receiver.State
  | .document, command, state => Document.apply command state
  | .section, command, state => Section.apply command state
  | .block, command, state => BlockDraft.apply command state
  | .statement form, command, state => form.apply command state
  | .object, command, state => ObjectDraft.apply command state

/-- The text that the receiver gives when it is printed next. -/
def text : (receiver : Receiver) → receiver.State → Except Failure Text
  | .document, state => (Document.print state).2
  | .section, state => (Section.print state).2
  | .block, state => (BlockDraft.node state).print
  | .statement form, state => form.node state >>= Node.print
  | .object, state => ObjectDraft.print state

end Receiver

/-! ## Calls -/

/-- The calls that take a part, with any callback, and the declaration of a type by its text. -/
inductive Call : Receiver → Type
  | addSection (name : Text) (source : Document.OptionSource) (overrides : Table)
      (callback : Procedure Section Unit) : Call .document
  | interface (name : Text) (callback : Procedure InterfaceDraft Unit) : Call .section
  | typeText (name text : Text) (exported : Option Bool) (comment : Value) : Call .section
  | type (name : Text) (exported : Option Bool) (comment : Value)
      (callback : Procedure AliasDraft Unit) : Call .section
  | enumeration (name : Text) (constant : Bool) (callback : Procedure EnumDraft Unit) :
      Call .section
  | object (name : Text) (exported : Option Bool) (constant : Bool) (comment : Value)
      (callback : Procedure ObjectDraft Unit) : Call .section
  | imports (module : Text) (includeUnused typeOnly : Bool) (callback : Procedure Registry Unit) :
      Call .section
  | statement (form : StatementForm) (callback : Procedure form.Draft Unit) : Call .section
  | nestedStatement (form : StatementForm) (callback : Procedure form.Draft Unit) : Call .block
  | thenBody (callback : Procedure BlockDraft Unit) : Call (.statement .conditional)
  | elseIf (condition : Text) (callback : Procedure BlockDraft Unit) :
      Call (.statement .conditional)
  | otherwise (callback : Procedure BlockDraft Unit) : Call (.statement .conditional)
  | case (label : Text) (callback : Procedure BlockDraft Unit) : Call (.statement .switch)
  | defaultCase (callback : Procedure BlockDraft Unit) : Call (.statement .switch)
  | forBody (callback : Procedure BlockDraft Unit) : Call (.statement .forLoop)
  | loopBody (kind : LoopKind) (callback : Procedure BlockDraft Unit) :
      Call (.statement (.loop kind))
  | nestedObject (key : Text) (readonly : Bool) (callback : Procedure ObjectDraft Unit) :
      Call .object

namespace Call

/-- Drafts a statement and adds its node. -/
def takeStatement {σ : Type} (form : StatementForm) (callback : Procedure form.Draft Unit)
    (add : Node → σ → σ) : Procedure σ Unit := do
  let draft ← hand form.empty callback
  let node ← compute (form.node draft)
  update (add node)

/-- What a call does to its receiver, step by step. -/
def perform : {receiver : Receiver} → Call receiver → Procedure receiver.State Unit
  | _, .addSection name source overrides callback => do
      let document ← look
      let options ← compute (document.sectionOptions source overrides)
      take (Section.start name options) callback fun added document =>
        { document with sections := document.sections ++ [added] }
  | _, .interface name callback => do
      let current ← look
      take (InterfaceDraft.start name current.exportsAll) callback fun draft current =>
        current.add .interface name (.node draft.node)
  | _, .typeText name text exported comment => do
      let current ← look
      let lines ← compute (Comment.linesOf comment)
      let node := Node.typeAlias name (Syntax.parseType text) [] (current.isExported exported) lines
      update fun current => current.add .type name (.node node)
  | _, .type name exported comment callback => do
      let current ← look
      let fresh := AliasDraft.start name (current.isExported exported)
      let fresh ← compute (Section.commented comment AliasDraft.setComment fresh)
      take fresh callback fun draft current => current.add .type name (.node draft.node)
  | _, .enumeration name constant callback => do
      let current ← look
      take (EnumDraft.start name current.exportsAll constant) callback fun draft current =>
        current.add .enumeration name (.node draft.node)
  | _, .object name exported constant comment callback => do
      let current ← look
      let fresh := ObjectDraft.start name (current.isExported exported) constant
      let fresh ← compute (Section.commented comment ObjectDraft.setComment fresh)
      let draft ← hand fresh callback
      let text ← compute draft.print
      update fun current => current.add .object (Section.objectName name) (.text text)
  | _, .imports module includeUnused typeOnly callback =>
      take (Registry.start module includeUnused typeOnly) callback fun registry current =>
        current.add .registry module (.registry registry)
  | _, .statement form callback =>
      takeStatement form callback fun node current =>
        current.add form.itemKind form.itemKind.name (.node node)
  | _, .nestedStatement form callback =>
      takeStatement form callback fun node block => block.add node
  | _, .thenBody callback =>
      take BlockDraft.empty callback fun block draft => { draft with body := some block.node }
  | _, .elseIf condition callback =>
      take BlockDraft.empty callback fun block draft =>
        { draft with branches := draft.branches ++ [(condition, block.node)] }
  | _, .otherwise callback =>
      take BlockDraft.empty callback fun block draft =>
        { draft with alternative := some block.node }
  | _, .case label callback =>
      take BlockDraft.empty callback fun block draft =>
        { draft with cases := draft.cases ++ [(label, block.statements)] }
  | _, .defaultCase callback =>
      take BlockDraft.empty callback fun block draft =>
        { draft with otherwise := some block.statements }
  | _, .forBody callback =>
      take BlockDraft.empty callback fun block draft => { draft with body := some block.node }
  | _, .loopBody _ callback =>
      take BlockDraft.empty callback fun block draft => { draft with body := some block.node }
  | _, .nestedObject key readonly callback =>
      take ObjectDraft.anonymous callback fun inner draft =>
        draft.add (.nested key inner.entries readonly)

end Call

namespace Receiver

/-- The call that a command makes where it takes a part; the callback runs the inner commands. -/
def call? : (receiver : Receiver) → receiver.Command → Option (Call receiver)
  | .document, .section name commands source overrides =>
      some (.addSection name source overrides (calls Section.apply commands))
  | .section, .interface name commands =>
      some (.interface name (calls InterfaceDraft.apply commands))
  | .section, .type name (.text type) exported comment =>
      some (.typeText name type exported comment)
  | .section, .type name (.commands commands) exported comment =>
      some (.type name exported comment (calls AliasDraft.apply commands))
  | .section, .enumeration name commands constant =>
      some (.enumeration name constant (calls EnumDraft.apply commands))
  | .section, .object commands name exported constant comment =>
      some (.object name exported constant comment (calls ObjectDraft.apply commands))
  | .section, .imports module commands includeUnused typeOnly =>
      some (.imports module includeUnused typeOnly (calls Registry.apply commands))
  | .section, .conditional commands =>
      some (.statement .conditional (calls ConditionalDraft.apply commands))
  | .section, .switch commands => some (.statement .switch (calls SwitchDraft.apply commands))
  | .section, .forLoop commands => some (.statement .forLoop (calls ForDraft.apply commands))
  | .section, .loop kind commands =>
      some (.statement (.loop kind) (calls (LoopDraft.apply kind) commands))
  | .block, .conditional commands =>
      some (.nestedStatement .conditional (calls ConditionalDraft.apply commands))
  | .block, .switch commands => some (.nestedStatement .switch (calls SwitchDraft.apply commands))
  | .block, .forLoop commands => some (.nestedStatement .forLoop (calls ForDraft.apply commands))
  | .block, .loop kind commands =>
      some (.nestedStatement (.loop kind) (calls (LoopDraft.apply kind) commands))
  | .statement .conditional, .body commands => some (.thenBody (calls BlockDraft.apply commands))
  | .statement .conditional, .branch condition commands =>
      some (.elseIf condition (calls BlockDraft.apply commands))
  | .statement .conditional, .alternative commands =>
      some (.otherwise (calls BlockDraft.apply commands))
  | .statement .switch, .branch label commands =>
      some (.case label (calls BlockDraft.apply commands))
  | .statement .switch, .otherwise commands => some (.defaultCase (calls BlockDraft.apply commands))
  | .statement .forLoop, .body commands => some (.forBody (calls BlockDraft.apply commands))
  | .statement (.loop kind), .body commands =>
      some (.loopBody kind (calls BlockDraft.apply commands))
  | .object, .nested key commands readonly =>
      some (.nestedObject key readonly (calls ObjectDraft.apply commands))
  | _, _ => none

end Receiver

/-! ## Commands do what their calls do -/

section Commands

open Procedure (embed_eq hand_calls ofExcept_eq outcome_compute outcome_look)

variable {σ : Type}

theorem hand_block (commands : List BlockCommand) :
    (hand BlockDraft.empty (calls BlockDraft.apply commands) : Procedure σ BlockDraft) =
      compute (BlockDraft.steps .empty commands) :=
  hand_calls (fun _ => BlockDraft.steps.eq_1 _) (fun _ _ _ => BlockDraft.steps.eq_2 _ _ _)
    commands _

theorem hand_object (commands : List ObjectDraft.Command) (fresh : ObjectDraft) :
    (hand fresh (calls ObjectDraft.apply commands) : Procedure σ ObjectDraft) =
      compute (fresh.steps commands) :=
  hand_calls (fun _ => ObjectDraft.steps.eq_1 _) (fun _ _ _ => ObjectDraft.steps.eq_2 _ _ _)
    commands fresh

theorem hand_form (form : StatementForm) (commands : List form.Command) :
    (hand form.empty (calls form.apply commands) : Procedure σ form.Draft) =
      compute (form.steps form.empty commands) := by
  cases form with
  | conditional =>
      exact hand_calls (fun _ => ConditionalDraft.steps.eq_1 _)
        (fun _ _ _ => ConditionalDraft.steps.eq_2 _ _ _) commands _
  | switch =>
      exact hand_calls (fun _ => SwitchDraft.steps.eq_1 _)
        (fun _ _ _ => SwitchDraft.steps.eq_2 _ _ _) commands _
  | forLoop =>
      exact hand_calls (fun _ => ForDraft.steps.eq_1 _)
        (fun _ _ _ => ForDraft.steps.eq_2 _ _ _) commands _
  | loop kind =>
      exact hand_calls (fun _ => LoopDraft.steps.eq_1 kind _)
        (fun _ _ _ => LoopDraft.steps.eq_2 kind _ _ _) commands _

/-- Adding a block that commands make. -/
theorem ofExcept_block (commands : List BlockCommand) (add : BlockDraft → σ → σ) (old : σ) :
    Outcome.ofExcept old (do
      let inner ← BlockDraft.steps .empty commands
      pure (add inner old, none)) =
      (take BlockDraft.empty (calls BlockDraft.apply commands) add).outcome old := by
  unfold take
  rw [hand_block]
  exact ofExcept_eq _ add old

/-- Adding the node of a statement that commands draft. -/
theorem ofExcept_statement (form : StatementForm) (commands : List form.Command)
    (add : Node → σ → σ) (old : σ) :
    Outcome.ofExcept old (do
      let inner ← form.steps form.empty commands
      let node ← form.node inner
      pure (add node old, none)) =
      (Call.takeStatement form (calls form.apply commands) add).outcome old := by
  unfold Call.takeStatement
  rw [hand_form, outcome_compute]
  cases form.steps form.empty commands with
  | error failure => rfl
  | ok inner => exact ofExcept_eq _ add old

theorem addSection_eq (document : Document) (name : Text) (commands : List Section.Command)
    (source : Document.OptionSource) (overrides : Table) :
    document.addSection name commands source overrides =
      (Call.addSection name source overrides (calls Section.apply commands)).perform.outcome
        document := by
  unfold Document.addSection Call.perform
  rw [outcome_look, outcome_compute]
  cases document.sectionOptions source overrides with
  | error failure => rfl
  | ok options =>
      dsimp only
      rw [← embed_eq]

theorem addType_text_eq (current : Section) (name text : Text) (exported : Option Bool)
    (comment : Value) :
    current.addType name (.text text) exported comment =
      (Call.typeText name text exported comment).perform.outcome current := by
  unfold Section.addType Call.perform
  rw [outcome_look, outcome_compute]
  cases Comment.linesOf comment with
  | error failure => rfl
  | ok lines => rfl

theorem addType_commands_eq (current : Section) (name : Text)
    (commands : List AliasDraft.Command) (exported : Option Bool) (comment : Value) :
    current.addType name (.commands commands) exported comment =
      (Call.type name exported comment (calls AliasDraft.apply commands)).perform.outcome
        current := by
  unfold Section.addType Call.perform
  rw [outcome_look, outcome_compute]
  dsimp only
  cases Section.commented comment AliasDraft.setComment
      (.start name (current.isExported exported)) with
  | error failure => rfl
  | ok draft =>
      dsimp only
      rw [← embed_eq]

theorem addObject_eq (current : Section) (commands : List ObjectDraft.Command) (name : Text)
    (exported : Option Bool) (constant : Bool) (comment : Value) :
    current.addObject commands name exported constant comment =
      (Call.object name exported constant comment
        (calls ObjectDraft.apply commands)).perform.outcome current := by
  unfold Section.addObject Call.perform
  rw [outcome_look, outcome_compute]
  dsimp only
  cases Section.commented comment ObjectDraft.setComment
      (.start name (current.isExported exported) constant) with
  | error failure => rfl
  | ok draft =>
      dsimp only
      rw [hand_object, outcome_compute]
      change Outcome.ofExcept current (draft.steps commands >>= _) = _
      cases draft.steps commands with
      | error failure => rfl
      | ok next =>
          dsimp only
          rw [← ofExcept_eq]
          rfl

theorem addStatement_eq (current : Section) (form : StatementForm) (commands : List form.Command) :
    current.addStatement form.itemKind (do
      let draft ← form.steps form.empty commands
      form.node draft) =
      (Call.statement form (calls form.apply commands)).perform.outcome current := by
  unfold Call.perform
  rw [← ofExcept_statement]
  unfold Section.addStatement
  cases form.steps form.empty commands with
  | error failure => rfl
  | ok draft =>
      change Outcome.ofExcept current ((form.node draft).map _) =
        Outcome.ofExcept current (form.node draft >>= _)
      cases form.node draft <;> rfl

theorem document_eq_perform {command : Document.Command} {call : Call .document}
    (makes : Receiver.document.call? command = some call) (document : Document) :
    document.apply command = call.perform.outcome document := by
  cases command with
  | «section» name commands source overrides =>
      cases makes
      exact addSection_eq document name commands source overrides
  | _ => cases makes

theorem section_eq_perform {command : Section.Command} {call : Call .section}
    (makes : Receiver.section.call? command = some call) (current : Section) :
    current.apply command = call.perform.outcome current := by
  cases command with
  | interface name commands =>
      cases makes
      exact embed_eq InterfaceDraft.apply commands (.start name current.exportsAll)
        (fun draft current => current.add .interface name (.node draft.node)) current
  | type name source exported comment =>
      cases source with
      | text text =>
          cases makes
          exact addType_text_eq current name text exported comment
      | commands commands =>
          cases makes
          exact addType_commands_eq current name commands exported comment
  | enumeration name commands constant =>
      cases makes
      exact embed_eq EnumDraft.apply commands (.start name current.exportsAll constant)
        (fun draft current => current.add .enumeration name (.node draft.node)) current
  | object commands name exported constant comment =>
      cases makes
      exact addObject_eq current commands name exported constant comment
  | imports module commands includeUnused typeOnly =>
      cases makes
      exact embed_eq Registry.apply commands (.start module includeUnused typeOnly)
        (fun registry current => current.add .registry module (.registry registry)) current
  | conditional commands =>
      cases makes
      exact addStatement_eq current .conditional commands
  | switch commands =>
      cases makes
      exact addStatement_eq current .switch commands
  | forLoop commands =>
      cases makes
      exact addStatement_eq current .forLoop commands
  | loop kind commands =>
      cases makes
      exact addStatement_eq current (.loop kind) commands
  | _ => cases makes

theorem block_eq_perform {command : BlockCommand} {call : Call .block}
    (makes : Receiver.block.call? command = some call) (draft : BlockDraft) :
    draft.apply command = call.perform.outcome draft := by
  have nested (form : StatementForm) (commands : List form.Command) :=
    ofExcept_statement form commands (fun node block => block.add node) draft
  unfold BlockDraft.apply
  cases command with
  | conditional commands =>
      cases makes
      exact nested .conditional commands
  | switch commands =>
      cases makes
      exact nested .switch commands
  | forLoop commands =>
      cases makes
      exact nested .forLoop commands
  | loop kind commands =>
      cases makes
      exact nested (.loop kind) commands
  | _ => cases makes

theorem conditional_eq_perform {command : ConditionalCommand}
    {call : Call (.statement .conditional)}
    (makes : (Receiver.statement .conditional).call? command = some call)
    (draft : ConditionalDraft) : draft.apply command = call.perform.outcome draft := by
  unfold ConditionalDraft.apply
  cases command with
  | body commands =>
      cases makes
      exact ofExcept_block commands
        (fun block draft => { draft with body := some block.node }) draft
  | branch condition commands =>
      cases makes
      exact ofExcept_block commands
        (fun block draft => { draft with branches := draft.branches ++ [(condition, block.node)] })
        draft
  | alternative commands =>
      cases makes
      exact ofExcept_block commands
        (fun block draft => { draft with alternative := some block.node }) draft
  | _ => cases makes

theorem switch_eq_perform {command : SwitchCommand} {call : Call (.statement .switch)}
    (makes : (Receiver.statement .switch).call? command = some call) (draft : SwitchDraft) :
    draft.apply command = call.perform.outcome draft := by
  unfold SwitchDraft.apply
  cases command with
  | branch label commands =>
      cases makes
      exact ofExcept_block commands
        (fun block draft => { draft with cases := draft.cases ++ [(label, block.statements)] })
        draft
  | otherwise commands =>
      cases makes
      exact ofExcept_block commands
        (fun block draft => { draft with otherwise := some block.statements }) draft
  | _ => cases makes

theorem forLoop_eq_perform {command : ForCommand} {call : Call (.statement .forLoop)}
    (makes : (Receiver.statement .forLoop).call? command = some call) (draft : ForDraft) :
    draft.apply command = call.perform.outcome draft := by
  unfold ForDraft.apply
  cases command with
  | body commands =>
      cases makes
      exact ofExcept_block commands
        (fun block draft => { draft with body := some block.node }) draft
  | _ => cases makes

theorem loop_eq_perform {kind : LoopKind} {command : LoopCommand}
    {call : Call (.statement (.loop kind))}
    (makes : (Receiver.statement (.loop kind)).call? command = some call) (draft : LoopDraft) :
    LoopDraft.apply kind command draft = call.perform.outcome draft := by
  unfold LoopDraft.apply
  cases command with
  | body commands =>
      cases makes
      exact ofExcept_block commands
        (fun block draft => { draft with body := some block.node }) draft
  | _ => cases makes

theorem object_eq_perform {command : ObjectDraft.Command} {call : Call .object}
    (makes : Receiver.object.call? command = some call) (draft : ObjectDraft) :
    draft.apply command = call.perform.outcome draft := by
  unfold ObjectDraft.apply
  cases command with
  | nested key commands readonly =>
      cases makes
      change _ = (take ObjectDraft.anonymous (calls ObjectDraft.apply commands) fun inner draft =>
        draft.add (.nested key inner.entries readonly) : Procedure ObjectDraft Unit).outcome draft
      unfold take
      rw [hand_object, ← ofExcept_eq]
      rfl
  | _ => cases makes

/-- A command does to the receiver what its call does in place. -/
theorem Receiver.apply_eq_perform {receiver : Receiver} {command : receiver.Command}
    {call : Call receiver} (makes : receiver.call? command = some call) (state : receiver.State) :
    receiver.apply command state = call.perform.outcome state := by
  cases receiver with
  | document => exact document_eq_perform makes state
  | «section» => exact section_eq_perform makes state
  | block => exact block_eq_perform makes state
  | statement form =>
      cases form with
      | conditional => exact conditional_eq_perform makes state
      | switch => exact switch_eq_perform makes state
      | forLoop => exact forLoop_eq_perform makes state
      | loop kind => exact loop_eq_perform makes state
  | object => exact object_eq_perform makes state

end Commands

end TypeScriptGen
