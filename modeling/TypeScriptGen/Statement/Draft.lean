import TypeScriptGen.Outcome
import TypeScriptGen.Syntax.Parse
import TypeScriptGen.Syntax.Printer

/-!
# Statements

Blocks, conditionals, switches and loops are drafted by commands; the commands
for a nested statement are part of the command that adds it. A draft gives a
node only when it has its required parts: a conditional its condition and first
block, a switch its expression, a loop its body, a while or do loop also its
condition. An empty text counts as missing. Conditions, expressions and
statements are parsed when the node is made.
-/

namespace TypeScriptGen

/-- The expression that a text spells; an empty text spells none. -/
def Syntax.optionalExpression (text : Text) : Option Node :=
  if text.isEmpty then none else some (parseExpression text)

structure BlockDraft where
  statements : List Node
  comment : List Text

structure ConditionalDraft where
  condition : Text
  body : Option Node
  /-- The further conditions with their blocks. -/
  branches : List (Text × Node)
  alternative : Option Node
  comment : List Text

structure SwitchDraft where
  expression : Text
  /-- The case labels with their statements. -/
  cases : List (Text × List Node)
  otherwise : Option (List Node)
  comment : List Text

structure ForDraft where
  start : Text
  condition : Text
  increment : Text
  body : Option Node
  comment : List Text

/-- A loop with a condition alone, which is tested before or after its body. -/
structure LoopDraft where
  condition : Text
  body : Option Node
  comment : List Text

inductive LoopKind
  | whileLoop
  | doLoop
deriving DecidableEq

namespace BlockDraft

def empty : BlockDraft := ⟨[], []⟩

def node (draft : BlockDraft) : Node := .block draft.statements draft.comment

def add (draft : BlockDraft) (statement : Node) : BlockDraft :=
  { draft with statements := draft.statements ++ [statement] }

def setComment (draft : BlockDraft) (comment : Value) : Except Failure BlockDraft := do
  let lines ← Comment.linesOf comment
  pure { draft with comment := lines }

end BlockDraft

namespace ConditionalDraft

def empty : ConditionalDraft := ⟨[], none, [], none, []⟩

/-- The alternative that the further branches make, the last one inside. -/
def chain (alternative : Option Node) : List (Text × Node) → Option Node
  | [] => alternative
  | (condition, body) :: branches =>
      some (.conditional (Syntax.parseExpression condition) body (chain alternative branches) [])

def node (draft : ConditionalDraft) : Except Failure Node :=
  if draft.condition.isEmpty then .error (.builder .ifCondition)
  else
    match draft.body with
    | none => .error (.builder .ifBody)
    | some body =>
        .ok (.conditional (Syntax.parseExpression draft.condition) body
          (chain draft.alternative draft.branches) draft.comment)

def setComment (draft : ConditionalDraft) (comment : Value) : Except Failure ConditionalDraft := do
  let lines ← Comment.linesOf comment
  pure { draft with comment := lines }

end ConditionalDraft

namespace SwitchDraft

def empty : SwitchDraft := ⟨[], [], none, []⟩

def clauses (draft : SwitchDraft) : List Node :=
  draft.cases.map (fun (label, statements) =>
      .caseClause (Syntax.parseExpression label) statements) ++
    draft.otherwise.toList.map .defaultClause

def node (draft : SwitchDraft) : Except Failure Node :=
  if draft.expression.isEmpty then .error (.builder .switchExpression)
  else
    .ok (.switchStatement (Syntax.parseExpression draft.expression) draft.clauses draft.comment)

def setComment (draft : SwitchDraft) (comment : Value) : Except Failure SwitchDraft := do
  let lines ← Comment.linesOf comment
  pure { draft with comment := lines }

end SwitchDraft

namespace ForDraft

def empty : ForDraft := ⟨[], [], [], none, []⟩

def node (draft : ForDraft) : Except Failure Node :=
  match draft.body with
  | none => .error (.builder .loopBody)
  | some body =>
      .ok (.forLoop body (Syntax.optionalExpression draft.start)
        (Syntax.optionalExpression draft.condition) (Syntax.optionalExpression draft.increment)
        draft.comment)

def setComment (draft : ForDraft) (comment : Value) : Except Failure ForDraft := do
  let lines ← Comment.linesOf comment
  pure { draft with comment := lines }

end ForDraft

namespace LoopKind

def missingCondition : LoopKind → MissingPart
  | .whileLoop => .whileCondition
  | .doLoop => .doCondition

def node (condition body : Node) (comment : List Text) : LoopKind → Node
  | .whileLoop => .whileLoop condition body comment
  | .doLoop => .doLoop body condition comment

end LoopKind

namespace LoopDraft

def empty : LoopDraft := ⟨[], none, []⟩

def node (draft : LoopDraft) (kind : LoopKind) : Except Failure Node :=
  if draft.condition.isEmpty then .error (.builder kind.missingCondition)
  else
    match draft.body with
    | none => .error (.builder .loopBody)
    | some body =>
        .ok (kind.node (Syntax.parseExpression draft.condition) body draft.comment)

def setComment (draft : LoopDraft) (comment : Value) : Except Failure LoopDraft := do
  let lines ← Comment.linesOf comment
  pure { draft with comment := lines }

end LoopDraft

/-! ## Commands -/

mutual

inductive BlockCommand
  | comment (comment : Value)
  | print
  | statement (text : Text)
  | returns (expression : Text)
  | conditional (commands : List ConditionalCommand)
  | switch (commands : List SwitchCommand)
  | forLoop (commands : List ForCommand)
  | loop (kind : LoopKind) (commands : List LoopCommand)

inductive ConditionalCommand
  | comment (comment : Value)
  | print
  | condition (text : Text)
  | body (commands : List BlockCommand)
  | branch (condition : Text) (commands : List BlockCommand)
  | alternative (commands : List BlockCommand)

inductive SwitchCommand
  | comment (comment : Value)
  | print
  | expression (text : Text)
  | branch (label : Text) (commands : List BlockCommand)
  | otherwise (commands : List BlockCommand)

inductive ForCommand
  | comment (comment : Value)
  | print
  | start (text : Text)
  | condition (text : Text)
  | increment (text : Text)
  | body (commands : List BlockCommand)

inductive LoopCommand
  | comment (comment : Value)
  | print
  | condition (text : Text)
  | body (commands : List BlockCommand)

end

/-- The printed form of a draft, which stays as it is. -/
def printedDraft {σ : Type} (draft : σ) (node : Except Failure Node) :
    Except Failure (σ × Option Text) := do
  let made : Node ← node
  let text ← made.print
  pure (draft, some text)

mutual

def BlockDraft.step (draft : BlockDraft) : BlockCommand → Except Failure (BlockDraft × Option Text)
  | .comment comment => (draft.setComment comment).map (·, none)
  | .print => printedDraft draft (.ok draft.node)
  | .statement text => .ok (draft.add (Syntax.parseStatement text), none)
  | .returns expression =>
      .ok (draft.add (.returnStatement (Syntax.optionalExpression expression)), none)
  | .conditional commands => do
      let inner ← ConditionalDraft.steps .empty commands
      let node ← inner.node
      pure (draft.add node, none)
  | .switch commands => do
      let inner ← SwitchDraft.steps .empty commands
      let node ← inner.node
      pure (draft.add node, none)
  | .forLoop commands => do
      let inner ← ForDraft.steps .empty commands
      let node ← inner.node
      pure (draft.add node, none)
  | .loop kind commands => do
      let inner ← LoopDraft.steps kind .empty commands
      let node ← inner.node kind
      pure (draft.add node, none)

def BlockDraft.steps (draft : BlockDraft) : List BlockCommand → Except Failure BlockDraft
  | [] => .ok draft
  | command :: commands => do
      let (next, _) ← BlockDraft.step draft command
      BlockDraft.steps next commands

def ConditionalDraft.step (draft : ConditionalDraft) :
    ConditionalCommand → Except Failure (ConditionalDraft × Option Text)
  | .comment comment => (draft.setComment comment).map (·, none)
  | .print => printedDraft draft draft.node
  | .condition text => .ok ({ draft with condition := text }, none)
  | .body commands => do
      let inner ← BlockDraft.steps .empty commands
      pure ({ draft with body := some inner.node }, none)
  | .branch condition commands => do
      let inner ← BlockDraft.steps .empty commands
      pure ({ draft with branches := draft.branches ++ [(condition, inner.node)] }, none)
  | .alternative commands => do
      let inner ← BlockDraft.steps .empty commands
      pure ({ draft with alternative := some inner.node }, none)

def ConditionalDraft.steps (draft : ConditionalDraft) :
    List ConditionalCommand → Except Failure ConditionalDraft
  | [] => .ok draft
  | command :: commands => do
      let (next, _) ← ConditionalDraft.step draft command
      ConditionalDraft.steps next commands

def SwitchDraft.step (draft : SwitchDraft) : SwitchCommand → Except Failure (SwitchDraft × Option Text)
  | .comment comment => (draft.setComment comment).map (·, none)
  | .print => printedDraft draft draft.node
  | .expression text => .ok ({ draft with expression := text }, none)
  | .branch label commands => do
      let inner ← BlockDraft.steps .empty commands
      pure ({ draft with cases := draft.cases ++ [(label, inner.statements)] }, none)
  | .otherwise commands => do
      let inner ← BlockDraft.steps .empty commands
      pure ({ draft with otherwise := some inner.statements }, none)

def SwitchDraft.steps (draft : SwitchDraft) : List SwitchCommand → Except Failure SwitchDraft
  | [] => .ok draft
  | command :: commands => do
      let (next, _) ← SwitchDraft.step draft command
      SwitchDraft.steps next commands

def ForDraft.step (draft : ForDraft) : ForCommand → Except Failure (ForDraft × Option Text)
  | .comment comment => (draft.setComment comment).map (·, none)
  | .print => printedDraft draft draft.node
  | .start text => .ok ({ draft with start := text }, none)
  | .condition text => .ok ({ draft with condition := text }, none)
  | .increment text => .ok ({ draft with increment := text }, none)
  | .body commands => do
      let inner ← BlockDraft.steps .empty commands
      pure ({ draft with body := some inner.node }, none)

def ForDraft.steps (draft : ForDraft) : List ForCommand → Except Failure ForDraft
  | [] => .ok draft
  | command :: commands => do
      let (next, _) ← ForDraft.step draft command
      ForDraft.steps next commands

def LoopDraft.step (kind : LoopKind) (draft : LoopDraft) :
    LoopCommand → Except Failure (LoopDraft × Option Text)
  | .comment comment => (draft.setComment comment).map (·, none)
  | .print => printedDraft draft (draft.node kind)
  | .condition text => .ok ({ draft with condition := text }, none)
  | .body commands => do
      let inner ← BlockDraft.steps .empty commands
      pure ({ draft with body := some inner.node }, none)

def LoopDraft.steps (kind : LoopKind) (draft : LoopDraft) :
    List LoopCommand → Except Failure LoopDraft
  | [] => .ok draft
  | command :: commands => do
      let (next, _) ← LoopDraft.step kind draft command
      LoopDraft.steps kind next commands

end

def BlockDraft.apply (command : BlockCommand) (draft : BlockDraft) : Outcome BlockDraft :=
  .ofExcept draft (draft.step command)

def ConditionalDraft.apply (command : ConditionalCommand) (draft : ConditionalDraft) :
    Outcome ConditionalDraft :=
  .ofExcept draft (draft.step command)

def SwitchDraft.apply (command : SwitchCommand) (draft : SwitchDraft) : Outcome SwitchDraft :=
  .ofExcept draft (draft.step command)

def ForDraft.apply (command : ForCommand) (draft : ForDraft) : Outcome ForDraft :=
  .ofExcept draft (draft.step command)

def LoopDraft.apply (kind : LoopKind) (command : LoopCommand) (draft : LoopDraft) :
    Outcome LoopDraft :=
  .ofExcept draft (LoopDraft.step kind draft command)

end TypeScriptGen
