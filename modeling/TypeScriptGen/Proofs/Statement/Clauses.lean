import Mathlib.Data.List.Forall2
import Mathlib.Data.List.Induction
import TypeScriptGen.Proofs.Document.RequiredParts

/-!
# Clauses of conditionals

A conditional is drafted by commands in any order: the last condition, first block
and last block win, and every further branch is kept. The node holds the branches
inside one another, the last one innermost; flattened and printed they are back in
the order of the commands.
-/

namespace TypeScriptGen

open Node (IsBody printBody_eq)
open Syntax (parseExpression)

/-! ## Flattened and printed chains -/

namespace Node

mutual

/-- The conditions of a chain of conditionals, each with its body. -/
def clauses : Node → List (Node × Node)
  | .conditional condition body alternative _ => (condition, body) :: clausesBehind alternative
  | _ => []

def clausesBehind : Option Node → List (Node × Node)
  | none => []
  | some node => clauses node

end

mutual

/-- The body behind the last condition of a chain, if there is one. -/
def lastBody : Node → Option Node
  | .conditional _ _ alternative _ => lastBodyBehind alternative
  | node => some node

def lastBodyBehind : Option Node → Option Node
  | none => none
  | some node => lastBody node

end

end Node

/-- A condition and the body behind it. -/
def clauseText (clause : Text × Text) : Text :=
  "if (".toList ++ clause.1 ++ ") ".toList ++ clause.2

/-- All clauses and the last body, with `else` between them. -/
def ladder (clauses : List (Text × Text)) (last : Option Text) : Text :=
  " else ".toList.intercalate (clauses.map clauseText ++ last.toList)

/-- What stands behind `else`, if anything does. -/
def ladderBehind (clauses : List (Text × Text)) (last : Option Text) : Option Text :=
  if clauses.isEmpty then last else some (ladder clauses last)

theorem ladder_cons (clause : Text × Text) (clauses : List (Text × Text)) (last : Option Text) :
    ladder (clause :: clauses) last =
      clauseText clause ++ Printer.optionalPart " else " (ladderBehind clauses last) := by
  cases clauses with
  | nil =>
      cases last with
      | none => exact List.intercalate_singleton.trans (List.append_nil _).symm
      | some last =>
          change " else ".toList.intercalate [clauseText clause, last] = _
          rw [List.intercalate_cons_cons, List.intercalate_singleton, List.append_assoc]
          rfl
  | cons next clauses =>
      change " else ".toList.intercalate (clauseText clause :: clauseText next :: _) = _
      rw [List.intercalate_cons_cons, List.append_assoc]
      rfl

/-- What a clause is printed as: the condition without the blanks around it, and the body without
its comment. -/
def ClausePrinted (clause : Text × Node) (shown : Text × Text) : Prop :=
  shown.1 = Text.trim clause.1 ∧ Printer.bare .standard clause.2 = .ok shown.2

def BodyPrinted (body : Node) (shown : Text) : Prop := Printer.bare .standard body = .ok shown

theorem bare_conditional {clause : Text × Node} {shown : Text × Text} {alternative : Option Node}
    {others : List (Text × Text)} {last : Option Text} (comment : List Text)
    (isBody : IsBody clause.2) (printed : ClausePrinted clause shown)
    (behind : Printer.printAlternative .standard alternative = .ok (ladderBehind others last)) :
    Printer.bare .standard (.conditional (parseExpression clause.1) clause.2 alternative comment) =
      .ok (ladder (shown :: others) last) := by
  obtain ⟨same, body⟩ := printed
  rw [← printBody_eq isBody] at body
  have test := Syntax.bare_parseExpression .standard clause.1
  refine ((bind_ok test).trans ((bind_ok body).trans (bind_ok behind))).trans ?_
  rw [Syntax.withComment_parseExpression, ladder_cons, ← same]
  rfl

namespace ConditionalDraft

variable {alternative : Option Node} {branches : List (Text × Node)}

/-- Flattening a chain gives its branches in their order. -/
theorem flattened_chain (others : ∀ node ∈ alternative.toList, IsBody node)
    (branches : List (Text × Node)) :
    Node.clausesBehind (chain alternative branches) =
        branches.map (fun branch => (parseExpression branch.1, branch.2)) ∧
      Node.lastBodyBehind (chain alternative branches) = alternative := by
  induction branches with
  | nil =>
      cases alternative with
      | none => exact ⟨rfl, rfl⟩
      | some node =>
          obtain ⟨statements, comment, rfl⟩ := others node List.mem_cons_self
          exact ⟨rfl, rfl⟩
  | cons branch branches ih => exact ⟨congrArg (_ :: ·) ih.1, ih.2⟩

/-- A chain is printed as its branches in their order, with the alternative behind them. -/
theorem printAlternative_chain (others : ∀ node ∈ alternative.toList, IsBody node)
    {last : Option Text} (ending : Option.Rel BodyPrinted alternative last)
    (bodies : ∀ branch ∈ branches, IsBody branch.2) {shown : List (Text × Text)}
    (each : List.Forall₂ ClausePrinted branches shown) :
    Printer.printAlternative .standard (chain alternative branches) =
      .ok (ladderBehind shown last) := by
  induction each with
  | nil =>
      cases ending with
      | none => rfl
      | @some node text printed =>
          have isBody := others node List.mem_cons_self
          rw [chain, Printer.printAlternative, printBody_eq isBody, ite_self, bind_ok printed]
          rfl
  | @cons branch text branches shown printed _ ih =>
      have behind := ih fun other among => bodies other (List.mem_cons_of_mem _ among)
      rw [chain, Printer.printAlternative]
      exact bind_ok (bare_conditional [] (bodies branch List.mem_cons_self) printed behind)

/-- The bodies of a sound draft have printed forms. -/
theorem exists_bodyPrinted (others : ∀ node ∈ alternative.toList, MovableBody node) :
    ∃ last, Option.Rel BodyPrinted alternative last := by
  cases alternative with
  | none => exact ⟨none, .none⟩
  | some node =>
      obtain ⟨text, printed, _⟩ := (others node List.mem_cons_self).1.printed
      exact ⟨some text, .some printed⟩

theorem exists_clausesPrinted (bodies : ∀ branch ∈ branches, MovableBody branch.2) :
    ∃ shown, List.Forall₂ ClausePrinted branches shown := by
  induction branches with
  | nil => exact ⟨[], .nil⟩
  | cons branch branches ih =>
      obtain ⟨shown, each⟩ := ih fun other among => bodies other (List.mem_cons_of_mem _ among)
      obtain ⟨text, printed, _⟩ := (bodies branch List.mem_cons_self).1.printed
      exact ⟨(Text.trim branch.1, text) :: shown, .cons ⟨rfl, printed⟩ each⟩

/-- The clauses of the node that a draft makes, and its printed form. -/
theorem Sound.clauses_node {draft : ConditionalDraft} (sound : draft.Sound) {node : Node}
    (made : draft.node = .ok node) :
    ∃ body shown last, draft.body = some body ∧
      node.clauses = ((draft.condition, body) :: draft.branches).map
        (fun clause => (parseExpression clause.1, clause.2)) ∧
      node.lastBody = draft.alternative ∧
      List.Forall₂ ClausePrinted ((draft.condition, body) :: draft.branches) shown ∧
      Option.Rel BodyPrinted draft.alternative last ∧
      Printer.bare .standard node = .ok (ladder shown last) := by
  obtain ⟨body, _, held, rfl⟩ := exists_of_node made
  have first : MovableBody body := sound.body body (by rw [held]; exact List.mem_cons_self)
  have others := fun node among => (sound.alternative node among).2
  obtain ⟨text, printed, _⟩ := first.1.printed
  obtain ⟨shown, each⟩ := exists_clausesPrinted sound.branches
  obtain ⟨last, ending⟩ := exists_bodyPrinted sound.alternative
  obtain ⟨clauses, lastBody⟩ := flattened_chain others draft.branches
  have clause : ClausePrinted (draft.condition, body) (Text.trim draft.condition, text) :=
    ⟨rfl, printed⟩
  have behind := printAlternative_chain others ending
    (fun branch among => (sound.branches branch among).2) each
  exact ⟨body, _, last, held, congrArg (_ :: ·) clauses, lastBody, .cons clause each, ending,
    bare_conditional draft.comment first.2 clause behind⟩

end ConditionalDraft

/-! ## What a run of commands leaves -/

/-- The block that commands make of a fresh one, if none of them fails. -/
def BlockDraft.built? (commands : List BlockCommand) : Option Node :=
  (BlockDraft.steps .empty commands).toOption.map BlockDraft.node

namespace ConditionalCommand

open BlockDraft (built?)

def condition? : ConditionalCommand → Option Text
  | .condition text => some text
  | _ => none

def body? : ConditionalCommand → Option Node
  | .body commands => built? commands
  | _ => none

def branch? : ConditionalCommand → Option (Text × Node)
  | .branch text commands => (built? commands).map (text, ·)
  | _ => none

def alternative? : ConditionalCommand → Option Node
  | .alternative commands => built? commands
  | _ => none

end ConditionalCommand

namespace ConditionalDraft

open ConditionalCommand (condition? body? branch? alternative?)

/-- What a command changes: it sets the part that it gives, or adds the branch. -/
structure Takes (draft : ConditionalDraft) (command : ConditionalCommand)
    (next : ConditionalDraft) : Prop where
  condition : next.condition = (condition? command).getD draft.condition
  body : next.body = (body? command).or draft.body
  branches : next.branches = draft.branches ++ (branch? command).toList
  alternative : next.alternative = (alternative? command).or draft.alternative
  comment : (∀ comment, command ≠ .comment comment) → next.comment = draft.comment

/-- A command that gives no part may leave the draft as it is. -/
theorem takes_nothing (draft : ConditionalDraft) (command : ConditionalCommand)
    (condition : condition? command = none) (body : body? command = none)
    (branch : branch? command = none) (alternative : alternative? command = none) :
    draft.Takes command draft where
  condition := by rw [condition]; rfl
  body := by rw [body]; rfl
  branches := by rw [branch]; exact (List.append_nil _).symm
  alternative := by rw [alternative]; rfl
  comment _ := rfl

/-- A command with a callback uses the block that the callback builds, or changes nothing. -/
theorem state_ofExcept_block {σ : Type} (old : σ) (use : Node → σ) (commands : List BlockCommand) :
    (Outcome.ofExcept old (do
      let inner ← BlockDraft.steps .empty commands
      pure (use inner.node, none))).state = ((BlockDraft.built? commands).map use).getD old := by
  rw [BlockDraft.built?]
  cases BlockDraft.steps .empty commands <;> rfl

theorem takes_apply (draft : ConditionalDraft) : ∀ command : ConditionalCommand,
    draft.Takes command (apply command draft).state
  | .comment comment => by
      refine Outcome.ofExcept_state (takes_nothing draft (.comment comment) rfl rfl rfl rfl)
        fun next text made => ?_
      obtain ⟨lines, rfl⟩ := exists_of_commented made
      exact ⟨rfl, rfl, (List.append_nil draft.branches).symm, rfl,
        fun other => absurd rfl (other comment)⟩
  | .print => by
      have kept := takes_nothing draft .print rfl rfl rfl rfl
      refine Outcome.ofExcept_state kept fun next text made => ?_
      rwa [eq_of_printedDraft made]
  | .condition text => ⟨rfl, rfl, (List.append_nil draft.branches).symm, rfl, fun _ => rfl⟩
  | .body commands => by
      rw [apply, step,
        state_ofExcept_block draft (fun body => { draft with body := some body }) commands]
      cases built : BlockDraft.built? commands with
      | none => exact takes_nothing draft (.body commands) rfl built rfl rfl
      | some body =>
          have gives : body? (.body commands) = some body := built
          exact ⟨rfl, by rw [gives]; rfl, (List.append_nil draft.branches).symm, rfl, fun _ => rfl⟩
  | .branch text commands => by
      rw [apply, step, state_ofExcept_block draft
        (fun body => { draft with branches := draft.branches ++ [(text, body)] }) commands]
      cases built : BlockDraft.built? commands with
      | none =>
          have gives : branch? (.branch text commands) = none := by rw [branch?, built]; rfl
          exact takes_nothing draft (.branch text commands) rfl rfl gives rfl
      | some body =>
          have gives : branch? (.branch text commands) = some (text, body) := by
            rw [branch?, built]
            rfl
          exact ⟨rfl, rfl, by rw [gives]; rfl, rfl, fun _ => rfl⟩
  | .alternative commands => by
      rw [apply, step,
        state_ofExcept_block draft (fun body => { draft with alternative := some body }) commands]
      cases built : BlockDraft.built? commands with
      | none => exact takes_nothing draft (.alternative commands) rfl rfl rfl built
      | some body =>
          have gives : alternative? (.alternative commands) = some body := built
          exact ⟨rfl, rfl, (List.append_nil draft.branches).symm, by rw [gives]; rfl, fun _ => rfl⟩

/-- A draft holds what the commands gave it: the last condition, body and alternative, and every
branch in order. -/
structure Holds (commands : List ConditionalCommand) (draft : ConditionalDraft) : Prop where
  condition : draft.condition = (commands.filterMap condition?).getLast?.getD []
  body : draft.body = (commands.filterMap body?).getLast?
  branches : draft.branches = commands.filterMap branch?
  alternative : draft.alternative = (commands.filterMap alternative?).getLast?
  comment : (∀ comment, .comment comment ∉ commands) → draft.comment = []

theorem filterMap_concat {α β : Type} (give : α → Option β) (items : List α) (last : α) :
    (items ++ [last]).filterMap give = items.filterMap give ++ (give last).toList := by
  rw [List.filterMap_append]
  cases given : give last with
  | none => rw [List.filterMap_cons_none given]; rfl
  | some value => rw [List.filterMap_cons_some given]; rfl

theorem getLast?_filterMap_concat {α β : Type} (give : α → Option β) (items : List α) (last : α) :
    ((items ++ [last]).filterMap give).getLast? =
      (give last).or (items.filterMap give).getLast? := by
  rw [filterMap_concat, List.getLast?_append]
  cases give last <;> rfl

theorem Holds.concat {commands : List ConditionalCommand} {draft next : ConditionalDraft}
    (holds : Holds commands draft) {command : ConditionalCommand}
    (takes : draft.Takes command next) : Holds (commands ++ [command]) next where
  condition := by rw [takes.condition, holds.condition, getLast?_filterMap_concat, Option.getD_or]
  body := by rw [takes.body, holds.body, getLast?_filterMap_concat]
  branches := by rw [takes.branches, holds.branches, filterMap_concat]
  alternative := by rw [takes.alternative, holds.alternative, getLast?_filterMap_concat]
  comment uncommented := by
    have last : ∀ comment, command ≠ .comment comment := fun comment same =>
      uncommented comment (same ▸ List.mem_concat_self)
    have before : ∀ comment, .comment comment ∉ commands := fun comment among =>
      uncommented comment (List.mem_append_left _ among)
    rw [takes.comment last, holds.comment before]

theorem holds_drafted (commands : List ConditionalCommand) :
    Holds commands (StatementForm.drafted .conditional commands) := by
  induction commands using List.reverseRecOn with
  | nil => exact ⟨rfl, rfl, rfl, rfl, fun _ => rfl⟩
  | append_singleton commands command ih =>
      have next : StatementForm.drafted .conditional (commands ++ [command]) =
          (apply command (StatementForm.drafted .conditional commands)).state :=
        List.foldl_append
      rw [next]
      exact ih.concat (takes_apply _ command)

theorem Holds.getLast?_condition {commands : List ConditionalCommand} {draft : ConditionalDraft}
    (holds : Holds commands draft) (given : draft.condition ≠ []) :
    (commands.filterMap condition?).getLast? = some draft.condition := by
  have same := holds.condition
  cases last : (commands.filterMap condition?).getLast? with
  | none =>
      rw [last] at same
      exact absurd same given
  | some condition =>
      rw [last] at same
      exact congrArg some same.symm

/-- Whatever the commands are, if a conditional is made of them, then its flattened clauses are the
last condition with the last body, and behind them the branches in the order of the commands; the
last alternative, set anywhere among them, stands at the end. The text is these clauses, each once,
with `else` between them, below the comment if there is one. -/
theorem clauses_in_call_order {commands : List ConditionalCommand} {node : Node}
    (made : ConditionalDraft.node (StatementForm.drafted .conditional commands) = .ok node) :
    ∃ condition body shown last,
      (commands.filterMap condition?).getLast? = some condition ∧
      (commands.filterMap body?).getLast? = some body ∧
      node.clauses = ((condition, body) :: commands.filterMap branch?).map
        (fun clause => (parseExpression clause.1, clause.2)) ∧
      node.lastBody = (commands.filterMap alternative?).getLast? ∧
      List.Forall₂ ClausePrinted ((condition, body) :: commands.filterMap branch?) shown ∧
      Option.Rel BodyPrinted (commands.filterMap alternative?).getLast? last ∧
      node.print = .ok (node.withComment (ladder shown last)) ∧
      ((∀ comment, .comment comment ∉ commands) → node.print = .ok (ladder shown last)) := by
  have holds := holds_drafted commands
  have sound := StatementForm.sound_drafted .conditional commands
  generalize StatementForm.drafted .conditional commands = draft at made holds sound
  obtain ⟨body, shown, last, held, clauses, lastBody, each, ending, bare⟩ :=
    sound.clauses_node made
  have printed : node.print = .ok (node.withComment (ladder shown last)) := bind_ok bare
  obtain ⟨_, given, _, rfl⟩ := exists_of_node made
  rw [← holds.body, ← holds.branches, ← holds.alternative]
  refine ⟨draft.condition, body, shown, last, holds.getLast?_condition given, held, clauses,
    lastBody, each, ending, printed, fun uncommented => ?_⟩
  rw [printed, Node.withComment, Node.leadingComment, holds.comment uncommented]
  rfl

/-- The alternative is given first and the condition behind a branch. -/
theorem clauses_in_call_order_mixed :
    ∃ node shown last, ConditionalDraft.node (StatementForm.drafted .conditional
        [.alternative [], .branch " b ".toList [], .condition "a".toList,
          .body [.returns []]]) = .ok node ∧
      node.clauses.map (fun clause => clause.1.print) = [.ok "a".toList, .ok "b".toList] ∧
      shown.length = 2 ∧ node.print = .ok (ladder shown last) ∧
      ladder shown last =
        "if (a) \x7b\n    return;\n\x7d else if (b) \x7b\n\x7d else \x7b\n\x7d".toList := by
  obtain ⟨node, made⟩ : ∃ node, ConditionalDraft.node (StatementForm.drafted .conditional
    [.alternative [], .branch " b ".toList [], .condition "a".toList,
      .body [.returns []]]) = .ok node := ⟨_, rfl⟩
  obtain ⟨condition, body, shown, last, gave, built, clauses, _, each, _, _, plain⟩ :=
    clauses_in_call_order made
  cases gave
  cases built
  have printed : node.print = .ok (ladder shown last) := plain (by simp)
  have text : node.print =
      .ok "if (a) \x7b\n    return;\n\x7d else if (b) \x7b\n\x7d else \x7b\n\x7d".toList :=
    (bind_ok made).symm.trans rfl
  exact ⟨node, shown, last, made, congrArg (List.map _) clauses, each.length_eq.symm, printed,
    Except.ok.inj (printed.symm.trans text)⟩

end ConditionalDraft

end TypeScriptGen
