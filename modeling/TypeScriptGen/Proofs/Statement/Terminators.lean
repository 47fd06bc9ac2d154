import TypeScriptGen.Proofs.Document.NestedLiterals
import TypeScriptGen.Proofs.Text.Squeeze

/-!
# Terminators

A statement that is given with a semicolon loses it when it is parsed, and gets one
when it is printed unless it ends in a brace. So the semicolon behind a brace is
lost, whether the brace closes a block or a literal, and in a block the statement
then goes on with the next one.
-/

namespace TypeScriptGen

namespace Printer

/-- A text that does not end in a brace ends in a semicolon when it is terminated. -/
theorem terminated_cases (text : Text) :
    (terminated text = text ∨ terminated text = text ++ [';']) ∧
      ((terminated text).getLast? = some ';' ↔ text.getLast? ≠ some '\x7d') := by
  unfold terminated Text.endsWithAny
  cases last : text.getLast? with
  | none => simp
  | some c =>
      by_cases brace : c = '\x7d'
      · subst brace
        simp [last]
      · by_cases semicolon : c = ';'
        · subst semicolon
          simp [last]
        · simp [brace, semicolon]

/-- Two texts of a body that follow one another stand so in it, each indented. -/
theorem exists_body_around (printer : Printer) (before behind : List Text) (first second : Text) :
    ∃ above below, printer.body (before ++ first :: second :: behind) =
      above ++ Text.indentBy printer.margin first ++
        '\n' :: (Text.indentBy printer.margin second ++ '\n' :: below) := by
  refine ⟨'\x7b' :: '\n' :: (before.map (Text.indentBy printer.margin)).flatMap
      fun line => line ++ ['\n'],
    (behind.map (Text.indentBy printer.margin)).flatMap (fun line => line ++ ['\n']) ++ ['\x7d'],
    ?_⟩
  simp [body, braced]

end Printer

namespace Node

variable {printer : Printer} {nodes : List Node} {texts : List Text}

/-- The printed form of a block ends with its body. -/
theorem exists_print_block (comment : List Text)
    (printed : Printer.printAll printer nodes = .ok texts) :
    ∃ front, printer.print (.block nodes comment) = .ok (front ++ printer.body texts) := by
  have bare : Printer.bare printer (.block nodes comment) = .ok (printer.body texts) :=
    congrArg (Except.map printer.body) printed
  obtain ⟨front, whole⟩ := Text.above_isSuffix comment (printer.body texts)
  refine ⟨front, (bind_ok bare).trans ?_⟩
  rw [whole]
  rfl

end Node

namespace BlockDraft

variable {draft next : BlockDraft}

/-- A command for a nested statement adds the node that is made of its draft. -/
theorem isPrefix_nested {σ : Type} {drafted : Except Failure σ} {node : σ → Except Failure Node}
    {text : Option Text}
    (made : (drafted >>= fun inner => node inner >>= fun made => pure (draft.add made, none)) =
      Except.ok (next, text)) :
    draft.statements <+: next.statements := by
  obtain ⟨inner, _, made⟩ := exists_of_bind_ok made
  obtain ⟨found, _, made⟩ := exists_of_bind_ok made
  cases made
  exact List.prefix_append _ _

/-- A command only adds statements at the end. -/
theorem isPrefix_step {command : BlockCommand} {text : Option Text}
    (made : BlockDraft.step draft command = .ok (next, text)) :
    draft.statements <+: next.statements := by
  cases command with
  | comment comment =>
      obtain ⟨lines, rfl⟩ := exists_of_commented made
      exact List.prefix_rfl
  | print =>
      cases eq_of_printedDraft made
      exact List.prefix_rfl
  | statement content =>
      cases made
      exact List.prefix_append _ _
  | returns expression =>
      cases made
      exact List.prefix_append _ _
  | conditional commands => exact isPrefix_nested made
  | switch commands => exact isPrefix_nested made
  | forLoop commands => exact isPrefix_nested made
  | loop kind commands => exact isPrefix_nested made

theorem isPrefix_steps {commands : List BlockCommand}
    (ran : BlockDraft.steps draft commands = .ok next) : draft.statements <+: next.statements := by
  induction commands generalizing draft with
  | nil =>
      cases ran
      exact List.prefix_rfl
  | cons command commands ih =>
      obtain ⟨⟨middle, text⟩, stepped, ran⟩ := exists_of_bind_ok ran
      exact (isPrefix_step stepped).trans (ih ran)

theorem exists_of_steps_append {first second : List BlockCommand}
    (ran : BlockDraft.steps draft (first ++ second) = .ok next) :
    ∃ middle, BlockDraft.steps draft first = .ok middle ∧
      BlockDraft.steps middle second = .ok next := by
  induction first generalizing draft with
  | nil => exact ⟨draft, rfl, ran⟩
  | cons command first ih =>
      obtain ⟨⟨middle, text⟩, stepped, ran⟩ := exists_of_bind_ok ran
      obtain ⟨last, own, rest⟩ := ih ran
      exact ⟨last, (bind_ok stepped).trans own, rest⟩

/-- Statements that are added one after the other follow one another in the block. -/
theorem exists_statements_around {before after : List BlockCommand} {first second : Text}
    (ran : BlockDraft.steps draft (before ++ .statement first :: .statement second :: after) =
      .ok next) :
    ∃ front back, next.statements =
      front ++ Syntax.parseStatement first :: Syntax.parseStatement second :: back := by
  obtain ⟨middle, _, rest⟩ := exists_of_steps_append ran
  have later : BlockDraft.steps ((middle.add (Syntax.parseStatement first)).add
    (Syntax.parseStatement second)) after = .ok next := rest
  obtain ⟨back, whole⟩ := isPrefix_steps later
  refine ⟨middle.statements, back, ?_⟩
  rw [← whole]
  simp [add]

/-- In the printed block the two statements stand one below the other. -/
theorem exists_print_around {before after : List BlockCommand} {first second : Text}
    (ran : BlockDraft.steps .empty (before ++ .statement first :: .statement second :: after) =
      .ok next) {one other : Text} (firstPrinted : (Syntax.parseStatement first).print = .ok one)
    (secondPrinted : (Syntax.parseStatement second).print = .ok other) :
    ∃ above below, next.node.print = .ok (above ++ Text.indentBy Printer.defaultMargin one ++
      '\n' :: (Text.indentBy Printer.defaultMargin other ++ '\n' :: below)) := by
  have sound := BlockDraft.sound_steps BlockDraft.sound_empty _ ran
  obtain ⟨front, back, whole⟩ := exists_statements_around ran
  rw [BlockDraft.Sound, whole] at sound
  obtain ⟨frontTexts, frontPrinted, _⟩ := Node.printAll_ok fun node member =>
    (sound node (List.mem_append_left _ member)).toShown
  obtain ⟨backTexts, backPrinted, _⟩ := Node.printAll_ok fun node member =>
    (sound node (List.mem_append_right front (.tail _ (.tail _ member)))).toShown
  have texts : Printer.printAll .standard next.statements =
      .ok (frontTexts ++ one :: other :: backTexts) := by
    rw [whole]
    exact Node.printAll_append frontPrinted
      (Node.printAll_cons firstPrinted (Node.printAll_cons secondPrinted backPrinted))
  obtain ⟨front, printed⟩ := Node.exists_print_block next.comment texts
  obtain ⟨above, below, body⟩ :=
    Printer.standard.exists_body_around frontTexts backTexts one other
  refine ⟨front ++ above, below, printed.trans ?_⟩
  rw [body]
  simp only [List.append_assoc]
  rfl

end BlockDraft

/-- A statement that is given with a semicolon is printed, as what stands in front of it with or
without a semicolon, and with one exactly if no brace stands there. So the next statement of a
block is parted from it by a semicolon exactly then. -/
theorem terminator_kept_iff {text given : Text} (ends : Text.trim text = given ++ [';']) :
    ∃ shown, (Syntax.parseStatement text).print = .ok shown ∧
      (shown = Text.trimEnd given ∨ shown = Text.trimEnd given ++ [';']) ∧
      (shown.getLast? = some ';' ↔ (Text.trimEnd given).getLast? ≠ some '\x7d') ∧
      ((Text.indentBy Printer.defaultMargin shown).getLast? = some ';' ↔
        (Text.trimEnd given).getLast? ≠ some '\x7d') ∧
      ∀ (before after : List BlockCommand) (next : Text) (draft : BlockDraft),
        BlockDraft.steps .empty (before ++ .statement text :: .statement next :: after) =
          .ok draft →
        ∃ above below nextShown, (Syntax.parseStatement next).print = .ok nextShown ∧
          draft.node.print = .ok (above ++ Text.indentBy Printer.defaultMargin shown ++
            '\n' :: (Text.indentBy Printer.defaultMargin nextShown ++ '\n' :: below)) := by
  have body : Syntax.statementBody text = Text.trimEnd given := by
    rw [Syntax.statementBody, ends, List.getLast?_concat, if_pos rfl, List.dropLast_concat]
  have printed (other : Text) : (Syntax.parseStatement other).print =
      .ok (Printer.terminated (Text.trim (Syntax.statementBody other))) :=
    bind_ok (Syntax.bare_parseStatement .standard other)
  have own := printed text
  rw [body, Text.trim_trimEnd ends] at own
  obtain ⟨forms, kept⟩ := Printer.terminated_cases (Text.trimEnd given)
  refine ⟨_, own, forms, kept, by rwa [Text.getLast?_indentBy], ?_⟩
  intro before after next draft ran
  obtain ⟨above, below, whole⟩ := BlockDraft.exists_print_around ran own (printed next)
  exact ⟨above, below, _, printed next, whole⟩

/-- An assignment, with blanks around the semicolon. -/
theorem terminator_kept_assignment :
    Text.trim " x = 1 ; ".toList = "x = 1 ".toList ++ [';'] ∧
    ∃ shown, (Syntax.parseStatement " x = 1 ; ".toList).print = .ok shown ∧
      shown.getLast? = some ';' := by
  have ends : Text.trim " x = 1 ; ".toList = "x = 1 ".toList ++ [';'] := by decide
  obtain ⟨shown, printed, _, kept, _⟩ := terminator_kept_iff ends
  exact ⟨ends, shown, printed, kept.mpr (by decide)⟩

/-- The function that is assigned is called with what the next statement has in parentheses. -/
theorem terminator_lost_function :
    Text.trim "f = function () \x7b\x7d;".toList = "f = function () \x7b\x7d".toList ++ [';'] ∧
    (Syntax.parseStatement "f = function () \x7b\x7d;".toList).print =
      .ok "f = function () \x7b\x7d".toList ∧
    (BlockDraft.steps .empty [.statement "f = function () \x7b\x7d;".toList,
        .statement "(g)();".toList] >>= fun draft => draft.node.print) =
      .ok "\x7b\n    f = function () \x7b\x7d\n    (g)();\n\x7d".toList :=
  ⟨by decide, rfl, rfl⟩

end TypeScriptGen
