import TypeScriptGen.Proofs.Document.Call
import TypeScriptGen.Proofs.Document.Keeping
import TypeScriptGen.Proofs.Statement.Nesting
import TypeScriptGen.Proofs.Syntax.Spelling
import TypeScriptGen.Proofs.Usage.Mention

/-!
# Literals in nested statements

A statement that is nested in blocks, branches, clauses and loops is moved to the
right line by line, and this is done inside of literals as well. So a literal
comes out with all its lines but the first moved by every level: as it was given
when it is in one line, and never as it was given in every nesting when it is not.
-/

namespace TypeScriptGen

namespace Text

/-! ## Moving a stretch of a text -/

/-- Every line but the first is moved to the right. -/
def moved (margin : Nat) (text : Text) : Text :=
  match splitOn '\n' text with
  | [] => []
  | first :: rest => ['\n'].intercalate (first :: rest.map (indentLine margin))

theorem moved_of_oneLine {text : Text} (margin : Nat) (oneLine : '\n' ∉ text) :
    moved margin text = text := by
  unfold moved
  rw [splitOn_of_not_mem oneLine]
  exact List.intercalate_singleton

theorem exists_indentLine_append (margin : Nat) (front line : Text) :
    ∃ before, indentLine margin (front ++ line) = before ++ line := by
  unfold indentLine
  split
  · exact ⟨front, rfl⟩
  · exact ⟨spaces margin ++ front, (List.append_assoc _ _ _).symm⟩

theorem indentLine_append_of_visible {line : Text} (margin : Nat) (back : Text)
    (visible : isBlankLine line = false) :
    indentLine margin (line ++ back) = indentLine margin line ++ back := by
  have whole : isBlankLine (line ++ back) = false := by
    rw [isBlankLine_append, visible, Bool.false_and]
  rw [indentLine_of_visible margin whole, indentLine_of_visible margin visible, List.append_assoc]

/-- Only the first and the last line of a stretch are shared with the text around it. -/
theorem lines_around {first last part : Text} {middle : List Text}
    (cut : splitOn '\n' part = first :: (middle ++ [last])) (front back : Text) :
    ∃ before pad next behind, splitOn '\n' (front ++ part ++ back) =
      before ++ (pad ++ first) :: (middle ++ (last ++ next) :: behind) := by
  obtain ⟨next, behind, starts⟩ := Outline.exists_lines back
  obtain ⟨before, pad, ends⟩ :=
    (List.eq_nil_or_concat (splitOn '\n' front)).resolve_left (splitWhere_ne_nil _ front)
  rw [List.concat_eq_append] at ends
  rw [← List.cons_append] at cut
  have tail := splitOn_append cut starts
  rw [List.cons_append] at tail
  refine ⟨before, pad, next, behind, ?_⟩
  rw [List.append_assoc, splitOn_append ends tail]

/-- A stretch over several lines, the last of them visible, is moved with the text around it. -/
theorem moved_isInfix {first last part whole : Text} {middle : List Text} (margin : Nat)
    (cut : splitOn '\n' part = first :: (middle ++ [last])) (visible : isBlankLine last = false)
    (inside : part <:+: whole) : moved margin part <:+: indentBy margin whole := by
  obtain ⟨front, back, rfl⟩ := inside
  obtain ⟨before, start, next, behind, lines⟩ := lines_around cut front back
  obtain ⟨pad, padded⟩ := exists_indentLine_append margin start first
  have same : moved margin part =
      ['\n'].intercalate (first :: middle.map (indentLine margin) ++ [indentLine margin last]) := by
    unfold moved
    rw [cut]
    simp
  rw [same, indentBy, lines, List.map_append, List.map_cons, padded, List.map_append,
    List.map_cons, indentLine_append_of_visible margin next visible, ← joined_append,
    ← List.cons_append, ← joined_append]
  exact List.infix_append' _ _ _

end Text

namespace Syntax

/-! ## The literals of a statement -/

theorem literals_padding {front back : Text} (opening : IsPadding front) (closing : IsPadding back)
    (core : Text) : literals (front ++ (core ++ back)) = literals core := by
  unfold literals
  rw [tokens_padding opening closing, literalsOf_append, literalsOf_append, literalsOf_code,
    literalsOf_code, List.nil_append, List.append_nil]

theorem literals_trimEnd (text : Text) : literals (Text.trimEnd text) = literals text := by
  obtain ⟨blanks, whole, padding⟩ := exists_trimEnd text
  have same := literals_padding isPadding_nil padding (Text.trimEnd text)
  rwa [List.nil_append, ← whole, eq_comm] at same

theorem literals_trim (text : Text) : literals (Text.trim text) = literals text := by
  obtain ⟨blanks, whole, padding⟩ := exists_trimStart text
  have same := literals_padding padding isPadding_nil (Text.trimStart text)
  rw [List.append_nil, ← whole] at same
  rw [Text.trim, literals_trimEnd, same]

theorem literals_dropSemicolon {text : Text} (ends : text.getLast? = some ';') :
    literals (Text.trimEnd text.dropLast) = literals text := by
  obtain ⟨front, rfl⟩ := List.getLast?_eq_some_iff.mp ends
  rw [List.dropLast_concat, literals_trimEnd]
  exact (literals_padding isPadding_nil isPadding_semicolon front).symm

theorem literal_isInfix {literal : Literal} {text : Text} (among : literal ∈ literals text) :
    literal.text <:+: text := by
  have inside := Text.infix_flatMap Token.text (mem_literalsOf.mp among)
  rwa [tokens_text] at inside

/-- A statement without the semicolon at its end. -/
def statementBody (text : Text) : Text :=
  if (Text.trim text).getLast? = some ';' then Text.trimEnd (Text.trim text).dropLast
  else Text.trim text

theorem literals_statementBody (text : Text) : literals (statementBody text) = literals text := by
  rw [← literals_trim text, statementBody]
  split
  · next ends => exact literals_dropSemicolon ends
  · rfl

theorem bare_parseStatement (printer : Printer) (text : Text) :
    Printer.bare printer (parseStatement text) =
      .ok (Printer.terminated (Text.trim (statementBody text))) := by
  have made : parseStatement text = .expressionStatement (parseExpression (statementBody text)) :=
    rfl
  rw [made, ← withComment_parseExpression (statementBody text) (Text.trim (statementBody text))]
  exact bind_ok (bare_parseExpression printer (statementBody text))

/-- A statement is printed with its literals as they are. -/
theorem literal_isInfix_statement {literal : Literal} {text : Text}
    (among : literal ∈ literals text) :
    literal.text <:+: Printer.terminated (Text.trim (statementBody text)) := by
  rw [← literals_statementBody, ← literals_trim] at among
  exact (literal_isInfix among).trans (Node.infix_terminated _)

/-- A literal ends visibly, with its quote. -/
theorem exists_lines_literal {literal : Literal} (quote : isQuote literal.quote = true) :
    ∃ front last, Text.splitOn '\n' literal.text = front ++ [last ++ [literal.quote]] := by
  have single : Text.splitOn '\n' [literal.quote] = [[literal.quote]] := by
    refine Text.splitOn_of_not_mem fun member => ?_
    rw [← List.mem_singleton.mp member] at quote
    cases quote
  obtain ⟨front, last, ends⟩ :=
    (List.eq_nil_or_concat (Text.splitOn '\n' (literal.quote :: literal.content))).resolve_left
      (Text.splitWhere_ne_nil _ _)
  rw [List.concat_eq_append] at ends
  exact ⟨front, last, Text.splitOn_append ends single⟩

theorem visible_of_quote {c : Char} (line : Text) (quote : isQuote c = true) :
    Text.isBlankLine (line ++ [c]) = false := by
  have last : Text.isBlankLine [c] = false := by
    simp [Text.isBlankLine, isBlank_of_isQuote quote]
  rw [Text.isBlankLine_append, last, Bool.and_false]

theorem moved_literal_isInfix {literal : Literal} {text shown : Text} (margin : Nat)
    (among : literal ∈ literals text) (inside : literal.text <:+: shown) :
    Text.moved margin literal.text <:+: Text.indentBy margin shown := by
  have quote := isQuote_of_mem_literals 0 text among
  obtain ⟨front, last, cut⟩ := exists_lines_literal quote
  cases front with
  | nil =>
      have oneLine := Text.oneLine_of_splitOn cut
      rw [Text.moved_of_oneLine margin oneLine]
      exact Text.indentBy_isInfix margin inside oneLine
  | cons first middle => exact Text.moved_isInfix margin cut (visible_of_quote last quote) inside

end Syntax

/-! ## What the builders make -/

/-- A node that commands draft, as a block or as a statement of its own. -/
inductive Built : Node → Prop
  | block {commands : List BlockCommand} {draft : BlockDraft}
      (ran : BlockDraft.steps .empty commands = .ok draft) : Built draft.node
  | statement (form : StatementForm) {commands : List form.Command} {draft : form.Draft}
      {node : Node} (ran : form.steps form.empty commands = .ok draft)
      (made : form.node draft = .ok node) : Built node

theorem Built.movable {root : Node} (built : Built root) : Node.Movable root := by
  cases built with
  | block ran => exact (BlockDraft.sound_steps BlockDraft.sound_empty _ ran).node.1
  | statement form ran made =>
      cases form with
      | conditional =>
          exact (ConditionalDraft.sound_steps ConditionalDraft.sound_empty _ ran).node made
      | switch => exact (SwitchDraft.sound_steps SwitchDraft.sound_empty _ ran).node made
      | forLoop => exact (ForDraft.sound_steps ForDraft.sound_empty _ ran).node made
      | loop kind => exact (LoopDraft.sound_steps LoopDraft.sound_empty _ ran).node made

theorem Built.exists_print {root : Node} (built : Built root) : ∃ text, root.print = .ok text := by
  obtain ⟨text, printed, _⟩ := built.movable.printed
  exact ⟨_, bind_ok printed⟩

/-- A text in which a node is written: its own printed form, or that of a section with it. -/
inductive Generated (root : Node) : Text → Prop
  | alone {text : Text} (printed : root.print = .ok text) : Generated root text
  | within {current : Section} {kind : ItemKind} {label text : Text} (reached : current.Reached)
      (holds : ⟨kind, label, .node root⟩ ∈ current.items) (printed : current.print.2 = .ok text) :
      Generated root text

/-- The printed form of the node stands in whatever is generated with it. -/
theorem Generated.exists_isInfix {root : Node} {text : Text} (built : Built root)
    (generated : Generated root text) : ∃ shown, root.print = .ok shown ∧ shown <:+: text := by
  cases generated with
  | alone printed => exact ⟨text, printed, List.infix_rfl⟩
  | @within current kind label text reached holds printed =>
      obtain ⟨shown, own⟩ := built.exists_print
      have inside := Section.item_isInfix_of_print reached.sound printed holds rfl
      have same : Item.text ⟨kind, label, .node root⟩ = shown := Item.text_eq own
      rw [same] at inside
      exact ⟨shown, own, inside⟩

/-! ## Nested literals -/

theorem moved_literal_isInfix_print {text shown : Text} {literal : Syntax.Literal} {root : Node}
    {depth : Nat} (among : literal ∈ Syntax.literals text)
    (nested : Node.Nested (Syntax.parseStatement text) depth root)
    (printed : root.print = .ok shown) :
    Text.moved (Printer.defaultMargin * depth) literal.text <:+: shown := by
  obtain ⟨bare, own, printed⟩ := exists_of_bind_ok printed
  cases printed
  obtain ⟨inner, drawn, inside⟩ := nested.isInfix own
  rw [Syntax.bare_parseStatement] at drawn
  cases drawn
  have moves := Syntax.moved_literal_isInfix (Printer.defaultMargin * depth) among
    (Syntax.literal_isInfix_statement among)
  exact (moves.trans inside).trans (Text.above_isInfix _ _)

/-- Commands that put a statement into conditionals inside one another. -/
def wrapped (text : Text) : Nat → List BlockCommand
  | 0 => [.statement text]
  | levels + 1 => [.conditional [.condition ['c'], .body (wrapped text levels)]]

def wrappedNode (text : Text) : Nat → Node
  | 0 => Syntax.parseStatement text
  | levels + 1 =>
      .conditional (Syntax.parseExpression ['c']) (.block [wrappedNode text levels] []) none []

theorem steps_conditional {text : Text} {commands : List BlockCommand} {draft : BlockDraft}
    (ran : BlockDraft.steps .empty commands = .ok draft) :
    ConditionalDraft.steps .empty [.condition text, .body commands] =
      .ok ⟨text, some draft.node, [], none, []⟩ := by
  have body (start : ConditionalDraft) : ConditionalDraft.steps start [.body commands] =
      .ok { start with body := some draft.node } := by
    rw [ConditionalDraft.steps, ConditionalDraft.step, ran]
    rfl
  exact body { ConditionalDraft.empty with condition := text }

theorem steps_wrapped (text : Text) (levels : Nat) :
    BlockDraft.steps .empty (wrapped text levels) = .ok ⟨[wrappedNode text levels], []⟩ := by
  induction levels with
  | zero => rfl
  | succ levels ih =>
      rw [wrapped, BlockDraft.steps, BlockDraft.step, steps_conditional ih]
      rfl

theorem built_wrappedNode (text : Text) (levels : Nat) :
    Built (wrappedNode text (levels + 1)) := by
  have ran : StatementForm.conditional.steps StatementForm.conditional.empty
      [ConditionalCommand.condition ['c'], .body (wrapped text levels)] =
        .ok ⟨['c'], some (.block [wrappedNode text levels] []), [], none, []⟩ :=
    steps_conditional (steps_wrapped text levels)
  exact .statement .conditional ran rfl

theorem nested_wrappedNode (text : Text) (levels : Nat) :
    Node.Nested (Syntax.parseStatement text) (levels + 1) (wrappedNode text (levels + 1)) := by
  induction levels with
  | zero => exact .direct List.mem_cons_self
  | succ levels ih => exact .deeper List.mem_cons_self ih

theorem bare_wrappedNode {printer : Printer} {text inner : Text} {levels : Nat}
    (printed : Printer.bare printer (wrappedNode text levels) = .ok inner) :
    Printer.bare printer (wrappedNode text (levels + 1)) =
      .ok ("if (c) ".toList ++ printer.body [inner]) := by
  have leading : (wrappedNode text levels).withComment inner = inner := by
    cases levels <;> rfl
  have all : Printer.printAll printer [wrappedNode text levels] = .ok [inner] := by
    refine (bind_ok printed).trans ?_
    rw [leading]
    rfl
  have body : Printer.printBody printer (.block [wrappedNode text levels] []) =
      .ok (printer.body [inner]) := congrArg (Except.map printer.body) all
  have test := Syntax.bare_parseExpression printer ['c']
  refine (bind_ok test).trans ((bind_ok body).trans ((bind_ok rfl).trans ?_))
  rw [Syntax.withComment_parseExpression]
  exact congrArg Except.ok (List.append_nil _)

theorem lines_wrappedNode (printer : Printer) (inner : Text) :
    Text.splitOn '\n' ("if (c) ".toList ++ printer.body [inner]) =
      "if (c) \x7b".toList :: (Text.indentedLines printer.margin inner ++ [['\x7d']]) := by
  have first : Text.splitOn '\n' "if (c) ".toList = [] ++ ["if (c) ".toList] := rfl
  rw [Text.splitOn_append first (Text.splitOn_body printer [inner]), List.flatMap_cons,
    List.flatMap_nil, List.append_nil]
  rfl

theorem spaces_succ (margin levels : Nat) :
    Text.spaces (margin * (levels + 1)) = Text.spaces margin ++ Text.spaces (margin * levels) := by
  rw [Nat.mul_succ, Nat.add_comm]
  exact List.replicate_append_replicate.symm

/-- A line that holds a quote is moved by every level of the conditionals around it. -/
theorem exists_bare_wrappedNode (printer : Printer) (text : Text) (levels : Nat) :
    ∃ shown, Printer.bare printer (wrappedNode text levels) = .ok shown ∧
      ∀ line ∈ Text.splitOn '\n' shown, ∀ c ∈ line, Syntax.isQuote c = true →
        Text.spaces (printer.margin * levels) <+: line := by
  induction levels with
  | zero => exact ⟨_, Syntax.bare_parseStatement printer text, fun _ _ _ _ _ => List.nil_prefix⟩
  | succ levels ih =>
      obtain ⟨inner, printed, moved⟩ := ih
      refine ⟨_, bare_wrappedNode printed, fun line member c inside quote => ?_⟩
      rw [lines_wrappedNode] at member
      rcases List.mem_cons.mp member with rfl | member
      · have plain : Syntax.isQuote c = false := Syntax.isQuote_of_any rfl c inside
        rw [plain] at quote
        cases quote
      rcases List.mem_append.mp member with within | closing
      · obtain ⟨own, among, rfl⟩ := List.mem_map.mp within
        have blank := Syntax.isBlank_of_isQuote quote
        have held : c ∈ own := (Text.mem_indentLine blank).mp inside
        have visible : Text.isBlankLine own = false :=
          List.all_eq_false.mpr ⟨c, held, by rw [blank]; exact Bool.false_ne_true⟩
        rw [Text.indentLine_of_visible _ visible, spaces_succ]
        exact (List.prefix_append_right_inj _).mpr (moved own among c held quote)
      · rw [List.mem_singleton.mp closing] at inside
        rw [List.mem_singleton.mp inside] at quote
        cases quote

/-- Conditionals around a statement can be so many that no literal over several lines is left as it
was. -/
theorem exists_changed {text : Text} {literal : Syntax.Literal}
    (among : literal ∈ Syntax.literals text) (feed : '\n' ∈ literal.text) :
    ∃ shown, (wrappedNode text (literal.text.length + 1)).print = .ok shown ∧
      ¬ literal.text <:+: shown := by
  obtain ⟨shown, own, moved⟩ :=
    exists_bare_wrappedNode .standard text (literal.text.length + 1)
  refine ⟨shown, bind_ok own, fun inside => ?_⟩
  have quote := Syntax.isQuote_of_mem_literals 0 text among
  obtain ⟨front, last, cut⟩ := Syntax.exists_lines_literal quote
  cases front with
  | nil => exact Text.oneLine_of_splitOn cut feed
  | cons first middle =>
      obtain ⟨left, right, rfl⟩ := inside
      obtain ⟨before, pad, next, behind, lines⟩ := Text.lines_around cut left right
      have among : last ++ [literal.quote] ++ next ∈
          Text.splitOn '\n' (left ++ literal.text ++ right) := by
        rw [lines]
        exact List.mem_append_right _ (.tail _ (List.mem_append_right _ (.head _)))
      -- The last line of the literal starts a line, which is moved further than the line is long.
      have spaces := moved _ among literal.quote (by simp) quote
      have within : last ++ [literal.quote] <:+: literal.text := by
        rw [← Text.intercalate_splitOn '\n' literal.text, cut]
        exact Text.infix_intercalate _ (by simp)
      have short : (last ++ [literal.quote]).length ≤
          (Text.spaces (Printer.standard.margin * (literal.text.length + 1))).length := by
        have size := within.length_le
        have margin : Printer.standard.margin = 4 := rfl
        rw [Text.spaces, List.length_replicate, margin]
        omega
      have blank := List.prefix_of_prefix_length_le (List.prefix_append _ next) spaces short
      have space : literal.quote = ' ' :=
        List.eq_of_mem_replicate (blank.subset (List.mem_append_right _ List.mem_cons_self))
      rw [space] at quote
      cases quote

/-- A literal of a statement comes out with its lines moved by every level around the statement,
and it comes out as it was given in every nesting exactly when it is in one line. -/
theorem nested_literal {text : Text} {literal : Syntax.Literal}
    (among : literal ∈ Syntax.literals text) :
    (∀ root depth, Built root → Node.Nested (Syntax.parseStatement text) depth root →
      (∃ shown, root.print = .ok shown) ∧
        ∀ shown, Generated root shown →
          Text.moved (Printer.defaultMargin * depth) literal.text <:+: shown) ∧
    ((∀ root depth, Built root → Node.Nested (Syntax.parseStatement text) depth root →
      ∀ shown, Generated root shown → literal.text <:+: shown) ↔ '\n' ∉ literal.text) := by
  have moves (root : Node) (depth : Nat) (built : Built root)
      (nested : Node.Nested (Syntax.parseStatement text) depth root) (shown : Text)
      (generated : Generated root shown) :
      Text.moved (Printer.defaultMargin * depth) literal.text <:+: shown := by
    obtain ⟨own, printed, inside⟩ := generated.exists_isInfix built
    exact (moved_literal_isInfix_print among nested printed).trans inside
  refine ⟨fun root depth built nested =>
    ⟨built.exists_print, moves root depth built nested⟩, ?_, ?_⟩
  · intro verbatim feed
    obtain ⟨shown, printed, changed⟩ := exists_changed among feed
    exact changed (verbatim _ _ (built_wrappedNode text _) (nested_wrappedNode text _) shown
      (.alone printed))
  · intro oneLine root depth built nested shown generated
    have inside := moves root depth built nested shown generated
    rwa [Text.moved_of_oneLine _ oneLine] at inside

/-- An assignment of a template literal over two lines. -/
private def assignment : Text := "x = `a\nb`;".toList

private def template : Syntax.Literal := ⟨'\x60', "a\nb".toList⟩

theorem nested_literal_template :
    template ∈ Syntax.literals assignment ∧
    (∀ root depth, Built root → Node.Nested (Syntax.parseStatement assignment) depth root →
      (∃ shown, root.print = .ok shown) ∧
        ∀ shown, Generated root shown →
          Text.moved (Printer.defaultMargin * depth) template.text <:+: shown) ∧
    ((∀ root depth, Built root → Node.Nested (Syntax.parseStatement assignment) depth root →
      ∀ shown, Generated root shown → template.text <:+: shown) ↔ '\n' ∉ template.text) :=
  ⟨by decide, nested_literal (by decide)⟩

/-- Inside one conditional the second line of the literal is indented. -/
theorem nested_literal_changed :
    template ∈ Syntax.literals assignment ∧ Built (wrappedNode assignment 1) ∧
    Node.Nested (Syntax.parseStatement assignment) 1 (wrappedNode assignment 1) ∧
    (wrappedNode assignment 1).print = .ok "if (c) \x7b\n    x = `a\n    b`;\n\x7d".toList ∧
    ¬ template.text <:+: "if (c) \x7b\n    x = `a\n    b`;\n\x7d".toList :=
  ⟨by decide, built_wrappedNode assignment 0, nested_wrappedNode assignment 0, rfl,
    by decide +kernel⟩

end TypeScriptGen
