import TypeScriptGen.Proofs.Syntax.Shown

/-!
# Statements that show their names

The statements of a body are indented, so their names must be in one line; the
names of all statements that can be added are. Conditionals and loops are printed
when their bodies are blocks.
-/

namespace TypeScriptGen

open Usage (namesIn)

namespace Node

/-- A body of statements. -/
def IsBody (node : Node) : Prop := ∃ statements comment, node = .block statements comment

theorem Movable.block {statements : List Node} (comment : List Text)
    (movable : ∀ node ∈ statements, Movable node) : Movable (.block statements comment) := by
  obtain ⟨lines, printed, covered⟩ := printAll_ok fun node member => (movable node member).toShown
  have indented := covered.indent (fun node member => (movable node member).oneLine)
    Printer.standard.margin
  refine .of_children (Printer.standard.body lines) rfl rfl movable ?_
    (indented.isInfix infix_braced)
  exact congrArg (Except.map Printer.standard.body) printed

theorem infix_terminated (text : Text) : text <:+: Printer.terminated text := by
  unfold Printer.terminated
  split
  · exact List.infix_rfl
  · exact List.infix_append_left

theorem Movable.expressionStatement {expression : Node} (movable : Movable expression) :
    Movable (.expressionStatement expression) := by
  obtain ⟨text, printed, names⟩ := movable.printed
  refine .of_children (Printer.terminated (expression.withComment text)) rfl rfl
    (forall_singleton movable) ?_ (forall_singleton fun name member => ?_)
  · exact bind_ok printed
  · exact (infix_withComment (names name member)).trans (infix_terminated _)

theorem Movable.returnStatement {expression : Option Node}
    (movable : ∀ node ∈ expression.toList, Movable node) :
    Movable (.returnStatement expression) := by
  obtain ⟨text, printed, covered⟩ :=
    printOption_ok fun node member => (movable node member).toShown
  refine .of_children ("return".toList ++ Printer.optionalPart " " text ++ [';']) rfl rfl
    movable ?_ (covered.isInfix fun part written => ?_)
  · exact bind_ok printed
  · exact List.infix_append_of_infix_left
      (List.infix_append_of_infix_right (infix_optionalPart part written))

/-- A body is printed as the block that it is. -/
theorem printBody_eq {body : Node} (isBody : IsBody body) :
    Printer.printBody .standard body = Printer.standard.bare body := by
  obtain ⟨statements, comment, rfl⟩ := isBody
  rfl

theorem printAlternative_ok {alternative : Option Node}
    (shown : ∀ node ∈ alternative.toList, Shown node)
    (kinds : ∀ node ∈ alternative.toList, node.isConditional = true ∨ IsBody node) :
    ∃ text, Printer.printAlternative .standard alternative = .ok text ∧
      Covered alternative.toList text.toList := by
  cases alternative with
  | none => exact ⟨none, rfl, nofun⟩
  | some node =>
      obtain ⟨text, printed, names⟩ := (shown node List.mem_cons_self).printed
      refine ⟨some text, ?_, fun other among name member => ?_⟩
      · rw [Printer.printAlternative]
        rcases kinds node List.mem_cons_self with conditional | isBody
        · rw [if_pos conditional]
          exact bind_ok printed
        · rw [printBody_eq isBody, ite_self]
          exact bind_ok printed
      · rw [List.mem_singleton.mp among] at member
        exact ⟨text, List.mem_cons_self, names name member⟩

theorem Movable.conditional {condition body : Node} {alternative : Option Node}
    (comment : List Text) (test : Movable condition) (movable : Movable body)
    (isBody : IsBody body) (others : ∀ node ∈ alternative.toList, Movable node)
    (kinds : ∀ node ∈ alternative.toList, node.isConditional = true ∨ IsBody node) :
    Movable (.conditional condition body alternative comment) := by
  obtain ⟨first, one, firstNames⟩ := test.printed
  obtain ⟨second, two, secondNames⟩ := movable.printed
  obtain ⟨third, three, thirdCovered⟩ :=
    printAlternative_ok (fun node member => (others node member).toShown) kinds
  refine .of_children
    ("if (".toList ++ condition.withComment first ++ ") ".toList ++ second ++
      Printer.optionalPart " else " third) rfl rfl
    (forall_cons test (forall_cons movable others)) ?_
    (forall_cons (fun name member => ?_) (forall_cons (fun name member => ?_) ?_))
  · rw [← printBody_eq isBody] at two
    exact (bind_ok one).trans ((bind_ok two).trans (bind_ok three))
  · exact List.infix_append_of_infix_left (List.infix_append_of_infix_left
      (List.infix_append_of_infix_left
        (List.infix_append_of_infix_right (infix_withComment (firstNames name member)))))
  · exact List.infix_append_of_infix_left
      (List.infix_append_of_infix_right (secondNames name member))
  · exact thirdCovered.isInfix fun part written =>
      List.infix_append_of_infix_right (infix_optionalPart part written)

theorem Movable.caseClause {value : Node} {statements : List Node} (label : Movable value)
    (movable : ∀ node ∈ statements, Movable node) : Movable (.caseClause value statements) := by
  obtain ⟨text, one, names⟩ := label.printed
  obtain ⟨lines, two, covered⟩ := printAll_ok fun node member => (movable node member).toShown
  have indented := covered.indent (fun node member => (movable node member).oneLine)
    Printer.standard.margin
  refine .of_children
    (['\n'].intercalate (("case ".toList ++ value.withComment text ++ [':']) ::
      lines.map (Text.indentBy Printer.standard.margin))) rfl rfl (forall_cons label movable) ?_
    (forall_cons (fun name member => ?_) (indented.isInfix fun line written => ?_))
  · exact (bind_ok one).trans (bind_ok two)
  · have inside : name <:+: "case ".toList ++ value.withComment text ++ [':'] :=
      List.infix_append_of_infix_left
        (List.infix_append_of_infix_right (infix_withComment (names name member)))
    exact inside.trans (Text.infix_intercalate _ List.mem_cons_self)
  · exact Text.infix_intercalate _ (List.mem_cons_of_mem _ written)

theorem Movable.defaultClause {statements : List Node}
    (movable : ∀ node ∈ statements, Movable node) : Movable (.defaultClause statements) := by
  obtain ⟨lines, printed, covered⟩ := printAll_ok fun node member => (movable node member).toShown
  have indented := covered.indent (fun node member => (movable node member).oneLine)
    Printer.standard.margin
  refine .of_children
    (['\n'].intercalate ("default:".toList ::
      lines.map (Text.indentBy Printer.standard.margin))) rfl rfl movable ?_
    (indented.isInfix fun line written => Text.infix_intercalate _ (List.mem_cons_of_mem _ written))
  exact bind_ok printed

theorem Movable.switchStatement {expression : Node} {clauses : List Node} (comment : List Text)
    (subject : Movable expression) (movable : ∀ node ∈ clauses, Movable node) :
    Movable (.switchStatement expression clauses comment) := by
  obtain ⟨text, one, names⟩ := subject.printed
  obtain ⟨lines, two, covered⟩ := printAll_ok fun node member => (movable node member).toShown
  have indented := covered.indent (fun node member => (movable node member).oneLine)
    Printer.standard.margin
  refine .of_children
    ("switch (".toList ++ expression.withComment text ++ ") ".toList ++
      Printer.standard.body lines) rfl rfl (forall_cons subject movable) ?_
    (forall_cons (fun name member => ?_) (indented.isInfix fun line written => ?_))
  · exact (bind_ok one).trans (bind_ok two)
  · exact List.infix_append_of_infix_left (List.infix_append_of_infix_left
      (List.infix_append_of_infix_right (infix_withComment (names name member))))
  · exact List.infix_append_of_infix_right (infix_braced line written)

theorem infix_headerPart (text : Text) : text <:+: Printer.headerPart text := by
  unfold Printer.headerPart
  split
  · next empty =>
      rw [List.isEmpty_iff.mp empty]
      exact List.nil_infix
  · exact List.infix_append_right

theorem infix_getD {text : Option Text} : ∀ part ∈ text.toList, part <:+: text.getD [] := by
  intro part member
  cases text with
  | none => cases member
  | some text =>
      rw [List.mem_singleton.mp member]
      exact List.infix_rfl

theorem Movable.forLoop {body : Node} {start condition step : Option Node} (comment : List Text)
    (movable : Movable body) (isBody : IsBody body) (first : ∀ node ∈ start.toList, Movable node)
    (second : ∀ node ∈ condition.toList, Movable node)
    (third : ∀ node ∈ step.toList, Movable node) :
    Movable (.forLoop body start condition step comment) := by
  obtain ⟨text, printed, names⟩ := movable.printed
  obtain ⟨one, onePrinted, oneCovered⟩ :=
    printOption_ok fun node member => (first node member).toShown
  obtain ⟨two, twoPrinted, twoCovered⟩ :=
    printOption_ok fun node member => (second node member).toShown
  obtain ⟨three, threePrinted, threeCovered⟩ :=
    printOption_ok fun node member => (third node member).toShown
  refine .of_children
    ("for (".toList ++ one.getD [] ++ Printer.headerPart (two.getD []) ++
      Printer.headerPart (three.getD []) ++ ") ".toList ++ text) rfl rfl
    (forall_append (forall_append (forall_cons movable first) second) third) ?_
    (forall_append (forall_append (forall_cons (fun name member => ?_) ?_) ?_) ?_)
  · rw [← printBody_eq isBody] at printed
    exact (bind_ok onePrinted).trans ((bind_ok twoPrinted).trans
      ((bind_ok threePrinted).trans (bind_ok printed)))
  · exact List.infix_append_of_infix_right (names name member)
  · exact oneCovered.isInfix fun part written => List.infix_append_of_infix_left
      (List.infix_append_of_infix_left (List.infix_append_of_infix_left
        (List.infix_append_of_infix_left
          (List.infix_append_of_infix_right (infix_getD part written)))))
  · exact twoCovered.isInfix fun part written => List.infix_append_of_infix_left
      (List.infix_append_of_infix_left (List.infix_append_of_infix_left
        (List.infix_append_of_infix_right ((infix_getD part written).trans (infix_headerPart _)))))
  · exact threeCovered.isInfix fun part written => List.infix_append_of_infix_left
      (List.infix_append_of_infix_left
        (List.infix_append_of_infix_right ((infix_getD part written).trans (infix_headerPart _))))

theorem Movable.whileLoop {condition body : Node} (comment : List Text) (test : Movable condition)
    (movable : Movable body) (isBody : IsBody body) :
    Movable (.whileLoop condition body comment) := by
  obtain ⟨first, one, firstNames⟩ := test.printed
  obtain ⟨second, two, secondNames⟩ := movable.printed
  refine .of_children
    ("while (".toList ++ condition.withComment first ++ ") ".toList ++ second) rfl rfl
    (forall_cons test (forall_singleton movable)) ?_
    (forall_cons (fun name member => ?_) (forall_singleton fun name member => ?_))
  · rw [← printBody_eq isBody] at two
    exact (bind_ok one).trans (bind_ok two)
  · exact List.infix_append_of_infix_left (List.infix_append_of_infix_left
      (List.infix_append_of_infix_right (infix_withComment (firstNames name member))))
  · exact List.infix_append_of_infix_right (secondNames name member)

theorem Movable.doLoop {body condition : Node} (comment : List Text) (movable : Movable body)
    (isBody : IsBody body) (test : Movable condition) :
    Movable (.doLoop body condition comment) := by
  obtain ⟨first, one, firstNames⟩ := movable.printed
  obtain ⟨second, two, secondNames⟩ := test.printed
  refine .of_children
    ("do ".toList ++ first ++ " while (".toList ++ condition.withComment second ++
      ");".toList) rfl rfl (forall_cons movable (forall_singleton test)) ?_
    (forall_cons (fun name member => ?_) (forall_singleton fun name member => ?_))
  · rw [← printBody_eq isBody] at one
    exact (bind_ok one).trans (bind_ok two)
  · exact List.infix_append_of_infix_left (List.infix_append_of_infix_left
      (List.infix_append_of_infix_left (List.infix_append_of_infix_right (firstNames name member))))
  · exact List.infix_append_of_infix_left
      (List.infix_append_of_infix_right (infix_withComment (secondNames name member)))

end Node

end TypeScriptGen
