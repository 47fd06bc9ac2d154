import TypeScriptGen.Proofs.Statement.Shown
import TypeScriptGen.Proofs.Syntax.OutlineParts
import TypeScriptGen.Proofs.Usage.Descendants

/-!
# Printing in one pass

A node has an outline, which is made from the top down: bodies, clauses and member
lists put what they hold one level deeper, and no text is moved once it is
written. Printing, which indents the text of a body again for every level around
it, gives the text of this outline, whatever the margin. Trees whose bodies are
blocks and that hold no placeholder are always printed.
-/

namespace TypeScriptGen

namespace Node

open Outline

/-- The text that stands in the place of a node as it is. -/
def verbatim : Node → Text
  | .raw code _ => code
  | _ => []

/-- The outline of a node under the comment in front of it. -/
def commented (depth : Nat) (node : Node) (outline : Outline) : Outline :=
  above depth node.leadingComment outline

mutual

/-- The outline of a node without the comment in front of it, at a depth. -/
def outline (depth : Nat) : Node → Outline
  | .named name => flat depth (Printer.nameText name)
  | .typeReference name arguments =>
      flat depth (Printer.nameText name) ++ angled depth (outlineAll depth arguments)
  | .propertyAccess target member =>
      commented depth target (outline depth target) ++ flat depth ('.' :: member)
  | .call callee arguments =>
      commented depth callee (outline depth callee) ++ flat depth ['('] ++
        separated depth ", ".toList (outlineAll depth arguments) ++ flat depth [')']
  | .stringLiteral content => flat depth (Text.guard content)
  | .numericLiteral number => flat depth number
  | .raw code _ => flat depth code
  | .literalType literal => commented depth literal (outline depth literal)
  | .arrayType element =>
      grouped depth (Printer.needsGroup element element.verbatim)
        (commented depth element (outline depth element)) ++ flat depth ['[', ']']
  | .unionType members => separated depth " | ".toList (outlineAll depth members)
  | .intersectionType members => separated depth " & ".toList (outlineAll depth members)
  | .tupleType elements =>
      flat depth ['['] ++ separated depth ", ".toList (outlineAll depth elements) ++
        flat depth [']']
  | .typeOperator operator operand =>
      flat depth (operator ++ [' ']) ++ commented depth operand (outline depth operand)
  | .typeQuery expression =>
      flat depth "typeof ".toList ++ commented depth expression (outline depth expression)
  | .typeParameter name constraint default =>
      flat depth name ++ optionalPart depth " extends " (outlineOption depth constraint) ++
        optionalPart depth " = " (outlineOption depth default)
  | .property name type optional readonly _ =>
      flat depth ((if readonly then "readonly ".toList else []) ++ name ++
        (if optional then ['?'] else []) ++ ": ".toList) ++
        commented depth type (outline depth type) ++ flat depth [';']
  | .interface name members heritage exported comment =>
      above depth comment (flat depth (Template.exportPart exported ++ "interface ".toList ++ name) ++
        extended depth (outlineAll depth heritage) ++ flat depth [' '] ++
        braced depth (outlineAll (depth + 1) members))
  | .typeAlias name type parameters exported comment =>
      above depth comment (flat depth (Template.exportPart exported ++ "type ".toList ++ name) ++
        angled depth (outlineAll depth parameters) ++ flat depth " = ".toList ++
        commented depth type (outline depth type) ++ flat depth [';'])
  | .enumMember name value =>
      flat depth (name ++ " = ".toList) ++ commented depth value (outline depth value)
  | .enumeration name members exported constant comment =>
      above depth comment (flat depth (Template.exportPart exported ++
        Template.whenSet constant "const ".toList ++ "enum ".toList ++ name ++ [' ']) ++
        braced depth (commaEnded depth (outlineAll (depth + 1) members)))
  | .block statements _ => braced depth (outlineAll (depth + 1) statements)
  | .expressionStatement expression =>
      terminated depth (commented depth expression (outline depth expression))
  | .returnStatement expression =>
      flat depth "return".toList ++ optionalPart depth " " (outlineOption depth expression) ++
        flat depth [';']
  | .conditional condition body alternative _ =>
      flat depth "if (".toList ++ commented depth condition (outline depth condition) ++
        flat depth ") ".toList ++ outlineBody depth body ++
        optionalPart depth " else " (outlineAlternative depth alternative)
  | .caseClause value statements =>
      (flat depth "case ".toList ++ commented depth value (outline depth value) ++
        flat depth [':']).stacked (outlineAll (depth + 1) statements)
  | .defaultClause statements =>
      (flat depth "default:".toList).stacked (outlineAll (depth + 1) statements)
  | .switchStatement expression clauses _ =>
      flat depth "switch (".toList ++ commented depth expression (outline depth expression) ++
        flat depth ") ".toList ++ braced depth (outlineAll (depth + 1) clauses)
  | .forLoop body start condition step _ =>
      flat depth "for (".toList ++ given depth (outlineOption depth start) ++
        headerPart depth (given depth (outlineOption depth condition)) ++
        headerPart depth (given depth (outlineOption depth step)) ++ flat depth ") ".toList ++
        outlineBody depth body
  | .whileLoop condition body _ =>
      flat depth "while (".toList ++ commented depth condition (outline depth condition) ++
        flat depth ") ".toList ++ outlineBody depth body
  | .doLoop body condition _ =>
      flat depth "do ".toList ++ outlineBody depth body ++ flat depth " while (".toList ++
        commented depth condition (outline depth condition) ++ flat depth ");".toList
  | .placeholder => flat depth []

/-- The outlines of nodes with their comments. -/
def outlineAll (depth : Nat) : List Node → List Outline
  | [] => []
  | node :: nodes => commented depth node (outline depth node) :: outlineAll depth nodes

def outlineOption (depth : Nat) : Option Node → Option Outline
  | none => none
  | some node => some (commented depth node (outline depth node))

def outlineBody (depth : Nat) : Node → Outline
  | .block statements _ => braced depth (outlineAll (depth + 1) statements)
  | _ => flat depth []

def outlineAlternative (depth : Nat) : Option Node → Option Outline
  | none => none
  | some node => some (if node.isConditional then outline depth node else outlineBody depth node)

end

/-! ## Printing gives the outline -/

/-- The printer gives a node the text that its outline lays out. -/
def OnePass (margin depth : Nat) (node : Node) : Prop :=
  ∃ text, Printer.bare ⟨.standard, margin⟩ node = .ok text ∧
    Lays margin depth (outline depth node) text

section Printing

variable {margin depth : Nat} {node condition body : Node} {nodes statements : List Node}

theorem lays_commented {layout : Outline} {text : Text} (node : Node)
    (lays : Lays margin depth layout text) :
    Lays margin depth (commented depth node layout) (node.withComment text) :=
  lays_above node.leadingComment lays

theorem onePass_all (each : ∀ node ∈ nodes, OnePass margin depth node) :
    ∃ texts, Printer.printAll ⟨.standard, margin⟩ nodes = .ok texts ∧
      List.Forall₂ (Lays margin depth) (outlineAll depth nodes) texts := by
  induction nodes with
  | nil => exact ⟨[], rfl, .nil⟩
  | cons node nodes ih =>
      obtain ⟨text, printed, lays⟩ := each node List.mem_cons_self
      obtain ⟨texts, all, more⟩ := ih fun other member =>
        each other (List.mem_cons_of_mem node member)
      refine ⟨node.withComment text :: texts, ?_, .cons (lays_commented node lays) more⟩
      exact (bind_ok printed).trans (bind_ok all)

theorem onePass_option {node : Option Node}
    (each : ∀ found ∈ node.toList, OnePass margin depth found) :
    ∃ text, Printer.printOption ⟨.standard, margin⟩ node = .ok text ∧
      Option.Rel (Lays margin depth) (outlineOption depth node) text := by
  cases node with
  | none => exact ⟨none, rfl, .none⟩
  | some node =>
      obtain ⟨text, printed, lays⟩ := each node List.mem_cons_self
      exact ⟨some (node.withComment text), bind_ok printed, .some (lays_commented node lays)⟩

theorem onePass_body (isBody : IsBody body) (each : OnePass margin depth body) :
    ∃ text, Printer.printBody ⟨.standard, margin⟩ body = .ok text ∧
      Lays margin depth (outlineBody depth body) text := by
  obtain ⟨statements, comment, rfl⟩ := isBody
  exact each

theorem onePass_alternative {alternative : Option Node}
    (kinds : ∀ node ∈ alternative.toList, node.isConditional = true ∨ IsBody node)
    (each : ∀ node ∈ alternative.toList, OnePass margin depth node) :
    ∃ text, Printer.printAlternative ⟨.standard, margin⟩ alternative = .ok text ∧
      Option.Rel (Lays margin depth) (outlineAlternative depth alternative) text := by
  cases alternative with
  | none => exact ⟨none, rfl, .none⟩
  | some node =>
      have here := each node List.mem_cons_self
      rw [Printer.printAlternative, outlineAlternative]
      rcases kinds node List.mem_cons_self with conditional | isBody
      · obtain ⟨text, printed, lays⟩ := here
        rw [if_pos conditional, if_pos conditional]
        exact ⟨some text, bind_ok printed, .some lays⟩
      · obtain ⟨statements, comment, rfl⟩ := isBody
        obtain ⟨text, printed, lays⟩ := here
        exact ⟨some text, bind_ok printed, .some lays⟩

/-! ### Expressions and types -/

theorem OnePass.typeReference (name : Name) (each : ∀ node ∈ nodes, OnePass margin depth node) :
    OnePass margin depth (.typeReference name nodes) := by
  obtain ⟨texts, printed, lays⟩ := onePass_all each
  exact ⟨_, bind_ok printed, (lays_flat margin depth _).append (lays_angled lays)⟩

theorem OnePass.propertyAccess (member : Text) (target : OnePass margin depth node) :
    OnePass margin depth (.propertyAccess node member) := by
  obtain ⟨text, printed, lays⟩ := target
  exact ⟨_, bind_ok printed, (lays_commented node lays).append (lays_flat margin depth _)⟩

theorem OnePass.call (callee : OnePass margin depth node)
    (each : ∀ argument ∈ nodes, OnePass margin depth argument) :
    OnePass margin depth (.call node nodes) := by
  obtain ⟨texts, all, arguments⟩ := onePass_all each
  obtain ⟨text, printed, lays⟩ := callee
  refine ⟨_, (bind_ok all).trans (bind_ok printed), ?_⟩
  rw [List.append_cons _ '(']
  exact (((lays_commented node lays).append (lays_flat margin depth ['('])).append
    (lays_separated ", ".toList arguments)).append (lays_flat margin depth [')'])

theorem OnePass.literalType (literal : OnePass margin depth node) :
    OnePass margin depth (.literalType node) := by
  obtain ⟨text, printed, lays⟩ := literal
  exact ⟨_, bind_ok printed, lays_commented node lays⟩

/-- Only of verbatim text does the text say whether an array of it needs parentheses. -/
theorem needsGroup_withComment {text : Text}
    (printed : Printer.bare ⟨.standard, margin⟩ node = .ok text) :
    Printer.needsGroup node node.verbatim = Printer.needsGroup node (node.withComment text) := by
  cases node with
  | raw code references =>
      cases printed
      rfl
  | _ => rfl

theorem OnePass.arrayType (element : OnePass margin depth node) :
    OnePass margin depth (.arrayType node) := by
  obtain ⟨text, printed, lays⟩ := element
  exact ⟨_, bind_ok printed,
    (lays_grouped (lays_commented node lays) (needsGroup_withComment printed)).append
      (lays_flat margin depth ['[', ']'])⟩

theorem OnePass.unionType (each : ∀ node ∈ nodes, OnePass margin depth node) :
    OnePass margin depth (.unionType nodes) := by
  obtain ⟨texts, printed, lays⟩ := onePass_all each
  exact ⟨_, bind_ok printed, lays_separated " | ".toList lays⟩

theorem OnePass.intersectionType (each : ∀ node ∈ nodes, OnePass margin depth node) :
    OnePass margin depth (.intersectionType nodes) := by
  obtain ⟨texts, printed, lays⟩ := onePass_all each
  exact ⟨_, bind_ok printed, lays_separated " & ".toList lays⟩

theorem OnePass.tupleType (each : ∀ node ∈ nodes, OnePass margin depth node) :
    OnePass margin depth (.tupleType nodes) := by
  obtain ⟨texts, printed, lays⟩ := onePass_all each
  exact ⟨_, bind_ok printed, ((lays_flat margin depth ['[']).append
    (lays_separated ", ".toList lays)).append (lays_flat margin depth [']'])⟩

theorem OnePass.typeOperator (operator : Text) (operand : OnePass margin depth node) :
    OnePass margin depth (.typeOperator operator node) := by
  obtain ⟨text, printed, lays⟩ := operand
  refine ⟨_, bind_ok printed, ?_⟩
  rw [List.append_cons]
  exact (lays_flat margin depth (operator ++ [' '])).append (lays_commented node lays)

theorem OnePass.typeQuery (expression : OnePass margin depth node) :
    OnePass margin depth (.typeQuery node) := by
  obtain ⟨text, printed, lays⟩ := expression
  exact ⟨_, bind_ok printed,
    (lays_flat margin depth "typeof ".toList).append (lays_commented node lays)⟩

/-! ### Declarations -/

theorem OnePass.typeParameter {constraint default : Option Node} (name : Text)
    (bound : ∀ node ∈ constraint.toList, OnePass margin depth node)
    (initial : ∀ node ∈ default.toList, OnePass margin depth node) :
    OnePass margin depth (.typeParameter name constraint default) := by
  obtain ⟨first, one, firstLays⟩ := onePass_option bound
  obtain ⟨second, other, secondLays⟩ := onePass_option initial
  exact ⟨_, (bind_ok one).trans (bind_ok other),
    ((lays_flat margin depth name).append (lays_optionalPart " extends " firstLays)).append
      (lays_optionalPart " = " secondLays)⟩

theorem OnePass.property (name : Text) (optional readonly : Bool) (comment : List Text)
    (type : OnePass margin depth node) :
    OnePass margin depth (.property name node optional readonly comment) := by
  obtain ⟨text, printed, lays⟩ := type
  exact ⟨_, bind_ok printed, ((lays_flat margin depth _).append (lays_commented node lays)).append
    (lays_flat margin depth [';'])⟩

theorem commentPart_append (comment : List Text) (text : Text) :
    Template.commentPart (Comment.doc comment) ++ text = Comment.above comment text := by
  unfold Comment.above Template.commentPart
  split
  · next none => rw [none]; rfl
  · next some =>
      cases same : Comment.doc comment with
      | nil => exact absurd same some
      | cons c rest => simp [Template.whenSet]

theorem interfaceLayout_eq (comment : List Text) (exported : Bool) (name : Text)
    (heritage members : List Text) :
    Template.interfaceLayout (Comment.doc comment) exported name heritage members =
      Comment.above comment (Template.exportPart exported ++ "interface ".toList ++ name ++
        Template.whenSet (!heritage.isEmpty) (" extends ".toList ++
          ", ".toList.intercalate heritage) ++ [' '] ++ Printer.braced members) := by
  rw [← commentPart_append, Template.interfaceLayout, Printer.braced]
  simp only [List.append_assoc, List.cons_append, List.nil_append]

theorem aliasLayout_eq (comment : List Text) (exported : Bool) (name : Text)
    (parameters : List Text) (type : Text) :
    Template.aliasLayout (Comment.doc comment) exported name parameters type =
      Comment.above comment (Template.exportPart exported ++ "type ".toList ++ name ++
        Printer.typeArguments parameters ++ " = ".toList ++ type ++ [';']) := by
  have arguments : Printer.typeArguments parameters =
      Template.whenSet (!parameters.isEmpty) ('<' :: ", ".toList.intercalate parameters ++ ['>']) := by
    cases parameters <;> rfl
  rw [← commentPart_append, Template.aliasLayout, arguments]
  simp only [List.append_assoc]

theorem enumLayout_eq (comment : List Text) (exported constant : Bool) (name : Text)
    (members : List Text) :
    Template.enumLayout (Comment.doc comment) exported constant name members =
      Comment.above comment (Template.exportPart exported ++
        Template.whenSet constant "const ".toList ++ "enum ".toList ++ name ++ [' '] ++
        Printer.braced (allButLast (fun text => text ++ [',']) members)) := by
  rw [← commentPart_append, Template.enumLayout, braced_allButLast]
  simp only [List.append_assoc, List.cons_append, List.nil_append]

theorem OnePass.interface {members heritage : List Node} (name : Text) (exported : Bool)
    (comment : List Text) (parents : ∀ node ∈ heritage, OnePass margin depth node)
    (each : ∀ node ∈ members, OnePass margin (depth + 1) node) :
    OnePass margin depth (.interface name members heritage exported comment) := by
  obtain ⟨bases, one, basesLay⟩ := onePass_all parents
  obtain ⟨lines, other, linesLay⟩ := onePass_all each
  have rendered := Template.render_interface comment exported name bases
    (lines.map (Text.indentBy margin))
  rw [interfaceLayout_eq] at rendered
  exact ⟨_, (bind_ok one).trans ((bind_ok other).trans rendered), lays_above comment
    ((((lays_flat margin depth _).append (lays_extended basesLay)).append
      (lays_flat margin depth [' '])).append (lays_braced (shows_deeper linesLay)))⟩

theorem OnePass.typeAlias {parameters : List Node} (name : Text) (exported : Bool)
    (comment : List Text) (type : OnePass margin depth node)
    (each : ∀ node ∈ parameters, OnePass margin depth node) :
    OnePass margin depth (.typeAlias name node parameters exported comment) := by
  obtain ⟨text, one, lays⟩ := type
  obtain ⟨texts, other, parametersLay⟩ := onePass_all each
  have rendered := Template.render_alias comment exported name texts (node.withComment text)
  rw [aliasLayout_eq] at rendered
  exact ⟨_, (bind_ok other).trans ((bind_ok one).trans rendered), lays_above comment
    (((((lays_flat margin depth _).append (lays_angled parametersLay)).append
      (lays_flat margin depth " = ".toList)).append (lays_commented node lays)).append
      (lays_flat margin depth [';']))⟩

theorem OnePass.enumMember (name : Text) (value : OnePass margin depth node) :
    OnePass margin depth (.enumMember name node) := by
  obtain ⟨text, printed, lays⟩ := value
  exact ⟨_, bind_ok printed, (lays_flat margin depth _).append (lays_commented node lays)⟩

theorem OnePass.enumeration {members : List Node} (name : Text) (exported constant : Bool)
    (comment : List Text) (each : ∀ node ∈ members, OnePass margin (depth + 1) node) :
    OnePass margin depth (.enumeration name members exported constant comment) := by
  obtain ⟨lines, printed, lays⟩ := onePass_all each
  have rendered := Template.render_enum comment exported constant name
    (lines.map (Text.indentBy margin))
  rw [enumLayout_eq] at rendered
  exact ⟨_, (bind_ok printed).trans rendered, lays_above comment
    ((lays_flat margin depth _).append (lays_braced (shows_commaEnded (shows_deeper lays))))⟩

/-! ### Statements -/

theorem OnePass.block (comment : List Text)
    (each : ∀ node ∈ statements, OnePass margin (depth + 1) node) :
    OnePass margin depth (.block statements comment) := by
  obtain ⟨lines, printed, lays⟩ := onePass_all each
  exact ⟨_, congrArg (Except.map (Printer.body ⟨.standard, margin⟩)) printed, lays_body lays⟩

theorem OnePass.expressionStatement (expression : OnePass margin depth node) :
    OnePass margin depth (.expressionStatement node) := by
  obtain ⟨text, printed, lays⟩ := expression
  exact ⟨_, bind_ok printed, lays_terminated (lays_commented node lays)⟩

theorem OnePass.returnStatement {expression : Option Node}
    (each : ∀ node ∈ expression.toList, OnePass margin depth node) :
    OnePass margin depth (.returnStatement expression) := by
  obtain ⟨text, printed, lays⟩ := onePass_option each
  exact ⟨_, bind_ok printed, ((lays_flat margin depth "return".toList).append
    (lays_optionalPart " " lays)).append (lays_flat margin depth [';'])⟩

theorem OnePass.conditional {alternative : Option Node} (comment : List Text)
    (test : OnePass margin depth condition) (isBody : IsBody body)
    (first : OnePass margin depth body)
    (kinds : ∀ node ∈ alternative.toList, node.isConditional = true ∨ IsBody node)
    (others : ∀ node ∈ alternative.toList, OnePass margin depth node) :
    OnePass margin depth (.conditional condition body alternative comment) := by
  obtain ⟨text, one, conditionLays⟩ := test
  obtain ⟨block, two, bodyLays⟩ := onePass_body isBody first
  obtain ⟨rest, three, restLays⟩ := onePass_alternative kinds others
  exact ⟨_, (bind_ok one).trans ((bind_ok two).trans (bind_ok three)),
    ((((lays_flat margin depth "if (".toList).append (lays_commented condition conditionLays)).append
      (lays_flat margin depth ") ".toList)).append bodyLays).append
      (lays_optionalPart " else " restLays)⟩

theorem OnePass.caseClause (value : OnePass margin depth node)
    (each : ∀ node ∈ statements, OnePass margin (depth + 1) node) :
    OnePass margin depth (.caseClause node statements) := by
  obtain ⟨text, one, lays⟩ := value
  obtain ⟨lines, two, linesLay⟩ := onePass_all each
  exact ⟨_, (bind_ok one).trans (bind_ok two),
    (((lays_flat margin depth "case ".toList).append (lays_commented node lays)).append
      (lays_flat margin depth [':'])).stacked (shows_deeper linesLay)⟩

theorem OnePass.defaultClause (each : ∀ node ∈ statements, OnePass margin (depth + 1) node) :
    OnePass margin depth (.defaultClause statements) := by
  obtain ⟨lines, printed, lays⟩ := onePass_all each
  exact ⟨_, bind_ok printed,
    (lays_flat margin depth "default:".toList).stacked (shows_deeper lays)⟩

theorem OnePass.switchStatement {clauses : List Node} (comment : List Text)
    (expression : OnePass margin depth node)
    (each : ∀ clause ∈ clauses, OnePass margin (depth + 1) clause) :
    OnePass margin depth (.switchStatement node clauses comment) := by
  obtain ⟨text, one, lays⟩ := expression
  obtain ⟨lines, two, linesLay⟩ := onePass_all each
  exact ⟨_, (bind_ok one).trans (bind_ok two),
    (((lays_flat margin depth "switch (".toList).append (lays_commented node lays)).append
      (lays_flat margin depth ") ".toList)).append (lays_body linesLay)⟩

theorem OnePass.forLoop {start condition step : Option Node} (comment : List Text)
    (isBody : IsBody body) (inner : OnePass margin depth body)
    (first : ∀ node ∈ start.toList, OnePass margin depth node)
    (second : ∀ node ∈ condition.toList, OnePass margin depth node)
    (third : ∀ node ∈ step.toList, OnePass margin depth node) :
    OnePass margin depth (.forLoop body start condition step comment) := by
  obtain ⟨initial, one, initialLays⟩ := onePass_option first
  obtain ⟨test, two, testLays⟩ := onePass_option second
  obtain ⟨next, three, nextLays⟩ := onePass_option third
  obtain ⟨text, four, lays⟩ := onePass_body isBody inner
  exact ⟨_, (bind_ok one).trans ((bind_ok two).trans ((bind_ok three).trans (bind_ok four))),
    (((((lays_flat margin depth "for (".toList).append (lays_given initialLays)).append
      (lays_headerPart (lays_given testLays))).append
      (lays_headerPart (lays_given nextLays))).append (lays_flat margin depth ") ".toList)).append
      lays⟩

theorem OnePass.whileLoop (comment : List Text) (test : OnePass margin depth condition)
    (isBody : IsBody body) (inner : OnePass margin depth body) :
    OnePass margin depth (.whileLoop condition body comment) := by
  obtain ⟨text, one, conditionLays⟩ := test
  obtain ⟨block, two, lays⟩ := onePass_body isBody inner
  exact ⟨_, (bind_ok one).trans (bind_ok two),
    (((lays_flat margin depth "while (".toList).append
      (lays_commented condition conditionLays)).append
      (lays_flat margin depth ") ".toList)).append lays⟩

theorem OnePass.doLoop (comment : List Text) (isBody : IsBody body)
    (inner : OnePass margin depth body) (test : OnePass margin depth condition) :
    OnePass margin depth (.doLoop body condition comment) := by
  obtain ⟨block, one, lays⟩ := onePass_body isBody inner
  obtain ⟨text, two, conditionLays⟩ := test
  exact ⟨_, (bind_ok one).trans (bind_ok two),
    ((((lays_flat margin depth "do ".toList).append lays).append
      (lays_flat margin depth " while (".toList)).append
      (lays_commented condition conditionLays)).append (lays_flat margin depth ");".toList)⟩

end Printing

/-! ## Trees that are printed -/

def isBlock : Node → Bool
  | .block _ _ => true
  | _ => false

/-- The bodies of a node are blocks, and behind `else` stands a block or a further conditional. -/
def hasBodies : Node → Bool
  | .conditional _ body alternative _ =>
      body.isBlock && alternative.toList.all fun other => other.isConditional || other.isBlock
  | .forLoop body _ _ _ _ => body.isBlock
  | .whileLoop _ body _ => body.isBlock
  | .doLoop body _ _ => body.isBlock
  | _ => true

/-- Everything within the tree is known and has its bodies. -/
structure Whole (root : Node) : Prop where
  complete : root.IsComplete
  bodies : ∀ node : Node, node.Within root → node.hasBodies = true

theorem whole_iff {root : Node} :
    Whole root ↔ Usage.hasPlaceholder root = false ∧ root.walk.all hasBodies = true := by
  rw [Usage.hasPlaceholder_eq_false_iff, List.all_eq_true]
  constructor
  · intro whole
    exact ⟨whole.complete, fun node among => whole.bodies node (mem_walk_iff.mp among)⟩
  · intro known
    exact ⟨known.1, fun node within => known.2 node (mem_walk_iff.mpr within)⟩

instance : DecidablePred Whole := fun _ => decidable_of_iff _ whole_iff.symm

theorem Whole.child {root child : Node} (whole : Whole root) (among : child ∈ root.children) :
    Whole child :=
  ⟨fun node within => whole.complete node (.deeper among within),
    fun node within => whole.bodies node (.deeper among within)⟩

theorem isBody_of_isBlock {node : Node} (block : node.isBlock = true) : IsBody node := by
  cases node with
  | block statements comment => exact ⟨statements, comment, rfl⟩
  | _ => cases block

theorem isBody_of_alternative {condition body : Node} {alternative : Option Node}
    {comment : List Text}
    (bodies : (Node.conditional condition body alternative comment).hasBodies = true) :
    IsBody body ∧ ∀ other ∈ alternative.toList, other.isConditional = true ∨ IsBody other := by
  rw [hasBodies, Bool.and_eq_true, List.all_eq_true] at bodies
  refine ⟨isBody_of_isBlock bodies.1, fun other among => ?_⟩
  exact (Bool.or_eq_true_iff.mp (bodies.2 other among)).imp_right isBody_of_isBlock

theorem Whole.onePass (margin : Nat) {node : Node} (whole : Whole node) :
    ∀ depth, OnePass margin depth node := by
  induction node using induction_on_children with
  | step node ih =>
      have part {child : Node} (among : child ∈ node.children) (depth : Nat) :
          OnePass margin depth child := ih child among (whole.child among) depth
      have bodies := whole.bodies node .here
      intro depth
      cases node with
      | named name => exact ⟨_, rfl, lays_flat margin depth _⟩
      | typeReference name arguments =>
          exact .typeReference name fun node among => part (.tail _ among) depth
      | propertyAccess target member => exact .propertyAccess member (part (.head _) depth)
      | call callee arguments =>
          exact .call (part (.head _) depth) fun node among => part (.tail _ among) depth
      | stringLiteral content => exact ⟨_, rfl, lays_flat margin depth _⟩
      | numericLiteral number => exact ⟨_, rfl, lays_flat margin depth _⟩
      | raw code references => exact ⟨_, rfl, lays_flat margin depth _⟩
      | literalType literal => exact .literalType (part (.head _) depth)
      | arrayType element => exact .arrayType (part (.head _) depth)
      | unionType members => exact .unionType fun node among => part among depth
      | intersectionType members => exact .intersectionType fun node among => part among depth
      | tupleType elements => exact .tupleType fun node among => part among depth
      | typeOperator operator operand => exact .typeOperator operator (part (.head _) depth)
      | typeQuery expression => exact .typeQuery (part (.head _) depth)
      | typeParameter name constraint default =>
          exact .typeParameter name
            (fun node among => part (List.mem_append_left _ (.tail _ among)) depth)
            fun node among => part (List.mem_append_right _ among) depth
      | property name type optional readonly comment =>
          exact .property name optional readonly comment (part (.head _) depth)
      | interface name members heritage exported comment =>
          exact .interface name exported comment
            (fun node among => part (List.mem_append_right _ among) depth)
            fun node among => part (List.mem_append_left _ (.tail _ among)) (depth + 1)
      | typeAlias name type parameters exported comment =>
          exact .typeAlias name exported comment (part (.tail _ (.head _)) depth)
            fun node among => part (.tail _ (.tail _ among)) depth
      | enumMember name value => exact .enumMember name (part (.head _) depth)
      | enumeration name members exported constant comment =>
          exact .enumeration name exported constant comment
            fun node among => part (.tail _ among) (depth + 1)
      | block statements comment =>
          exact .block comment fun node among => part among (depth + 1)
      | expressionStatement expression => exact .expressionStatement (part (.head _) depth)
      | returnStatement expression => exact .returnStatement fun node among => part among depth
      | conditional condition body alternative comment =>
          obtain ⟨isBody, kinds⟩ := isBody_of_alternative bodies
          exact .conditional comment (part (.head _) depth) isBody
            (part (.tail _ (.head _)) depth) kinds
            fun node among => part (.tail _ (.tail _ among)) depth
      | caseClause value statements =>
          exact .caseClause (part (.head _) depth)
            fun node among => part (.tail _ among) (depth + 1)
      | defaultClause statements =>
          exact .defaultClause fun node among => part among (depth + 1)
      | switchStatement expression clauses comment =>
          exact .switchStatement comment (part (.head _) depth)
            fun node among => part (.tail _ among) (depth + 1)
      | forLoop body start condition step comment =>
          exact .forLoop comment (isBody_of_isBlock bodies)
            (part (List.mem_append_left _ (List.mem_append_left _ (.head _))) depth)
            (fun node among => part (List.mem_append_left _
              (List.mem_append_left _ (.tail _ among))) depth)
            (fun node among => part (List.mem_append_left _
              (List.mem_append_right _ among)) depth)
            fun node among => part (List.mem_append_right _ among) depth
      | whileLoop condition body comment =>
          exact .whileLoop comment (part (.head _) depth) (isBody_of_isBlock bodies)
            (part (.tail _ (.head _)) depth)
      | doLoop body condition comment =>
          exact .doLoop comment (isBody_of_isBlock bodies) (part (.head _) depth)
            (part (.tail _ (.head _)) depth)
      | placeholder => cases whole.complete _ .here

/-- The lines of the printed node, each with the number of bodies, clauses and member lists around
it. -/
def layout (node : Node) : Outline := commented 0 node (outline 0 node)

/-- One list of lines is what the printer prints for every margin: each line that is not blank
with the margin once for every body, clause and member list around it. -/
theorem print_onePass {node : Node} (whole : Whole node) :
    (∀ line ∈ node.layout.lines, '\n' ∉ line.text) ∧
      ∀ margin, Printer.print ⟨.standard, margin⟩ node = .ok (node.layout.shown margin) := by
  have shows (margin : Nat) : ∃ text, Printer.print ⟨.standard, margin⟩ node = .ok text ∧
      Lays margin 0 node.layout text := by
    obtain ⟨text, printed, lays⟩ := whole.onePass margin 0
    exact ⟨node.withComment text, bind_ok printed, lays_commented node lays⟩
  constructor
  · obtain ⟨text, _, lays⟩ := shows 0
    exact lays.toShows.oneLine
  · intro margin
    obtain ⟨text, printed, lays⟩ := shows margin
    rw [printed, lays.toShows.shown_eq, Nat.mul_zero, Text.indentBy_zero]

/-- A switch inside a conditional, with a statement of three lines in a clause. -/
private def branching : Node :=
  .conditional (identifier "ready".toList)
    (.block [.switchStatement (identifier "mode".toList)
      [.caseClause (.numericLiteral "1".toList)
          [.expressionStatement (.raw "send(`a\n\nb`)".toList [])],
        .defaultClause [.returnStatement none]] ["How".toList]] [])
    (some (.conditional (identifier "late".toList) (.block [] []) none [])) []

theorem print_onePass_branching :
    ((∀ line ∈ branching.layout.lines, '\n' ∉ line.text) ∧
      ∀ margin, Printer.print ⟨.standard, margin⟩ branching =
        .ok (branching.layout.shown margin)) ∧
    branching.layout.lines.map (fun line => (line.depth, String.ofList line.text)) =
      [(0, "if (ready) \x7b"), (1, "/** How */"), (1, "switch (mode) \x7b"), (2, "case 1:"),
        (3, "send(`a"), (3, ""), (3, "b`);"), (2, "default:"), (3, "return;"), (1, "\x7d"),
        (0, "\x7d else if (late) \x7b"), (0, "\x7d")] :=
  ⟨print_onePass (by decide), by decide +kernel⟩

end Node

end TypeScriptGen
