import TypeScriptGen.Proofs.Outcome.Steps
import TypeScriptGen.Proofs.Syntax.Layouts
import TypeScriptGen.Proofs.Usage.CodeNames

/-!
# Nodes that show their names

A node shows its names when it is printed, and everything that a scan of the
node finds stands in the printed form. Types and declarations do so when their
parts do, as long as what is indented has its names in one line.
-/

namespace TypeScriptGen

open Usage (namesIn ownNames hasPlaceholder)

namespace Node

/-- The printed form of a node shows each of its names. -/
structure Shown (node : Node) : Prop where
  complete : hasPlaceholder node = false
  printed : ∃ text, Printer.standard.bare node = .ok text ∧ ∀ name ∈ namesIn node, name <:+: text

/-- A node that shows its names wherever its text is moved to. -/
structure Movable (node : Node) : Prop extends Shown node where
  oneLine : ∀ name ∈ namesIn node, '\n' ∉ name

/-- A node shows its names when its text shows its own names and those of its children. -/
theorem Shown.of_children {node : Node} (text : Text) (known : node.isPlaceholder = false)
    (complete : ∀ child ∈ node.children, hasPlaceholder child = false)
    (printed : Printer.standard.bare node = .ok text)
    (own : ∀ name ∈ ownNames node, name <:+: text)
    (below : ∀ child ∈ node.children, ∀ name ∈ namesIn child, name <:+: text) : Shown node := by
  refine ⟨Usage.hasPlaceholder_iff.mpr ⟨known, complete⟩, text, printed, fun name member => ?_⟩
  rcases Usage.mem_namesIn.mp member with here | ⟨child, among, found⟩
  · exact own name here
  · exact below child among name found

/-- The names of a node are in one line when its own names and those of its children are. -/
theorem oneLine_of_children {node : Node} (own : ∀ name ∈ ownNames node, '\n' ∉ name)
    (below : ∀ child ∈ node.children, ∀ name ∈ namesIn child, '\n' ∉ name) :
    ∀ name ∈ namesIn node, '\n' ∉ name := by
  intro name member
  rcases Usage.mem_namesIn.mp member with here | ⟨child, among, found⟩
  · exact own name here
  · exact below child among name found

/-! ## Several nodes -/

/-- Every name of the nodes stands in one of the texts. -/
def Covered (nodes : List Node) (texts : List Text) : Prop :=
  ∀ node ∈ nodes, ∀ name ∈ namesIn node, ∃ text ∈ texts, name <:+: text

theorem Covered.isInfix {nodes : List Node} {texts : List Text} {shown : Text}
    (covered : Covered nodes texts) (inside : ∀ text ∈ texts, text <:+: shown) :
    ∀ node ∈ nodes, ∀ name ∈ namesIn node, name <:+: shown := by
  intro node among name member
  obtain ⟨text, written, found⟩ := covered node among name member
  exact found.trans (inside text written)

/-- Indenting the texts hides no name that is in one line. -/
theorem Covered.indent {nodes : List Node} {texts : List Text} (covered : Covered nodes texts)
    (oneLine : ∀ node ∈ nodes, ∀ name ∈ namesIn node, '\n' ∉ name) (margin : Nat) :
    Covered nodes (texts.map (Text.indentBy margin)) := by
  intro node among name member
  obtain ⟨text, written, found⟩ := covered node among name member
  exact ⟨_, List.mem_map_of_mem written,
    Text.indentBy_isInfix margin found (oneLine node among name member)⟩

theorem infix_withComment {node : Node} {name text : Text} (inside : name <:+: text) :
    name <:+: node.withComment text :=
  inside.trans (Text.above_isInfix node.leadingComment text)

theorem printAll_ok {nodes : List Node} (shown : ∀ node ∈ nodes, Shown node) :
    ∃ texts, Printer.printAll .standard nodes = .ok texts ∧ Covered nodes texts := by
  induction nodes with
  | nil => exact ⟨[], rfl, nofun⟩
  | cons node nodes ih =>
      obtain ⟨text, printed, names⟩ := (shown node List.mem_cons_self).printed
      obtain ⟨texts, all, covered⟩ := ih fun other member =>
        shown other (List.mem_cons_of_mem node member)
      refine ⟨node.withComment text :: texts, ?_, fun other among name member => ?_⟩
      · exact (bind_ok printed).trans (bind_ok all)
      · rcases List.mem_cons.mp among with rfl | tail
        · exact ⟨_, List.mem_cons_self, infix_withComment (names name member)⟩
        · obtain ⟨found, written, inside⟩ := covered other tail name member
          exact ⟨found, List.mem_cons_of_mem _ written, inside⟩

theorem length_of_printAll {printer : Printer} {nodes : List Node} {texts : List Text}
    (printed : Printer.printAll printer nodes = .ok texts) : texts.length = nodes.length := by
  induction nodes generalizing texts with
  | nil =>
      cases printed
      rfl
  | cons node nodes ih =>
      obtain ⟨text, _, printed⟩ := exists_of_bind_ok printed
      obtain ⟨later, others, printed⟩ := exists_of_bind_ok printed
      cases printed
      exact congrArg (· + 1) (ih others)

theorem printAll_append {printer : Printer} {nodes others : List Node} {texts more : List Text}
    (printed : Printer.printAll printer nodes = .ok texts)
    (rest : Printer.printAll printer others = .ok more) :
    Printer.printAll printer (nodes ++ others) = .ok (texts ++ more) := by
  induction nodes generalizing texts with
  | nil =>
      cases printed
      exact rest
  | cons node nodes ih =>
      obtain ⟨text, first, printed⟩ := exists_of_bind_ok printed
      obtain ⟨later, others, printed⟩ := exists_of_bind_ok printed
      cases printed
      exact (bind_ok first).trans (bind_ok (ih others))

theorem printAll_cons {printer : Printer} {node : Node} {nodes : List Node} {text : Text}
    {texts : List Text} (printed : printer.print node = .ok text)
    (rest : Printer.printAll printer nodes = .ok texts) :
    Printer.printAll printer (node :: nodes) = .ok (text :: texts) := by
  obtain ⟨bare, own, same⟩ := exists_of_bind_ok printed
  cases same
  exact (bind_ok own).trans (bind_ok rest)

theorem printOption_ok {node : Option Node} (shown : ∀ found ∈ node.toList, Shown found) :
    ∃ text, Printer.printOption .standard node = .ok text ∧ Covered node.toList text.toList := by
  cases node with
  | none => exact ⟨none, rfl, nofun⟩
  | some node =>
      obtain ⟨text, printed, names⟩ := (shown node List.mem_cons_self).printed
      refine ⟨some (node.withComment text), bind_ok printed, fun other among name member => ?_⟩
      · rw [List.mem_singleton.mp among] at member
        exact ⟨_, List.mem_cons_self, infix_withComment (names name member)⟩

theorem infix_optionalPart {keyword : String} {text : Option Text} :
    ∀ part ∈ text.toList, part <:+: Printer.optionalPart keyword text := by
  intro part member
  cases text with
  | none => cases member
  | some text =>
      rw [List.mem_singleton.mp member]
      exact List.infix_append_right

theorem infix_braced {lines : List Text} : ∀ line ∈ lines, line <:+: Printer.braced lines := by
  intro line member
  exact List.infix_append_of_infix_left (List.infix_cons (List.infix_cons
    (List.infix_append_left.trans (Text.infix_flatMap (fun line => line ++ ['\n']) member))))

/-! ## Names, literals and types -/

theorem infix_nameText {name : Name} : ∀ part ∈ name.parts, part <:+: Printer.nameText name :=
  fun _ member => Text.infix_intercalate ['.'] member

theorem Shown.named (name : Name) : Shown (.named name) := by
  refine ⟨Usage.hasPlaceholder_named name, Printer.nameText name, rfl, ?_⟩
  intro part member
  exact infix_nameText part (Usage.mem_namesIn_named.mp member)

theorem Shown.typeReference (name : Name) : Shown (.typeReference name []) := by
  refine .of_children (Printer.nameText name) rfl ?_ ?_ infix_nameText ?_
  · intro child member
    rw [List.mem_singleton.mp member]
    exact Usage.hasPlaceholder_named name
  · exact congrArg Except.ok (List.append_nil _)
  · intro child among part member
    rw [List.mem_singleton.mp among] at member
    exact infix_nameText part (Usage.mem_namesIn_named.mp member)

theorem Movable.of_solid {node : Node} (shown : Shown node)
    (solid : ∀ name ∈ namesIn node, Text.Solid name) : Movable node :=
  ⟨shown, fun name member => (solid name member).oneLine⟩

theorem Movable.typeReference {name : Name} (solid : ∀ part ∈ name.parts, Text.Solid part) :
    Movable (.typeReference name []) :=
  .of_solid (.typeReference name) fun part member =>
    solid part (Usage.mem_namesIn_typeReference.mp member)

theorem Movable.identifier {text : Text} (solid : Text.Solid text) : Movable (identifier text) := by
  refine .of_solid (.named _) fun part member => ?_
  rw [List.mem_singleton.mp (Usage.mem_namesIn_named.mp member)]
  exact solid

theorem Movable.stringLiteral (content : Text) : Movable (.stringLiteral content) := by
  have known : ∀ name ∈ namesIn (.stringLiteral content), name <:+: content ∧ Text.Solid name := by
    intro name member
    rw [Usage.namesIn_stringLiteral] at member
    exact Usage.namesInLiteral_isInfix member
  refine .of_solid ⟨rfl, Text.guard content, rfl, fun name member => ?_⟩
    fun name member => (known name member).2
  exact Text.guard_isInfix (known name member).1 (known name member).2

theorem Movable.numericLiteral (number : Text) : Movable (.numericLiteral number) :=
  ⟨⟨rfl, number, rfl, nofun⟩, nofun⟩

theorem Movable.raw (asTypes : Bool) (text : Text) :
    Movable (.raw text (Syntax.referencesIn asTypes text)) :=
  .of_solid ⟨Usage.hasPlaceholder_raw asTypes text, text, rfl,
    fun _ member => (Usage.found_of_mem_namesIn_raw member).isInfix.1⟩
    fun _ member => (Usage.found_of_mem_namesIn_raw member).isInfix.2

/-- A node without names of its own shows the names of its children when they stand in its text. -/
theorem Movable.of_children {node : Node} (text : Text) (known : node.isPlaceholder = false)
    (nameless : ownNames node = []) (movable : ∀ child ∈ node.children, Movable child)
    (printed : Printer.standard.bare node = .ok text)
    (below : ∀ child ∈ node.children, ∀ name ∈ namesIn child, name <:+: text) : Movable node := by
  refine ⟨.of_children text known (fun child member => (movable child member).complete) printed
      ?_ below,
    oneLine_of_children ?_ fun child member => (movable child member).oneLine⟩
  · rw [nameless]
    exact nofun
  · rw [nameless]
    exact nofun

theorem forall_singleton {property : Node → Prop} {node : Node} (holds : property node) :
    ∀ child ∈ [node], property child := by
  intro child member
  rwa [List.mem_singleton.mp member]

theorem Movable.literalType {literal : Node} (movable : Movable literal) :
    Movable (.literalType literal) := by
  obtain ⟨text, printed, names⟩ := movable.printed
  refine .of_children (literal.withComment text) rfl rfl (forall_singleton movable) ?_
    (forall_singleton fun name member => infix_withComment (names name member))
  exact bind_ok printed

theorem infix_grouped (element : Node) (text : Text) : text <:+: Printer.grouped element text := by
  unfold Printer.grouped
  split
  · exact List.infix_append_of_infix_left (List.infix_cons List.infix_rfl)
  · exact List.infix_rfl

theorem Movable.arrayType {element : Node} (movable : Movable element) :
    Movable (.arrayType element) := by
  obtain ⟨text, printed, names⟩ := movable.printed
  refine .of_children
    (Printer.grouped element (element.withComment text) ++ ['[', ']']) rfl rfl
    (forall_singleton movable) ?_ (forall_singleton fun name member => ?_)
  · exact bind_ok printed
  · exact List.infix_append_of_infix_left
      ((infix_withComment (names name member)).trans (infix_grouped element _))

theorem Movable.unionType {members : List Node} (movable : ∀ member ∈ members, Movable member) :
    Movable (.unionType members) := by
  obtain ⟨texts, printed, covered⟩ := printAll_ok fun node member => (movable node member).toShown
  refine .of_children (" | ".toList.intercalate texts) rfl rfl movable ?_
    (covered.isInfix fun _ written => Text.infix_intercalate _ written)
  exact bind_ok printed

theorem Movable.intersectionType {members : List Node}
    (movable : ∀ member ∈ members, Movable member) : Movable (.intersectionType members) := by
  obtain ⟨texts, printed, covered⟩ := printAll_ok fun node member => (movable node member).toShown
  refine .of_children (" & ".toList.intercalate texts) rfl rfl movable ?_
    (covered.isInfix fun _ written => Text.infix_intercalate _ written)
  exact bind_ok printed

theorem Movable.tupleType {elements : List Node}
    (movable : ∀ element ∈ elements, Movable element) : Movable (.tupleType elements) := by
  obtain ⟨texts, printed, covered⟩ := printAll_ok fun node member => (movable node member).toShown
  refine .of_children ('[' :: Printer.commaList texts ++ [']']) rfl rfl movable ?_
    (covered.isInfix fun text written => ?_)
  · exact bind_ok printed
  · exact List.infix_append_of_infix_left (List.infix_cons (Text.infix_intercalate _ written))

theorem Movable.typeOperator {operand : Node} (operator : Text) (movable : Movable operand) :
    Movable (.typeOperator operator operand) := by
  obtain ⟨text, printed, names⟩ := movable.printed
  refine .of_children (operator ++ ' ' :: operand.withComment text) rfl rfl
    (forall_singleton movable) ?_ (forall_singleton fun name member => ?_)
  · exact bind_ok printed
  · exact List.infix_append_of_infix_right
      (List.infix_cons (infix_withComment (names name member)))

theorem Shown.typeQuery {expression : Node} (shown : Shown expression) :
    Shown (.typeQuery expression) := by
  obtain ⟨text, printed, names⟩ := shown.printed
  refine .of_children ("typeof ".toList ++ expression.withComment text) rfl
    (forall_singleton shown.complete) ?_ nofun (forall_singleton fun name member => ?_)
  · exact bind_ok printed
  · exact List.infix_append_of_infix_right (infix_withComment (names name member))

/-! ## Declarations -/

theorem forall_cons {property : Node → Prop} {first : Node} {rest : List Node}
    (head : property first) (tail : ∀ node ∈ rest, property node) :
    ∀ node ∈ first :: rest, property node := by
  intro node member
  rcases List.mem_cons.mp member with rfl | more
  · exact head
  · exact tail node more

theorem forall_append {property : Node → Prop} {first second : List Node}
    (left : ∀ node ∈ first, property node) (right : ∀ node ∈ second, property node) :
    ∀ node ∈ first ++ second, property node :=
  fun node member => (List.mem_append.mp member).elim (left node) (right node)

/-- The name of a declaration is a child of it. -/
theorem infix_of_identifier {declared text : Text} (inside : declared <:+: text) :
    ∀ name ∈ namesIn (identifier declared), name <:+: text := by
  intro name member
  rwa [List.mem_singleton.mp member]

theorem Shown.typeParameter {constraint default : Option Node} (name : Text)
    (bound : ∀ node ∈ constraint.toList, Shown node)
    (initial : ∀ node ∈ default.toList, Shown node) :
    Shown (.typeParameter name constraint default) := by
  obtain ⟨first, one, firstCovered⟩ := printOption_ok bound
  obtain ⟨second, other, secondCovered⟩ := printOption_ok initial
  refine .of_children
    (name ++ Printer.optionalPart " extends " first ++ Printer.optionalPart " = " second)
    rfl ?_ ?_ nofun ?_
  · exact forall_append (forall_cons rfl fun node member => (bound node member).complete)
      fun node member => (initial node member).complete
  · exact (bind_ok one).trans (bind_ok other)
  · refine forall_append (forall_cons ?_ ?_) ?_
    · exact infix_of_identifier
        (List.infix_append_of_infix_left List.infix_append_left)
    · exact firstCovered.isInfix fun part written => List.infix_append_of_infix_left
        (List.infix_append_of_infix_right (infix_optionalPart part written))
    · exact secondCovered.isInfix fun part written =>
        List.infix_append_of_infix_right (infix_optionalPart part written)

theorem Movable.property {type : Node} (name : Text) (optional readonly : Bool)
    (comment : List Text) (movable : Movable type) :
    Movable (.property name type optional readonly comment) := by
  obtain ⟨text, printed, names⟩ := movable.printed
  refine .of_children
    ((if readonly then "readonly ".toList else []) ++ name ++
      (if optional then ['?'] else []) ++ ": ".toList ++ type.withComment text ++ [';'])
    rfl rfl (forall_singleton movable) ?_ (forall_singleton fun part member => ?_)
  · exact bind_ok printed
  · exact List.infix_append_of_infix_left
      (List.infix_append_of_infix_right (infix_withComment (names part member)))

theorem Shown.interface {members heritage : List Node} (name : Text) (exported : Bool)
    (comment : List Text) (parents : ∀ node ∈ heritage, Shown node)
    (movable : ∀ node ∈ members, Movable node) :
    Shown (.interface name members heritage exported comment) := by
  obtain ⟨bases, one, basesCovered⟩ := printAll_ok parents
  obtain ⟨lines, other, linesCovered⟩ :=
    printAll_ok fun node member => (movable node member).toShown
  have indented := linesCovered.indent (fun node member => (movable node member).oneLine)
    Printer.standard.margin
  refine .of_children (Template.interfaceLayout (Comment.doc comment) exported name bases
    (lines.map (Text.indentBy Printer.standard.margin))) rfl ?_ ?_ nofun ?_
  · exact forall_append (forall_cons rfl fun node member => (movable node member).complete)
      fun node member => (parents node member).complete
  · refine (bind_ok one).trans ((bind_ok other).trans ?_)
    exact Template.render_interface comment exported name bases _
  · refine forall_append (forall_cons ?_ ?_) ?_
    · exact infix_of_identifier (Template.infix_interfaceLayout (.inl rfl))
    · exact indented.isInfix fun line written =>
        Template.infix_interfaceLayout (.inr (.inr written))
    · exact basesCovered.isInfix fun base written =>
        Template.infix_interfaceLayout (.inr (.inl written))

theorem Shown.typeAlias {type : Node} {parameters : List Node} (name : Text) (exported : Bool)
    (comment : List Text) (shown : Shown type) (all : ∀ node ∈ parameters, Shown node) :
    Shown (.typeAlias name type parameters exported comment) := by
  obtain ⟨text, one, names⟩ := shown.printed
  obtain ⟨texts, other, covered⟩ := printAll_ok all
  refine .of_children (Template.aliasLayout (Comment.doc comment) exported name texts
    (type.withComment text)) rfl ?_ ?_ nofun ?_
  · exact forall_cons rfl (forall_cons shown.complete fun node member => (all node member).complete)
  · refine (bind_ok other).trans ((bind_ok one).trans ?_)
    exact Template.render_alias comment exported name texts _
  · refine forall_cons ?_ (forall_cons (fun part member => ?_) ?_)
    · exact infix_of_identifier (Template.infix_aliasLayout (.inl rfl))
    · exact (infix_withComment (names part member)).trans
        (Template.infix_aliasLayout (.inr (.inr rfl)))
    · exact covered.isInfix fun part written =>
        Template.infix_aliasLayout (.inr (.inl written))

theorem Movable.enumMember {value : Node} (name : Text) (movable : Movable value) :
    Movable (.enumMember name value) := by
  obtain ⟨text, printed, names⟩ := movable.printed
  refine .of_children (name ++ " = ".toList ++ value.withComment text) rfl rfl
    (forall_singleton movable) ?_ (forall_singleton fun part member => ?_)
  · exact bind_ok printed
  · exact List.infix_append_of_infix_right (infix_withComment (names part member))

theorem Shown.enumeration {members : List Node} (name : Text) (exported constant : Bool)
    (comment : List Text) (movable : ∀ node ∈ members, Movable node) :
    Shown (.enumeration name members exported constant comment) := by
  obtain ⟨lines, printed, covered⟩ := printAll_ok fun node member => (movable node member).toShown
  have indented := covered.indent (fun node member => (movable node member).oneLine)
    Printer.standard.margin
  refine .of_children (Template.enumLayout (Comment.doc comment) exported constant name
    (lines.map (Text.indentBy Printer.standard.margin))) rfl ?_ ?_ nofun ?_
  · exact forall_cons rfl fun node member => (movable node member).complete
  · refine (bind_ok printed).trans ?_
    exact Template.render_enum comment exported constant name _
  · refine forall_cons ?_ ?_
    · exact infix_of_identifier (Template.infix_enumLayout (.inl rfl))
    · exact indented.isInfix fun line written => Template.infix_enumLayout (.inr written)

end Node

end TypeScriptGen
