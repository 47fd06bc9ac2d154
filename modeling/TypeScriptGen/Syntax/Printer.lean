import TypeScriptGen.Comment
import TypeScriptGen.Syntax.Node
import TypeScriptGen.Template

/-!
# Printing nodes

A printer lays declarations out with the templates of an engine and indents
bodies by a number of places. `Printer.bare` prints a node without the doc
comment in front of it: bodies and alternatives are printed so, everything else
with its comment. A placeholder has no printed form, and neither has a
conditional or loop whose body holds no statements.
-/

namespace TypeScriptGen

/-- The doc comment that stands in front of the printed form. -/
def Node.leadingComment : Node → List Text
  | .property _ _ _ _ comment => comment
  | .block _ comment => comment
  | .conditional _ _ _ comment => comment
  | .switchStatement _ _ comment => comment
  | .forLoop _ _ _ _ comment => comment
  | .whileLoop _ _ comment => comment
  | .doLoop _ _ comment => comment
  | _ => []

def Node.withComment (node : Node) (text : Text) : Text := Comment.above node.leadingComment text

structure Printer where
  engine : Engine
  margin : Nat

namespace Printer

def defaultMargin : Nat := 4

def standard : Printer := ⟨Engine.standard, defaultMargin⟩

/-- Lines between braces. -/
def braced (lines : List Text) : Text :=
  '\x7b' :: '\n' :: lines.flatMap (fun line => line ++ ['\n']) ++ ['\x7d']

/-- Statements or clauses between braces, each indented. -/
def body (printer : Printer) (texts : List Text) : Text :=
  braced (texts.map (Text.indentBy printer.margin))

/-- An array of a compound type needs parentheses around its element; verbatim text counts as
compound when it holds a type operator and does not start with a parenthesis. -/
def needsGroup (element : Node) (text : Text) : Bool :=
  match element with
  | .unionType _ => true
  | .intersectionType _ => true
  | .typeOperator _ _ => true
  | .raw _ _ => text.any (fun c => c == '|' || c == '&') && text.head? != some '('
  | _ => false

def grouped (element : Node) (text : Text) : Text :=
  if needsGroup element text then '(' :: text ++ [')'] else text

/-- A statement that does not end in a brace or semicolon gets a semicolon. -/
def terminated (text : Text) : Text :=
  if Text.endsWithAny ['\x7d', ';'] text then text else text ++ [';']

/-- A part of a loop header behind its semicolon. -/
def headerPart (text : Text) : Text := if text.isEmpty then [';'] else "; ".toList ++ text

def textValue (text : Text) : Value := .text text

def textValues (texts : List Text) : Value := .list (texts.map textValue)

def commaList (texts : List Text) : Text := ", ".toList.intercalate texts

def typeArguments (arguments : List Text) : Text :=
  if arguments.isEmpty then [] else '<' :: commaList arguments ++ ['>']

/-- A keyword and a text, if there is a text. -/
def optionalPart (keyword : String) : Option Text → Text
  | none => []
  | some text => keyword.toList ++ text

def nameText (name : Name) : Text := ['.'].intercalate name.parts

mutual

/-- Prints a node without the comment in front of it. -/
def bare (printer : Printer) : Node → Except Failure Text
  | .named name => .ok (nameText name)
  | .typeReference name arguments => do
      let texts ← printAll printer arguments
      pure (nameText name ++ typeArguments texts)
  | .propertyAccess target member => do
      let text ← bare printer target
      pure (target.withComment text ++ '.' :: member)
  | .call callee arguments => do
      let texts ← printAll printer arguments
      let text ← bare printer callee
      pure (callee.withComment text ++ '(' :: commaList texts ++ [')'])
  | .stringLiteral content => .ok (Text.guard content)
  | .numericLiteral number => .ok number
  | .raw code _ => .ok code
  | .literalType literal => do
      let text ← bare printer literal
      pure (literal.withComment text)
  | .arrayType element => do
      let text ← bare printer element
      pure (grouped element (element.withComment text) ++ ['[', ']'])
  | .unionType members => do
      let texts ← printAll printer members
      pure (" | ".toList.intercalate texts)
  | .intersectionType members => do
      let texts ← printAll printer members
      pure (" & ".toList.intercalate texts)
  | .tupleType elements => do
      let texts ← printAll printer elements
      pure ('[' :: commaList texts ++ [']'])
  | .typeOperator operator operand => do
      let text ← bare printer operand
      pure (operator ++ ' ' :: operand.withComment text)
  | .typeQuery expression => do
      let text ← bare printer expression
      pure ("typeof ".toList ++ expression.withComment text)
  | .typeParameter name constraint default => do
      let bound ← printOption printer constraint
      let initial ← printOption printer default
      pure (name ++ optionalPart " extends " bound ++ optionalPart " = " initial)
  | .property name type optional readonly _ => do
      let text ← bare printer type
      pure ((if readonly then "readonly ".toList else []) ++ name ++
        (if optional then ['?'] else []) ++ ": ".toList ++ type.withComment text ++ [';'])
  | .interface name members heritage exported comment => do
      let parents ← printAll printer heritage
      let lines ← printAll printer members
      printer.engine.render Template.interfaceName
        [("jsdoc".toList, .text (Comment.doc comment)), ("exported".toList, .bool exported),
          ("name".toList, .text name), ("heritage".toList, textValues parents),
          ("members".toList, textValues (lines.map (Text.indentBy printer.margin)))]
  | .typeAlias name type parameters exported comment => do
      let texts ← printAll printer parameters
      let text ← bare printer type
      printer.engine.render Template.aliasName
        [("jsdoc".toList, .text (Comment.doc comment)), ("exported".toList, .bool exported),
          ("name".toList, .text name), ("type_parameters".toList, textValues texts),
          ("type".toList, .text (type.withComment text))]
  | .enumMember name value => do
      let text ← bare printer value
      pure (name ++ " = ".toList ++ value.withComment text)
  | .enumeration name members exported constant comment => do
      let lines ← printAll printer members
      printer.engine.render Template.enumName
        [("jsdoc".toList, .text (Comment.doc comment)), ("exported".toList, .bool exported),
          ("const".toList, .bool constant), ("name".toList, .text name),
          ("members".toList, textValues (lines.map (Text.indentBy printer.margin)))]
  | .block statements _ => (printAll printer statements).map printer.body
  | .expressionStatement expression => do
      let text ← bare printer expression
      pure (terminated (expression.withComment text))
  | .returnStatement expression => do
      let text ← printOption printer expression
      pure ("return".toList ++ optionalPart " " text ++ [';'])
  | .conditional condition body alternative _ => do
      let test ← bare printer condition
      let text ← printBody printer body
      let rest ← printAlternative printer alternative
      pure ("if (".toList ++ condition.withComment test ++ ") ".toList ++ text ++
        optionalPart " else " rest)
  | .caseClause value statements => do
      let text ← bare printer value
      let lines ← printAll printer statements
      pure (['\n'].intercalate (("case ".toList ++ value.withComment text ++ [':']) ::
        lines.map (Text.indentBy printer.margin)))
  | .defaultClause statements => do
      let lines ← printAll printer statements
      pure (['\n'].intercalate ("default:".toList :: lines.map (Text.indentBy printer.margin)))
  | .switchStatement expression clauses _ => do
      let text ← bare printer expression
      let lines ← printAll printer clauses
      pure ("switch (".toList ++ expression.withComment text ++ ") ".toList ++ printer.body lines)
  | .forLoop body start condition step _ => do
      let first ← printOption printer start
      let second ← printOption printer condition
      let third ← printOption printer step
      let text ← printBody printer body
      pure ("for (".toList ++ first.getD [] ++ headerPart (second.getD []) ++
        headerPart (third.getD []) ++ ") ".toList ++ text)
  | .whileLoop condition body _ => do
      let test ← bare printer condition
      let text ← printBody printer body
      pure ("while (".toList ++ condition.withComment test ++ ") ".toList ++ text)
  | .doLoop body condition _ => do
      let text ← printBody printer body
      let test ← bare printer condition
      pure ("do ".toList ++ text ++ " while (".toList ++ condition.withComment test ++
        ");".toList)
  | .placeholder => .error (.unprintable Node.placeholder.kindName)

/-- Prints every node of a list with its comment. -/
def printAll (printer : Printer) : List Node → Except Failure (List Text)
  | [] => .ok []
  | node :: nodes => do
      let text ← bare printer node
      let texts ← printAll printer nodes
      pure (node.withComment text :: texts)

def printOption (printer : Printer) : Option Node → Except Failure (Option Text)
  | none => .ok none
  | some node => do
      let text ← bare printer node
      pure (some (node.withComment text))

/-- Prints the statements of a body, whose comment is left out. A node that holds no statements is
no body. -/
def printBody (printer : Printer) : Node → Except Failure Text
  | .block statements _ => (printAll printer statements).map printer.body
  | .caseClause _ statements => (printAll printer statements).map printer.body
  | .defaultClause statements => (printAll printer statements).map printer.body
  | _ => .error .unsupported

/-- Prints what stands behind `else`: a further conditional or a body. -/
def printAlternative (printer : Printer) : Option Node → Except Failure (Option Text)
  | none => .ok none
  | some node => do
      let text ← if node.isConditional then bare printer node else printBody printer node
      pure (some text)

end

def print (printer : Printer) (node : Node) : Except Failure Text := do
  let text ← bare printer node
  pure (node.withComment text)

/-- Prints the node that a value is. -/
def printValue (printer : Printer) : Value → Except Failure Text
  | .node node => printer.print node
  | other => .error (.unprintable other.plainKindName)

/-- Prints values one after the other, with a separator between them. -/
def printJoined (printer : Printer) (separator : Text) (values : List Value) :
    Except Failure Text := do
  let texts ← values.mapM printer.printValue
  pure (separator.intercalate texts)

end Printer

def Node.print (node : Node) : Except Failure Text := Printer.standard.print node

end TypeScriptGen
