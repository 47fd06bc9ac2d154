import TypeScriptGen.Syntax.Literal
import TypeScriptGen.Syntax.Node
import TypeScriptGen.Text.Blank
import TypeScriptGen.Text.Search
import TypeScriptGen.Text.Word

/-!
# Names that code uses

The scan errs on the side of finding too much: a name that looks used costs a
needless import, one that is missed breaks the generated code. Free text yields
its type names, the names behind colons and certain keywords, and the names in
its literals; a node yields its own identifiers.
-/

namespace TypeScriptGen.Usage

/-- Words inside a literal that are taken for plain language. -/
def stopWords : List Text :=
  ["const", "let", "var", "function", "return", "if", "else", "for", "while", "do", "switch",
    "case", "break", "continue", "true", "false", "null", "undefined"].map String.toList

/-- The plain names among the words of a literal. -/
def namesInLiteral (content : Text) : List Text :=
  (Text.words content).filter fun word => Text.isPlainName word && !stopWords.contains word

def typeNames (code : Text) : List Text := (Text.words code).filter Text.isTypeName

/-- The names that stand behind a colon, as a type annotation does. -/
def annotatedNames : Text → List Text
  | [] => []
  | c :: rest =>
      if c = ':' then
        (Text.leadingName (Text.trimStart rest)).toList ++ annotatedNames rest
      else annotatedNames rest

/-- A keyword that starts a word, blanks, and the name behind them. -/
def matchOperand (keyword : Text) : Text.Matcher Text := fun before text =>
  let opens := match before with
    | none => true
    | some c => !Text.isWord c
  if opens && keyword.isPrefixOf text then
    let rest := text.drop keyword.length
    let operand := Text.trimStart rest
    if operand.length < rest.length then
      (Text.leadingName operand).map fun name => (name, operand.drop name.length)
    else none
  else none

def keywords : List Text := ["extends", "implements", "typeof", "keyof"].map String.toList

def operandNames (code : Text) : List Text :=
  keywords.flatMap fun keyword => Text.collect (matchOperand keyword) code

def namesInLiterals (code : Text) : List Text :=
  (Syntax.literals code).flatMap fun literal => namesInLiteral literal.content

/-- Every name that free text seems to use. -/
def namesInCode (code : Text) : List Text :=
  namesInLiterals code ++ typeNames code ++ annotatedNames code ++ operandNames code

/-- The components of a node that is a name. -/
def nameParts : Node → List Text
  | .named name => name.parts
  | _ => []

/-- The names of a node itself, without its children. -/
def ownNames : Node → List Text
  | .named name => name.parts
  | .typeReference name _ => name.parts
  | .propertyAccess target _ => nameParts target
  | .call callee _ => nameParts callee
  | .raw code _ => namesInCode code
  | .stringLiteral content => namesInLiteral content
  | _ => []

/-- The names of a node and its descendants, as far as a walk comes; a placeholder ends it. -/
def namesUntilPlaceholder (node : Node) : List Text :=
  (node.walk.takeWhile fun visited => !visited.isPlaceholder).flatMap ownNames

def hasPlaceholder (node : Node) : Bool := node.walk.any Node.isPlaceholder

end TypeScriptGen.Usage
