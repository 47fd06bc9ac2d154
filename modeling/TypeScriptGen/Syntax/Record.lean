import TypeScriptGen.Syntax.Node
import TypeScriptGen.Text.Quoted

/-!
# Nodes as records

A record is the name of a kind with named fields, or plain data inside such a
field. `Node.record` lists the fields of a node in a fixed order, and
`Record.inspect` writes them behind the kind, each with its name.
-/

namespace TypeScriptGen

inductive Record
  | nothing
  | text (content : Text)
  | flag (flag : Bool)
  | list (items : List Record)
  | made (kind : Text) (fields : List (Text × Record))

namespace Record

def make (kind : String) (fields : List (String × Record)) : Record :=
  .made kind.toList (fields.map fun field => (field.1.toList, field.2))

def identifier (text : Text) : Record := make "Identifier" [("text", .text text)]

def lines (texts : List Text) : Record := .list (texts.map .text)

def kindName : Record → Text
  | .made kind _ => kind
  | _ => []

mutual

def inspect : Record → Text
  | .nothing => "None".toList
  | .text content => Text.display content
  | .flag true => "True".toList
  | .flag false => "False".toList
  | .list items => '[' :: ", ".toList.intercalate (inspectAll items) ++ [']']
  | .made kind fields => kind ++ '(' :: ", ".toList.intercalate (inspectFields fields) ++ [')']

def inspectAll : List Record → List Text
  | [] => []
  | item :: items => inspect item :: inspectAll items

def inspectFields : List (Text × Record) → List Text
  | [] => []
  | (name, field) :: fields => (name ++ '=' :: inspect field) :: inspectFields fields

end

mutual

/-- Two records are the same if their kinds and all their fields are. One without fields has
nothing to be known by, and is the same as no other. -/
def same : Record → Record → Bool
  | .nothing, .nothing => true
  | .text first, .text second => first == second
  | .flag first, .flag second => first == second
  | .list firsts, .list seconds => sameAll firsts seconds
  | .made kind fields, .made other others =>
      kind == other && !fields.isEmpty && sameFields fields others
  | _, _ => false

def sameAll : List Record → List Record → Bool
  | [], [] => true
  | first :: firsts, second :: seconds => same first second && sameAll firsts seconds
  | _, _ => false

def sameFields : List (Text × Record) → List (Text × Record) → Bool
  | [], [] => true
  | (name, field) :: fields, (other, found) :: others =>
      name == other && same field found && sameFields fields others
  | _, _ => false

end

end Record

def Name.record : Name → Record
  | .identifier text => .identifier text
  | .qualified left right =>
      .make "QualifiedName" [("left", left.record), ("right", .identifier right)]

namespace Node

mutual

def record : Node → Record
  | .named name => name.record
  | .typeReference name arguments =>
      .make "TypeReference"
        [("type_name", name.record), ("type_arguments", .list (recordAll arguments))]
  | .propertyAccess target member =>
      .make "PropertyAccess" [("expression", record target), ("name", .identifier member)]
  | .call callee arguments =>
      .make "CallExpression"
        [("callee", record callee), ("arguments", .list (recordAll arguments))]
  | .stringLiteral content => .make "StringLiteral" [("value", .text content)]
  | .numericLiteral number => .make "NumericLiteral" [("text", .text number)]
  | .raw code references =>
      .make "Raw" [("text", .text code), ("references", .list (recordAll references))]
  | .literalType literal => .make "LiteralType" [("literal", record literal)]
  | .arrayType element => .make "ArrayType" [("element_type", record element)]
  | .unionType members => .make "UnionType" [("types", .list (recordAll members))]
  | .intersectionType members =>
      .make "IntersectionType" [("types", .list (recordAll members))]
  | .tupleType elements => .make "TupleType" [("element_types", .list (recordAll elements))]
  | .typeOperator operator operand =>
      .make "TypeOperator" [("operator", .text operator), ("type", record operand)]
  | .typeQuery expression => .make "TypeQuery" [("expression", record expression)]
  | .typeParameter name constraint default =>
      .make "TypeParameter"
        [("name", .identifier name), ("constraint", recordOption constraint),
          ("default", recordOption default)]
  | .property name type optional readonly comment =>
      .make "PropertySignature"
        [("name", .text name), ("type", record type), ("optional", .flag optional),
          ("readonly", .flag readonly), ("jsdoc", .lines comment)]
  | .interface name members heritage exported comment =>
      .make "InterfaceDeclaration"
        [("name", .identifier name), ("members", .list (recordAll members)),
          ("heritage", .list (recordAll heritage)), ("exported", .flag exported),
          ("jsdoc", .lines comment)]
  | .typeAlias name type parameters exported comment =>
      .make "TypeAliasDeclaration"
        [("name", .identifier name), ("type", record type),
          ("type_parameters", .list (recordAll parameters)), ("exported", .flag exported),
          ("jsdoc", .lines comment)]
  | .enumMember name value =>
      .make "EnumMember" [("name", .text name), ("initializer", record value)]
  | .enumeration name members exported constant comment =>
      .make "EnumDeclaration"
        [("name", .identifier name), ("members", .list (recordAll members)),
          ("exported", .flag exported), ("const", .flag constant), ("jsdoc", .lines comment)]
  | .block statements comment =>
      .make "Block" [("statements", .list (recordAll statements)), ("jsdoc", .lines comment)]
  | .expressionStatement expression =>
      .make "ExpressionStatement" [("expression", record expression)]
  | .returnStatement expression =>
      .make "ReturnStatement" [("expression", recordOption expression)]
  | .conditional condition body alternative comment =>
      .make "IfStatement"
        [("condition", record condition), ("then_statement", record body),
          ("else_statement", recordOption alternative), ("jsdoc", .lines comment)]
  | .caseClause value statements =>
      .make "CaseClause" [("value", record value), ("statements", .list (recordAll statements))]
  | .defaultClause statements =>
      .make "DefaultClause" [("statements", .list (recordAll statements))]
  | .switchStatement expression clauses comment =>
      .make "SwitchStatement"
        [("expression", record expression), ("clauses", .list (recordAll clauses)),
          ("jsdoc", .lines comment)]
  | .forLoop body start condition step comment =>
      .make "ForStatement"
        [("body", record body), ("initializer", recordOption start),
          ("condition", recordOption condition), ("incrementor", recordOption step),
          ("jsdoc", .lines comment)]
  | .whileLoop condition body comment =>
      .make "WhileStatement"
        [("condition", record condition), ("body", record body), ("jsdoc", .lines comment)]
  | .doLoop body condition comment =>
      .make "DoStatement"
        [("body", record body), ("condition", record condition), ("jsdoc", .lines comment)]
  | .placeholder => .make "Node" []

def recordAll : List Node → List Record
  | [] => []
  | node :: nodes => record node :: recordAll nodes

def recordOption : Option Node → Record
  | none => .nothing
  | some node => record node

end

def kindName (node : Node) : Text := node.record.kindName

end Node

end TypeScriptGen
