import TypeScriptGen.Text.Basic

/-!
# Syntax nodes

The tree of declarations, types, expressions and statements. Text given by
callers is kept verbatim in `raw` nodes, with the references found in it. A
placeholder stands for a node of which nothing is known.

The body of a conditional or loop is a block, and the alternative of a
conditional is a block or another conditional; of both only the statements are
printed, not the comment. `children` lists the direct children of a node in the
order of its fields.
-/

namespace TypeScriptGen

/-- An identifier or a dotted name. -/
inductive Name
  | identifier (text : Text)
  | qualified (left : Name) (right : Text)
deriving DecidableEq

namespace Name

/-- The components from left to right. -/
def parts : Name → List Text
  | .identifier text => [text]
  | .qualified left right => left.parts ++ [right]

def extend (name : Name) (parts : List Text) : Name := parts.foldl .qualified name

/-- The name with the given components; without components there is none. -/
def ofParts? : List Text → Option Name
  | [] => none
  | first :: rest => some (extend (.identifier first) rest)

theorem parts_extend (name : Name) (parts : List Text) :
    (name.extend parts).parts = name.parts ++ parts := by
  induction parts generalizing name with
  | nil => simp [extend]
  | cons part rest ih =>
      have step := ih (.qualified name part)
      simpa [extend, Name.parts] using step

end Name

inductive Node
  | named (name : Name)
  | typeReference (name : Name) (arguments : List Node)
  | propertyAccess (target : Node) (member : Text)
  | call (callee : Node) (arguments : List Node)
  | stringLiteral (content : Text)
  | numericLiteral (number : Text)
  | raw (code : Text) (references : List Node)
  | literalType (literal : Node)
  | arrayType (element : Node)
  | unionType (members : List Node)
  | intersectionType (members : List Node)
  | tupleType (elements : List Node)
  | typeOperator (operator : Text) (operand : Node)
  | typeQuery (expression : Node)
  | typeParameter (name : Text) (constraint default : Option Node)
  | property (name : Text) (type : Node) (optional readonly : Bool) (comment : List Text)
  | interface (name : Text) (members heritage : List Node) (exported : Bool) (comment : List Text)
  | typeAlias (name : Text) (type : Node) (parameters : List Node) (exported : Bool)
      (comment : List Text)
  | enumMember (name : Text) (value : Node)
  | enumeration (name : Text) (members : List Node) (exported constant : Bool)
      (comment : List Text)
  | block (statements : List Node) (comment : List Text)
  | expressionStatement (expression : Node)
  | returnStatement (expression : Option Node)
  | conditional (condition body : Node) (alternative : Option Node) (comment : List Text)
  | caseClause (value : Node) (statements : List Node)
  | defaultClause (statements : List Node)
  | switchStatement (expression : Node) (clauses : List Node) (comment : List Text)
  | forLoop (body : Node) (start condition step : Option Node) (comment : List Text)
  | whileLoop (condition body : Node) (comment : List Text)
  | doLoop (body condition : Node) (comment : List Text)
  | placeholder

namespace Node

instance : Inhabited Node := ⟨.placeholder⟩

def identifier (text : Text) : Node := .named (.identifier text)

def nameChildren : Name → List Node
  | .identifier _ => []
  | .qualified left right => [.named left, identifier right]

def children : Node → List Node
  | .named name => nameChildren name
  | .typeReference name arguments => .named name :: arguments
  | .propertyAccess target member => [target, identifier member]
  | .call callee arguments => callee :: arguments
  | .stringLiteral _ => []
  | .numericLiteral _ => []
  | .raw _ references => references
  | .literalType literal => [literal]
  | .arrayType element => [element]
  | .unionType members => members
  | .intersectionType members => members
  | .tupleType elements => elements
  | .typeOperator _ operand => [operand]
  | .typeQuery expression => [expression]
  | .typeParameter name constraint default =>
      identifier name :: constraint.toList ++ default.toList
  | .property _ type _ _ _ => [type]
  | .interface name members heritage _ _ => identifier name :: members ++ heritage
  | .typeAlias name type parameters _ _ => identifier name :: type :: parameters
  | .enumMember _ value => [value]
  | .enumeration name members _ _ _ => identifier name :: members
  | .block statements _ => statements
  | .expressionStatement expression => [expression]
  | .returnStatement expression => expression.toList
  | .conditional condition body alternative _ => condition :: body :: alternative.toList
  | .caseClause value statements => value :: statements
  | .defaultClause statements => statements
  | .switchStatement expression clauses _ => expression :: clauses
  | .forLoop body start condition step _ =>
      body :: start.toList ++ condition.toList ++ step.toList
  | .whileLoop condition body _ => [condition, body]
  | .doLoop body condition _ => [body, condition]
  | .placeholder => []

def isPlaceholder : Node → Bool
  | .placeholder => true
  | _ => false

def isConditional : Node → Bool
  | .conditional _ _ _ _ => true
  | _ => false

/-- The children, unless nothing is known of them. -/
def children? (node : Node) : Option (List Node) :=
  if node.isPlaceholder then none else some node.children

/-- The nodes below a name, the last component first. -/
def walkName : Name → List Node
  | .identifier text => [identifier text]
  | .qualified left right => .named (.qualified left right) :: identifier right :: walkName left

mutual

/-- A node and all its descendants: the node first, then its children from the last to the
first, each with its descendants. -/
def walk : Node → List Node
  | .named name => walkName name
  | .typeReference name arguments =>
      .typeReference name arguments :: walkAll arguments ++ walkName name
  | .propertyAccess target member =>
      .propertyAccess target member :: identifier member :: walk target
  | .call callee arguments => .call callee arguments :: walkAll arguments ++ walk callee
  | .stringLiteral content => [.stringLiteral content]
  | .numericLiteral number => [.numericLiteral number]
  | .raw code references => .raw code references :: walkAll references
  | .literalType literal => .literalType literal :: walk literal
  | .arrayType element => .arrayType element :: walk element
  | .unionType members => .unionType members :: walkAll members
  | .intersectionType members => .intersectionType members :: walkAll members
  | .tupleType elements => .tupleType elements :: walkAll elements
  | .typeOperator operator operand => .typeOperator operator operand :: walk operand
  | .typeQuery expression => .typeQuery expression :: walk expression
  | .typeParameter name constraint default =>
      .typeParameter name constraint default ::
        walkOption default ++ walkOption constraint ++ [identifier name]
  | .property name type optional readonly comment =>
      .property name type optional readonly comment :: walk type
  | .interface name members heritage exported comment =>
      .interface name members heritage exported comment ::
        walkAll heritage ++ walkAll members ++ [identifier name]
  | .typeAlias name type parameters exported comment =>
      .typeAlias name type parameters exported comment ::
        walkAll parameters ++ walk type ++ [identifier name]
  | .enumMember name value => .enumMember name value :: walk value
  | .enumeration name members exported constant comment =>
      .enumeration name members exported constant comment ::
        walkAll members ++ [identifier name]
  | .block statements comment => .block statements comment :: walkAll statements
  | .expressionStatement expression => .expressionStatement expression :: walk expression
  | .returnStatement expression => .returnStatement expression :: walkOption expression
  | .conditional condition body alternative comment =>
      .conditional condition body alternative comment ::
        walkOption alternative ++ walk body ++ walk condition
  | .caseClause value statements =>
      .caseClause value statements :: walkAll statements ++ walk value
  | .defaultClause statements => .defaultClause statements :: walkAll statements
  | .switchStatement expression clauses comment =>
      .switchStatement expression clauses comment :: walkAll clauses ++ walk expression
  | .forLoop body start condition step comment =>
      .forLoop body start condition step comment ::
        walkOption step ++ walkOption condition ++ walkOption start ++ walk body
  | .whileLoop condition body comment =>
      .whileLoop condition body comment :: walk body ++ walk condition
  | .doLoop body condition comment =>
      .doLoop body condition comment :: walk condition ++ walk body
  | .placeholder => [.placeholder]

def walkAll : List Node → List Node
  | [] => []
  | node :: nodes => walkAll nodes ++ walk node

def walkOption : Option Node → List Node
  | none => []
  | some node => walk node

end

theorem walkAll_eq (nodes : List Node) : walkAll nodes = nodes.reverse.flatMap walk := by
  induction nodes with
  | nil => simp [walkAll]
  | cons node nodes ih => simp [walkAll, ih]

theorem walkOption_eq (node : Option Node) :
    walkOption node = node.toList.reverse.flatMap walk := by
  cases node <;> simp [walkOption]

/-- The walk goes through the children as `children` lists them. -/
theorem walk_eq (node : Node) : walk node = node :: node.children.reverse.flatMap walk := by
  cases node with
  | named name => cases name <;> simp [walk, walkName, children, nameChildren, identifier]
  | _ => simp [walk, children, walkAll_eq, walkOption_eq, walkName, identifier]

end Node

end TypeScriptGen
