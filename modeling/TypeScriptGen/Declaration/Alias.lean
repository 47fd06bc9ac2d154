import TypeScriptGen.Outcome
import TypeScriptGen.Syntax.Parse
import TypeScriptGen.Syntax.Printer

/-!
# Type aliases

The last type that was set is the one that counts; without one the alias stands
for `any`. Type parameters are added in order. Several parameters given at once
are added one by one, so those before a faulty one stay.
-/

namespace TypeScriptGen

structure AliasDraft where
  name : Text
  exported : Bool
  type : Option Node
  parameters : List Node
  comment : List Text

namespace AliasDraft

def start (name : Text) (exported : Bool) : AliasDraft := ⟨name, exported, none, [], []⟩

inductive Command
  | comment (comment : Value)
  | print
  | reference (type : Text)
  | union (types : List Text)
  | intersection (types : List Text)
  | array (element : Text)
  | tuple (elements : List Text)
  | keyOf (type : Text)
  | typeOf (value : Text)
  | parameter (name constraint default : Text)
  | parameters (entries : List Value)

def anyType : Node := .typeReference (.identifier "any".toList) []

def node (draft : AliasDraft) : Node :=
  .typeAlias draft.name (draft.type.getD anyType) draft.parameters draft.exported draft.comment

def setComment (draft : AliasDraft) (comment : Value) : Except Failure AliasDraft := do
  let lines ← Comment.linesOf comment
  pure { draft with comment := lines }

def setType (draft : AliasDraft) (type : Node) : AliasDraft := { draft with type := some type }

/-- The type of a value, which is given by a dotted name. -/
def typeQuery (value : Text) : Node :=
  .typeQuery (.named ((Name.ofParts? (Text.splitOn '.' (Text.trim value))).getD (.identifier [])))

/-- The type that a text spells; an empty text spells none. -/
def optionalType (text : Text) : Option Node :=
  if text.isEmpty then none else some (Syntax.parseType text)

def addParameter (draft : AliasDraft) (name constraint default : Text) : AliasDraft :=
  let parameter := Node.typeParameter name (optionalType constraint) (optionalType default)
  { draft with parameters := draft.parameters ++ [parameter] }

def nameKey : Text := "name".toList

/-- An entry that is a text; one that is missing or an empty value counts as empty. -/
def textEntry (table : Table) (key : Text) : Except Failure Text :=
  match Table.field? table key with
  | none => .ok []
  | some (.text content) => .ok content
  | some (.ragged content) => .ok content.shown
  | some other => if other.isTruthy then .error .unsupported else .ok []

/-- Adds a parameter given as a table. The default may stand under either of two keys, of which
the first wins wherever it is there. -/
def addTable (draft : AliasDraft) (table : Table) : Except Failure AliasDraft := do
  match Table.field? table nameKey with
  | none => .error (.missingKey (.text nameKey))
  | some (.text name) =>
      let constraint ← textEntry table "constraint".toList
      let key := "default".toList
      let default ←
        if (Table.field? table key).isSome then textEntry table key
        else textEntry table "default_type".toList
      pure (draft.addParameter name constraint default)
  | some _ => .error .wrongKind

def addEntry (draft : AliasDraft) : Value → Except Failure AliasDraft
  | .table table => draft.addTable table
  | _ => .error .wrongKind

/-- Adds a parameter for each entry; those before a faulty one stay. -/
def addEntries : List Value → AliasDraft → Outcome AliasDraft
  | [], draft => .done draft
  | entry :: entries, draft =>
      match draft.addEntry entry with
      | .error failure => .failed draft failure
      | .ok next => addEntries entries next

def apply (command : Command) (draft : AliasDraft) : Outcome AliasDraft :=
  match command with
  | .comment comment => .ofExcept draft ((draft.setComment comment).map (·, none))
  | .print => .answered draft draft.node.print
  | .reference type => .done (draft.setType (Syntax.parseType type))
  | .union types => .done (draft.setType (.unionType (types.map Syntax.parseType)))
  | .intersection types => .done (draft.setType (.intersectionType (types.map Syntax.parseType)))
  | .array element => .done (draft.setType (.arrayType (Syntax.parseType element)))
  | .tuple elements => .done (draft.setType (.tupleType (elements.map Syntax.parseType)))
  | .keyOf type => .done (draft.setType (.typeOperator "keyof".toList (Syntax.parseType type)))
  | .typeOf value => .done (draft.setType (typeQuery value))
  | .parameter name constraint default => .done (draft.addParameter name constraint default)
  | .parameters entries => addEntries entries draft

end AliasDraft

end TypeScriptGen
