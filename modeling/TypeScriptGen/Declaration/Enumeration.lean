import TypeScriptGen.Naming.Sanitizer
import TypeScriptGen.Outcome
import TypeScriptGen.Syntax.Printer
import TypeScriptGen.Text.Word

/-!
# Enumerations

Members have a key and a value. A number becomes a numeric initializer, any
other value a string. A key that is no identifier is put between double quotes
as it is. Members can also be derived from values alone: then the key is the
value's name in Pascal case, as the enumeration's own sanitizer gives it.
-/

namespace TypeScriptGen

structure EnumDraft where
  name : Text
  exported : Bool
  constant : Bool
  members : List Node
  sanitizer : Naming.Sanitizer
  comment : List Text

namespace EnumDraft

def start (name : Text) (exported constant : Bool) : EnumDraft :=
  ⟨name, exported, constant, [], Naming.Sanitizer.fresh [], []⟩

inductive Command
  | comment (comment : Value)
  | print
  | member (key : Text) (value : Value)
  | values (values : List Value)

def node (draft : EnumDraft) : Node :=
  .enumeration draft.name draft.members draft.exported draft.constant draft.comment

def setComment (draft : EnumDraft) (comment : Value) : Except Failure EnumDraft := do
  let lines ← Comment.linesOf comment
  pure { draft with comment := lines }

def initializer (value : Value) : Except Failure Node := do
  let text ← value.display?
  match value with
  | .int _ => pure (.numericLiteral text)
  | .float _ => pure (.numericLiteral text)
  | _ => pure (.stringLiteral text)

/-- An identifier, or an identifier with one line feed behind it, needs no quotes. -/
def isPlainKey (key : Text) : Bool :=
  Text.isIdentifier key || (key.getLast? == some '\n' && Text.isIdentifier key.dropLast)

def keyText (key : Text) : Text := if isPlainKey key then key else '"' :: key ++ ['"']

def addMember (draft : EnumDraft) (key : Text) (value : Value) : Except Failure EnumDraft := do
  let initial ← initializer value
  pure { draft with members := draft.members ++ [.enumMember (keyText key) initial] }

def addValue (draft : EnumDraft) (value : Value) : Except Failure EnumDraft := do
  let text ← value.display?
  let (sanitizer, key) := draft.sanitizer.sanitize text .pascal Naming.Sanitizer.defaultSuffix
  addMember { draft with sanitizer := sanitizer } key value

/-- Adds a member for each value; those before a faulty one stay. -/
def addValues : List Value → EnumDraft → Outcome EnumDraft
  | [], draft => .done draft
  | value :: values, draft =>
      match draft.addValue value with
      | .error failure => .failed draft failure
      | .ok next => addValues values next

def apply (command : Command) (draft : EnumDraft) : Outcome EnumDraft :=
  match command with
  | .comment comment => .ofExcept draft ((draft.setComment comment).map (·, none))
  | .print => .answered draft draft.node.print
  | .member key value => .ofExcept draft ((draft.addMember key value).map (·, none))
  | .values values => addValues values draft

end EnumDraft

end TypeScriptGen
