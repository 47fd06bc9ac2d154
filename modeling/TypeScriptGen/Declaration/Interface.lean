import TypeScriptGen.Outcome
import TypeScriptGen.Syntax.Parse
import TypeScriptGen.Syntax.Printer

/-!
# Interfaces

An interface is drafted by adding properties and parents. Its node lists both
in the order of addition.
-/

namespace TypeScriptGen

structure InterfaceDraft where
  name : Text
  exported : Bool
  properties : List Node
  parents : List Text
  comment : List Text

namespace InterfaceDraft

def start (name : Text) (exported : Bool) : InterfaceDraft := ⟨name, exported, [], [], []⟩

inductive Command
  | comment (comment : Value)
  | print
  | property (name type : Text) (optional readonly : Bool) (comment : Value)
  | parents (names : List Text)

def node (draft : InterfaceDraft) : Node :=
  .interface draft.name draft.properties (draft.parents.map Syntax.parseType) draft.exported
    draft.comment

def setComment (draft : InterfaceDraft) (comment : Value) : Except Failure InterfaceDraft := do
  let lines ← Comment.linesOf comment
  pure { draft with comment := lines }

def addProperty (draft : InterfaceDraft) (name type : Text) (optional readonly : Bool)
    (comment : Value) : Except Failure InterfaceDraft := do
  let lines ← Comment.linesOf comment
  let property := Node.property name (Syntax.parseType type) optional readonly lines
  pure { draft with properties := draft.properties ++ [property] }

def addParents (draft : InterfaceDraft) (names : List Text) : InterfaceDraft :=
  { draft with parents := draft.parents ++ names }

def apply (command : Command) (draft : InterfaceDraft) : Outcome InterfaceDraft :=
  match command with
  | .comment comment => .ofExcept draft ((draft.setComment comment).map (·, none))
  | .print => .answered draft draft.node.print
  | .property name type optional readonly comment =>
      .ofExcept draft ((draft.addProperty name type optional readonly comment).map (·, none))
  | .parents names => .done (draft.addParents names)

end InterfaceDraft

end TypeScriptGen
