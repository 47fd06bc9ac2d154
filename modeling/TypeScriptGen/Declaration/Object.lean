import TypeScriptGen.Comment
import TypeScriptGen.Outcome
import TypeScriptGen.Syntax.Reference
import TypeScriptGen.Value.Literal

/-!
# Object literals

An object lists its entries in the order of addition; an entry is plain data or
a nested object. A named object is a constant declaration. Objects are written
straight to text, which is then scanned for references like any verbatim code.
-/

namespace TypeScriptGen

inductive ObjectEntry
  | plain (key : Text) (value : Value) (readonly : Bool)
  | nested (key : Text) (entries : List ObjectEntry) (readonly : Bool)

namespace ObjectEntry

def line (key : Text) (readonly : Bool) (literal : Text) : Text :=
  (if readonly then "/* readonly */ ".toList else []) ++ key ++ ": ".toList ++ literal

mutual

/-- An entry of an object, with its value at the given level. -/
def text (level : Int) : ObjectEntry → Text
  | .plain key value readonly => line key readonly (value.literal level)
  | .nested key entries readonly =>
      line key readonly (Value.braces level (texts (level + 1) entries))

def texts (level : Int) : List ObjectEntry → List Text
  | [] => []
  | entry :: entries => text level entry :: texts level entries

end

mutual

def holdsOversize : ObjectEntry → Bool
  | .plain _ value _ => value.holdsOversize
  | .nested _ entries _ => anyOversize entries

def anyOversize : List ObjectEntry → Bool
  | [] => false
  | entry :: entries => holdsOversize entry || anyOversize entries

end

theorem texts_eq (level : Int) (entries : List ObjectEntry) :
    texts level entries = entries.map (text level) := by
  induction entries with
  | nil => rfl
  | cons entry entries ih => rw [texts, ih, List.map_cons]

theorem anyOversize_eq (entries : List ObjectEntry) :
    anyOversize entries = entries.any holdsOversize := by
  induction entries with
  | nil => rfl
  | cons entry entries ih => rw [anyOversize, ih, List.any_cons]

end ObjectEntry

structure ObjectDraft where
  /-- An empty name makes no declaration. -/
  name : Text
  exported : Bool
  constant : Bool
  entries : List ObjectEntry
  comment : List Text

namespace ObjectDraft

def start (name : Text) (exported constant : Bool) : ObjectDraft :=
  ⟨name, exported, constant, [], []⟩

def anonymous : ObjectDraft := start [] false false

inductive Command
  | comment (comment : Value)
  | print
  | property (key : Text) (value : Value) (readonly : Bool)
  | nested (key : Text) (commands : List Command) (readonly : Bool)
  | constant
  | literal (level : Int)

/-- The literal alone, at a level of nesting. -/
def literal (draft : ObjectDraft) (level : Int) : Text :=
  Value.braces level (ObjectEntry.texts (level + 1) draft.entries)

def literal? (draft : ObjectDraft) (level : Int) : Except Failure Text :=
  if ObjectEntry.anyOversize draft.entries then .error .oversize else .ok (draft.literal level)

/-- The declaration around a literal. -/
def declare (draft : ObjectDraft) (literal : Text) : Text :=
  if !draft.name.isEmpty then
    (if draft.exported then "export ".toList else []) ++ "const ".toList ++ draft.name ++
      " = ".toList ++ literal ++ (if draft.constant then " as const".toList else []) ++ [';']
  else if draft.constant then '(' :: literal ++ ") as const".toList
  else literal

def print (draft : ObjectDraft) : Except Failure Text := do
  let literal ← draft.literal? 1
  pure (Comment.above draft.comment (draft.declare literal))

def node (draft : ObjectDraft) : Except Failure Node := do
  let text ← draft.print
  pure (.raw text (Syntax.referencesIn false text))

def add (draft : ObjectDraft) (entry : ObjectEntry) : ObjectDraft :=
  { draft with entries := draft.entries ++ [entry] }

def setComment (draft : ObjectDraft) (comment : Value) : Except Failure ObjectDraft := do
  let lines ← Comment.linesOf comment
  pure { draft with comment := lines }

mutual

def step (draft : ObjectDraft) : Command → Except Failure (ObjectDraft × Option Text)
  | .comment comment => (draft.setComment comment).map (·, none)
  | .print => draft.print.map fun text => (draft, some text)
  | .property key value readonly => .ok (draft.add (.plain key value readonly), none)
  | .nested key commands readonly => do
      let inner ← steps anonymous commands
      pure (draft.add (.nested key inner.entries readonly), none)
  | .constant => .ok ({ draft with constant := true }, none)
  | .literal level => (draft.literal? level).map fun text => (draft, some text)

/-- Runs commands in turn. -/
def steps (draft : ObjectDraft) : List Command → Except Failure ObjectDraft
  | [] => .ok draft
  | command :: commands => do
      let (next, _) ← step draft command
      steps next commands

end

def apply (command : Command) (draft : ObjectDraft) : Outcome ObjectDraft :=
  .ofExcept draft (draft.step command)

end ObjectDraft

end TypeScriptGen
