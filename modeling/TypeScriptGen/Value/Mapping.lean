import TypeScriptGen.Failure

/-!
# Tables from values

A list of pairs can serve as a table, a pair being any value with two elements
of which the first can be a key.
-/

namespace TypeScriptGen.Value

def pair (value : Value) : Except Failure (Value × Value) :=
  match value.elements? with
  | none => .error .wrongKind
  | some [key, item] => if key.isHashable then .ok (key, item) else .error .wrongKind
  | some _ => .error .notPairs

/-- The table that a value is or lists the entries of. -/
def toTable : Value → Except Failure Table
  | .table entries => .ok entries
  | value => do
      let items ← value.elements
      let pairs ← items.mapM pair
      pure (Table.ofList pairs)

/-- The table of a value, which is empty when the value is. -/
def toTableOrEmpty (value : Value) : Except Failure Table :=
  if value.isTruthy then value.toTable else .ok []

def isKnown (known : List Text) : Value → Bool
  | .text content => known.contains content
  | _ => false

def text? : Value → Option Text
  | .text content => some content
  | .ragged content => some content.shown
  | _ => none

def distinct (texts : List Text) : List Text :=
  texts.foldr (fun text found => if found.contains text then found else text :: found) []

def sortTexts (texts : List Text) : List Text := texts.mergeSort fun a b => !(b < a)

/-- The elements that are none of the known names, sorted; they must all be texts. -/
def unknownNames (known : List Text) (value : Value) : Except Failure (List Text) := do
  let items ← value.elements
  if items.all isHashable then
    let unknown := items.filter fun item => !isKnown known item
    let names := unknown.filterMap text?
    if names.length = unknown.length then pure (sortTexts (distinct names))
    else .error .wrongKind
  else .error .wrongKind

end TypeScriptGen.Value
