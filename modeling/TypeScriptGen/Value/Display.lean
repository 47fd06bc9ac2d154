import TypeScriptGen.Decimal.Shortest
import TypeScriptGen.Text.Quoted
import TypeScriptGen.Value.Basic

/-!
# Display text of values

`display` is the text of a value in comments and names. A text stands for
itself at the top and is quoted inside a list, tuple or table; a ragged text
stands there with its replacements. A moment is written in the ISO form at the
top and by its fields inside.
-/

namespace TypeScriptGen.Value

def bracket (opening closing : Char) (parts : List Text) : Text :=
  opening :: ", ".toList.intercalate parts ++ [closing]

/-- A tuple with one item keeps a comma behind it. -/
def tupleText : List Text → Text
  | [part] => '(' :: part ++ [',', ')']
  | parts => bracket '(' ')' parts

mutual

/-- The text of a value inside another. -/
def inspect : Value → Text
  | .null => "None".toList
  | .bool true => "True".toList
  | .bool false => "False".toList
  | .int number => Decimal.wholeText number
  | .float number => number.text
  | .text content => Text.display content
  | .ragged content => content.display
  | .list items => bracket '[' ']' (inspectAll items)
  | .tuple items => tupleText (inspectAll items)
  | .table entries => bracket '\x7b' '\x7d' (inspectEntries entries)
  | .moment date => date.fieldsText
  | .node found => found.record.inspect

def inspectAll : List Value → List Text
  | [] => []
  | item :: items => inspect item :: inspectAll items

def inspectEntries : List (Value × Value) → List Text
  | [] => []
  | (key, value) :: entries =>
      (inspect key ++ ": ".toList ++ inspect value) :: inspectEntries entries

end

def display : Value → Text
  | .text content => content
  | .ragged content => content.shown
  | .moment date => date.isoText ' '
  | value => inspect value

mutual

/-- The value holds a whole number with more digits than can be written. -/
def holdsOversize : Value → Bool
  | .int number => Decimal.isOversize number
  | .list items => anyOversize items
  | .tuple items => anyOversize items
  | .table entries => entryOversize entries
  | _ => false

def anyOversize : List Value → Bool
  | [] => false
  | item :: items => holdsOversize item || anyOversize items

def entryOversize : List (Value × Value) → Bool
  | [] => false
  | (key, value) :: entries => holdsOversize key || holdsOversize value || entryOversize entries

end

theorem anyOversize_eq_false_iff {items : List Value} :
    anyOversize items = false ↔ ∀ item ∈ items, holdsOversize item = false := by
  induction items with
  | nil => exact ⟨fun _ => nofun, fun _ => rfl⟩
  | cons item items ih => rw [anyOversize, Bool.or_eq_false_iff, ih, List.forall_mem_cons]

theorem entryOversize_eq_false_iff {entries : List (Value × Value)} :
    entryOversize entries = false ↔
      ∀ entry ∈ entries, holdsOversize entry.1 = false ∧ holdsOversize entry.2 = false := by
  induction entries with
  | nil => exact ⟨fun _ => nofun, fun _ => rfl⟩
  | cons entry entries ih =>
      obtain ⟨key, value⟩ := entry
      rw [entryOversize, Bool.or_eq_false_iff, Bool.or_eq_false_iff, ih, List.forall_mem_cons]

/-- The items that a value yields when it is walked through: the characters of a text, the items
of a list or tuple, the keys of a table. -/
def elements? : Value → Option (List Value)
  | .text content => some (content.map fun c => .text [c])
  | .ragged content => some (content.points.map fun point => ofPoints [point])
  | .list items => some items
  | .tuple items => some items
  | .table entries => some (Table.keys entries)
  | _ => none

/-- The name of a value's kind. -/
def kindName : Value → Text
  | .null => "NoneType".toList
  | .bool _ => "bool".toList
  | .int _ => "int".toList
  | .float _ => "float".toList
  | .text _ => "str".toList
  | .ragged _ => "str".toList
  | .list _ => "list".toList
  | .tuple _ => "tuple".toList
  | .table _ => "dict".toList
  | .moment _ => "datetime.datetime".toList
  | .node found => found.kindName

/-- The name of a value's kind without what it belongs to. -/
def plainKindName : Value → Text
  | .moment _ => "datetime".toList
  | other => other.kindName

/-- The name of a value's kind with what it belongs to. -/
def fullKindName (value : Value) : Text :=
  match value with
  | .node found => "ts_builder.core.syntax.".toList ++ found.kindName
  | other => other.kindName

/-- Values that can be keys: everything but lists, tables, nodes with fields and tuples that hold
such. -/
def isHashable : Value → Bool
  | .list _ => false
  | .table _ => false
  | .node found => found.isPlaceholder
  | .tuple items => hashableAll items
  | _ => true
where
  hashableAll : List Value → Bool
    | [] => true
    | item :: items => isHashable item && hashableAll items

end TypeScriptGen.Value
