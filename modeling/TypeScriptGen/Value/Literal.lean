import TypeScriptGen.Failure
import TypeScriptGen.Text.Line

/-!
# Values as TypeScript literals

Lists stand on one line; tables have one entry a line, four places for each
level of nesting. Texts are quoted by the JSON rules, and so is the display text
of moments and nodes. `level` is the depth of the enclosing object; it may be
zero or negative, and then nothing is indented.
-/

namespace TypeScriptGen.Value

def indentSize : Nat := 4

def levelMargin (level : Int) : Text := Text.spaces (indentSize * level).toNat

/-- The entries of an object between braces, one a line. -/
def braces (level : Int) (entries : List Text) : Text :=
  if entries.isEmpty then ['\x7b', '\x7d']
  else
    ['\x7b', '\n'] ++
      [',', '\n'].intercalate (entries.map fun entry => levelMargin level ++ entry) ++
      '\n' :: levelMargin (level - 1) ++ ['\x7d']

mutual

def literal (level : Int) : Value → Text
  | .null => "null".toList
  | .bool true => "true".toList
  | .bool false => "false".toList
  | .int number => Decimal.wholeText number
  | .float number => number.text
  | .text content => Text.encode content
  | .ragged content => Text.encode content.shown
  | .list items => bracket '[' ']' (literalAll level items)
  | .tuple items => bracket '[' ']' (literalAll level items)
  | .table entries => braces level (literalEntries (level + 1) entries)
  | .moment date => Text.encode (date.isoText ' ')
  | .node found => Text.encode found.record.inspect

def literalAll (level : Int) : List Value → List Text
  | [] => []
  | item :: items => literal level item :: literalAll level items

/-- Each entry as its key, a colon and the literal of its value at the given level. -/
def literalEntries (level : Int) : List (Value × Value) → List Text
  | [] => []
  | (key, value) :: entries =>
      (display key ++ ": ".toList ++ literal level value) :: literalEntries level entries

end

/-- The literal of a value, unless a whole number in it is too long to write. -/
def literal? (value : Value) (level : Int) : Except Failure Text :=
  if value.holdsOversize then .error .oversize else .ok (value.literal level)

end TypeScriptGen.Value
