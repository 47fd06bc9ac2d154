import TypeScriptGen.Decimal.Shortest
import TypeScriptGen.Failure
import TypeScriptGen.Text.Line
import TypeScriptGen.Text.Quoted

/-!
# Writing JSON

Values are written with two places of indentation a level. Writing may fail at
a whole number that is too long, at a ragged text, or at a key that is a list, a
table, a tuple, a moment or a node; an `Output` holds what was written up to
there. Texts are written piece by piece, so that a surrogate keeps back the piece
that it stands in and nothing before it.
-/

namespace TypeScriptGen.Json

structure Output where
  text : Text
  failure : Option Failure

namespace Output

def ofText (text : Text) : Output := ⟨text, none⟩

def fail (failure : Failure) : Output := ⟨[], some failure⟩

/-- Goes on behind an output that has not failed. -/
def andThen (first second : Output) : Output :=
  match first.failure with
  | some _ => first
  | none => ⟨first.text ++ second.text, second.failure⟩

theorem ofText_andThen (first second : Text) :
    (ofText first).andThen (ofText second) = ofText (first ++ second) := rfl

end Output

def indentSize : Nat := 2

/-- A line break with the margin of a level. -/
def lineBreak (level : Nat) : Text := '\n' :: Text.spaces (indentSize * level)

def numberText (number : Decimal.Double) : Text :=
  if number.isNaN then "NaN".toList
  else if number.isFinite then number.text
  else if number.isNegative then "-Infinity".toList
  else "Infinity".toList

/-- The text of a key: keys that are no text are written as the text of their value. -/
def keyText : Value → Except Failure Text
  | .text content => .ok content
  | .ragged _ => .error .unencodable
  | .float number => .ok (numberText number)
  | .bool true => .ok "true".toList
  | .bool false => .ok "false".toList
  | .null => .ok "null".toList
  | .int number =>
      if Decimal.isOversize number then .error .oversize else .ok (Decimal.wholeText number)
  | _ => .error .wrongKind

/-- A ragged key fails when it is written, behind the text that leads to it. Others are refused
before that text. -/
def refuseKey (lead : Text) : Failure → Output
  | .unencodable => ⟨lead, some .unencodable⟩
  | failure => .fail failure

/-- A number that cannot be written leaves out what leads to it. -/
def leadNumber (lead : Text) (number : Int) : Output :=
  if Decimal.isOversize number then .fail .oversize
  else .ofText (lead ++ Decimal.wholeText number)

mutual

/-- Writes a value behind a text that leads to it. -/
def writeValue (level : Nat) (lead : Text) : Value → Output
  | .null => .ofText (lead ++ "null".toList)
  | .bool true => .ofText (lead ++ "true".toList)
  | .bool false => .ofText (lead ++ "false".toList)
  | .int number => leadNumber lead number
  | .float number => .ofText (lead ++ numberText number)
  | .text content => .ofText (lead ++ Text.encode content)
  | .ragged _ => .fail .unencodable
  | .moment date => .ofText (lead ++ Text.encode (date.isoText ' '))
  | .node node => .ofText (lead ++ Text.encode node.record.inspect)
  | .list items => (Output.ofText lead).andThen (writeItems level items)
  | .tuple items => (Output.ofText lead).andThen (writeItems level items)
  | .table entries => (Output.ofText lead).andThen (writeEntries level entries)

/-- Writes the items of a list, the first behind the opening bracket. -/
def writeItems (level : Nat) : List Value → Output
  | [] => .ofText ['[', ']']
  | item :: items =>
      (writeValue (level + 1) ('[' :: lineBreak (level + 1)) item).andThen
        (writeMoreItems level items)

def writeMoreItems (level : Nat) : List Value → Output
  | [] => .ofText (lineBreak level ++ [']'])
  | item :: items =>
      (writeValue (level + 1) (',' :: lineBreak (level + 1)) item).andThen
        (writeMoreItems level items)

/-- Writes the entries of a table, the first behind the opening brace. -/
def writeEntries (level : Nat) : List (Value × Value) → Output
  | [] => .ofText ['\x7b', '\x7d']
  | (key, value) :: entries =>
      (Output.ofText ('\x7b' :: lineBreak (level + 1))).andThen
        (match keyText key with
          | .error failure => .fail failure
          | .ok text =>
              ((Output.ofText (Text.encode text ++ [':', ' '])).andThen
                (writeValue (level + 1) [] value)).andThen (writeMoreEntries level entries))

def writeMoreEntries (level : Nat) : List (Value × Value) → Output
  | [] => .ofText (lineBreak level ++ ['\x7d'])
  | (key, value) :: entries =>
      match keyText key with
      | .error failure => refuseKey (',' :: lineBreak (level + 1)) failure
      | .ok text =>
          ((Output.ofText (',' :: lineBreak (level + 1) ++ Text.encode text ++ [':', ' '])).andThen
            (writeValue (level + 1) [] value)).andThen (writeMoreEntries level entries)

end

def write (value : Value) : Output := writeValue 0 [] value

end TypeScriptGen.Json
