import TypeScriptGen.Text.Line
import TypeScriptGen.Timestamp

/-!
# Doc comments

A comment is given as a text, which is cut into lines, or as a list of lines.
`doc` writes the comment of a declaration: one line inline, several as a block.
`format` writes a comment with metadata tags in one of two styles, and the
headers and end markers of sections are made with it.
-/

namespace TypeScriptGen.Comment

/-- The lines of a comment; an empty comment has none. -/
def linesOf (comment : Value) : Except Failure (List Text) :=
  if !comment.isTruthy then .ok []
  else
    match comment with
    | .text content => .ok (Text.lines content)
    | .ragged content => .ok (Text.lines content.shown)
    | other => do
        let items ← other.elements
        items.mapM Value.display?

theorem linesOf_text (content : Text) : linesOf (.text content) = .ok (Text.lines content) := by
  cases content <;> rfl

def inlineLine (line : Text) : Text := "/** ".toList ++ line ++ " */".toList

def bodyLine (line : Text) : Text :=
  if line.isEmpty then " *".toList else " * ".toList ++ line

def block (lines : List Text) : Text :=
  ['\n'].intercalate ("/**".toList :: lines.map bodyLine ++ [" */".toList])

/-- The comment in front of a declaration. -/
def doc : List Text → Text
  | [] => []
  | [line] => inlineLine line
  | lines => block lines

theorem doc_eq_nil_iff (lines : List Text) : doc lines = [] ↔ lines = [] := by
  match lines with
  | [] => simp [doc]
  | [line] => simp [doc, inlineLine]
  | first :: second :: rest =>
      simp [doc, block, List.intercalate]

/-- The comment that a value gives: of a text the block of its lines, unless it is one character,
of a list its items as lines. A table with one entry must have it under the key zero. -/
def docOf (lines : Value) : Except Failure Text :=
  match lines with
  | .text [c] => .ok (inlineLine [c])
  | .text [] => .ok []
  | .text content => .ok (block (Text.lines content))
  | .ragged content =>
      .ok (if content.points.length = 1 then inlineLine content.shown
        else block (Text.lines content.shown))
  | .table [entry] =>
      if entry.1.same (.int 0) then entry.2.display?.map inlineLine
      else .error (.missingKey (.int 0))
  | other => (linesOf other).map doc

/-- Puts a comment on lines of its own in front of a text. -/
def above (lines : List Text) (text : Text) : Text :=
  match doc lines with
  | [] => text
  | comment => comment ++ '\n' :: text

/-- The text of a metadata value: moments as timestamps, the rest as displayed. -/
def tagText : Value → Except Failure Text
  | .moment date => Timestamp.ofMoment date
  | value => value.display?

def tagLine (key value : Value) : Except Failure Text := do
  let name ← key.display?
  let text ← tagText value
  pure ('@' :: name ++ ' ' :: text)

/-- One tag line for each entry that is not null. -/
def tagLines : Table → Except Failure (List Text)
  | [] => .ok []
  | (key, value) :: entries =>
      if value.isNull then tagLines entries
      else do
        let line ← tagLine key value
        let lines ← tagLines entries
        pure (line :: lines)

/-- The entries of metadata; an empty value of any kind has none. -/
def entriesOf (metadata : Value) : Except Failure Table :=
  if !metadata.isTruthy then .ok []
  else
    match metadata with
    | .table entries => .ok entries
    | _ => .error .unsupported

/-- Lines and tags in a style: `single` gives one comment a line and leaves out empty lines, any
other style gives one block. A blank line parts the lines from the tags. -/
def layout (single : Bool) (lines tags : List Text) : Text :=
  if lines.isEmpty && tags.isEmpty then []
  else
    let gap := if lines.isEmpty || tags.isEmpty then [] else [[]]
    let all := lines ++ gap ++ tags
    if single then
      ['\n'].intercalate ((all.filter fun line => !line.isEmpty).map inlineLine)
    else block all

def isSingle : Value → Bool
  | .text content => content == "single".toList
  | _ => false

def format (comment style metadata : Value) : Except Failure Text := do
  let lines ← linesOf comment
  let entries ← entriesOf metadata
  let tags ← tagLines entries
  pure (layout (isSingle style) lines tags)

/-- The header of a section: its name, its description and its tags. -/
def sectionHeader (name : Text) (description metadata style : Value) : Except Failure Text := do
  let lines ← linesOf description
  let entries ← entriesOf metadata
  let tags ← tagLines entries
  pure (layout (isSingle style) (name :: lines) tags)

def sectionEnd (name : Text) : Text := "// End ".toList ++ name

end TypeScriptGen.Comment
