import TypeScriptGen.Syntax.Reference

/-!
# Shallow parsing

Text given by callers becomes a node. Names, literal types and arrays get nodes
of their own; any other text stays verbatim, with the references found in it.
-/

namespace TypeScriptGen.Syntax

def parseExpression (text : Text) : Node :=
  let text := Text.trim text
  if Text.isIdentifier text && !isReserved text then .identifier text
  else .raw text (referencesIn false text)

/-- A statement may end in a semicolon, which does not belong to its expression. -/
def parseStatement (text : Text) : Node :=
  let text := Text.trim text
  let body := if text.getLast? = some ';' then Text.trimEnd text.dropLast else text
  .expressionStatement (parseExpression body)

/-- A name of two or more identifiers with single dots between them. -/
def dottedName (text : Text) : Option Name :=
  match Text.splitOn '.' text with
  | first :: second :: rest =>
      if (first :: second :: rest).all Text.isIdentifier then
        some ((Name.identifier first).extend (second :: rest))
      else none
  | _ => none

/-- Digits, with an optional point and further digits. -/
def isNumber (text : Text) : Bool :=
  let isDigits (part : Text) : Bool := !part.isEmpty && part.all Char.isDigit
  match Text.splitOn '.' text with
  | [whole] => isDigits whole
  | [whole, part] => isDigits whole && isDigits part
  | _ => false

/-- The content of a text that is one literal in single or double quotes, without backslashes. -/
def quotedContent : Text → Option Text
  | [] => none
  | quote :: rest =>
      let content := rest.dropLast
      if (quote = '"' || quote = '\x27') && rest.getLast? = some quote &&
          !content.contains quote && !content.contains '\\' then
        some content
      else none

/-- The text in front of a final pair of square brackets. -/
def arrayElement (text : Text) : Option Text :=
  match text.reverse with
  | ']' :: '[' :: rest =>
      let element := Text.trim rest.reverse
      if element.isEmpty then none else some element
  | _ => none

theorem arrayElement_length (text element : Text) (found : arrayElement text = some element) :
    element.length < text.length := by
  unfold arrayElement at found
  split at found
  · next rest same =>
      simp only at found
      split at found
      · cases found
      · cases found
        have shorter := Text.trim_length_le rest.reverse
        have total : text.length = rest.length + 2 := by
          rw [← List.length_reverse, same]
          rfl
        rw [List.length_reverse] at shorter
        omega
  · cases found

/-- A type that is no array of something. -/
def parseSimpleType (text : Text) : Option Node :=
  if Text.isIdentifier text then
    if text = "true".toList || text = "false".toList then some (.literalType (.raw text []))
    else some (.typeReference (.identifier text) [])
  else
    match dottedName text with
    | some name => some (.typeReference name [])
    | none =>
        match quotedContent text with
        | some content => some (.literalType (.stringLiteral content))
        | none => if isNumber text then some (.literalType (.numericLiteral text)) else none

def rawType (text : Text) : Node := .raw text (referencesIn true text)

/-- Reads a trimmed type with at most `depth` pairs of brackets behind it. -/
def parseTypeWithin : Nat → Text → Node
  | 0, text => (parseSimpleType text).getD (rawType text)
  | depth + 1, text =>
      match parseSimpleType text with
      | some node => node
      | none =>
          match arrayElement text with
          | some element => .arrayType (parseTypeWithin depth element)
          | none => rawType text

def parseType (text : Text) : Node :=
  let text := Text.trim text
  parseTypeWithin text.length text

theorem arrayElement_eq_none (text : Text) (empty : text.length = 0) :
    arrayElement text = none := by
  cases text with
  | nil => rfl
  | cons c rest => simp at empty

/-- Any depth that is at least the length of the text gives the same node. -/
theorem parseTypeWithin_eq (depth : Nat) (text : Text) (enough : text.length ≤ depth) :
    parseTypeWithin depth text = parseTypeWithin text.length text := by
  induction depth using Nat.strongRecOn generalizing text with
  | ind depth ih =>
      match depth with
      | 0 => rw [Nat.le_zero.1 enough]
      | depth + 1 =>
          cases size : text.length with
          | zero =>
              simp only [parseTypeWithin, arrayElement_eq_none text size]
              cases parseSimpleType text <;> rfl
          | succ length =>
              simp only [parseTypeWithin]
              cases parseSimpleType text with
              | some node => rfl
              | none =>
                  cases found : arrayElement text with
                  | none => rfl
                  | some element =>
                      have shorter := arrayElement_length text element found
                      simp only
                      rw [ih depth (by omega) element (by omega)]
                      by_cases same : length = depth
                      · rw [same, ih depth (by omega) element (by omega)]
                      · rw [ih length (by omega) element (by omega)]

end TypeScriptGen.Syntax
