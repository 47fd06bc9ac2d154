import TypeScriptGen.Syntax.Literal
import TypeScriptGen.Syntax.Node
import TypeScriptGen.Text.Blank
import TypeScriptGen.Text.Search
import TypeScriptGen.Text.Word

/-!
# References in code

A reference is an identifier that no word character, dollar sign or dot stands
in front of, followed by any number of members, each behind a dot that blanks
may surround; a parenthesis behind it makes it a call. A reserved word alone is
no reference. `referencesIn` lists the references of the code of a text, and
then its literals.
-/

namespace TypeScriptGen.Syntax

/-- The words that never name anything by themselves. -/
def reservedWords : List Text :=
  ["break", "case", "catch", "class", "const", "continue", "debugger", "default", "delete", "do",
    "else", "enum", "export", "extends", "false", "finally", "for", "function", "if", "import",
    "in", "instanceof", "new", "null", "return", "super", "switch", "this", "throw", "true", "try",
    "typeof", "var", "void", "while", "with", "as", "implements", "interface", "let", "package",
    "private", "protected", "public", "static", "yield", "await", "async", "of", "keyof",
    "readonly", "undefined"].map String.toList

def isReserved (word : Text) : Bool := reservedWords.contains word

/-- An identifier at the start of a text, and what follows it. -/
def readIdentifier : Text → Option (Text × Text)
  | [] => none
  | c :: rest =>
      if Text.isIdentifierStart c then
        some (c :: rest.takeWhile Text.isReferencePart, rest.dropWhile Text.isReferencePart)
      else none

/-- A dot and a member name, with blanks around the dot. -/
def readMember (text : Text) : Option (Text × Text) :=
  match Text.trimStart text with
  | '.' :: rest => readIdentifier (Text.trimStart rest)
  | _ => none

/-- The members that follow, at most `limit` of them. -/
def readMembers : Nat → Text → List Text × Text
  | 0, text => ([], text)
  | limit + 1, text =>
      match readMember text with
      | none => ([], text)
      | some (member, rest) =>
          let (members, after) := readMembers limit rest
          (member :: members, after)

/-- The parenthesis that opens the arguments of a call, behind blanks. -/
def readOpening (text : Text) : Option Text :=
  match Text.trimStart text with
  | '(' :: rest => some rest
  | _ => none

/-- The components of a reference, and whether it is called. -/
structure Reference where
  first : Text
  members : List Text
  called : Bool
deriving DecidableEq

def readReference (text : Text) : Option (Reference × Text) :=
  match readIdentifier text with
  | none => none
  | some (first, rest) =>
      let (members, after) := readMembers rest.length rest
      match readOpening after with
      | some arguments => some (⟨first, members, true⟩, arguments)
      | none => some (⟨first, members, false⟩, after)

/-- A reference can start here: nothing in front continues into it. -/
def opensReference : Option Char → Bool
  | none => true
  | some c => !(Text.isReferencePart c || c == '.')

def matchReference : Text.Matcher Reference := fun before text =>
  if opensReference before then readReference text else none

namespace Reference

def isKeyword (reference : Reference) : Bool :=
  reference.members.isEmpty && isReserved reference.first

def expression (reference : Reference) : Node :=
  let path := reference.members.foldl Node.propertyAccess (Node.identifier reference.first)
  if reference.called then .call path [] else path

def type (reference : Reference) : Node :=
  .typeReference ((Name.identifier reference.first).extend reference.members) []

end Reference

def referencesInCode (code : Text) : List Reference :=
  (Text.collect matchReference code).filter fun reference => !reference.isKeyword

def referenceNode (asTypes : Bool) (reference : Reference) : Node :=
  if asTypes then reference.type else reference.expression

/-- The references in the code of a text, then the contents of its literals. -/
def referencesIn (asTypes : Bool) (text : Text) : List Node :=
  (codeSegments text).flatMap (fun code => (referencesInCode code).map (referenceNode asTypes)) ++
    (literals text).map fun literal => .stringLiteral literal.content

end TypeScriptGen.Syntax
