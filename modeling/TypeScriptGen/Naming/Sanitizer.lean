import TypeScriptGen.Decimal.Whole
import TypeScriptGen.Naming.Case

/-!
# Sanitized names

A sanitizer makes identifiers of arbitrary text. It answers the same request
with the same name, and it keeps the names of different requests apart by a
suffix: a reserved name gets the suffix once, and a name that is taken gets the
suffix and the first number that is free.
-/

namespace TypeScriptGen.Naming

structure Sanitizer where
  reserved : List Text
  /-- The names given so far, by request. -/
  answers : List (Text × Text)
  used : List Text

namespace Sanitizer

def fresh (reserved : List Text) : Sanitizer := ⟨reserved, [], []⟩

def defaultSuffix : Text := ['_']

def styleName : Style → Text
  | .snake => "snake".toList
  | .camel => "camel".toList
  | .pascal => "pascal".toList

/-- What a request is remembered by. -/
def request (name : Text) (style : Style) (suffix : Text) : Text :=
  name ++ '_' :: styleName style ++ '_' :: suffix

def isAllowed (c : Char) : Bool := c.isAlphanum || c == '_' || c == '-'

/-- Puts an underscore before a text that is empty or starts with a digit. -/
def guardStart : Text → Text
  | [] => ['_']
  | c :: rest => if c.isDigit then '_' :: c :: rest else c :: rest

/-- Replaces what no name may hold by underscores; a text of which nothing is left is `value`. -/
def clean (name : Text) : Text :=
  let kept := name.map fun c => if isAllowed c then c else '_'
  match stripWhere (fun c => c == '_' || c == '-') kept with
  | [] => "value".toList
  | text => guardStart text

def numbered (name suffix : Text) (number : Nat) : Text := name ++ suffix ++ Decimal.digits number

/-- The name itself, then the name with rising numbers. One more candidate than there are used
names is enough. -/
def candidates (name suffix : Text) (count : Nat) : List Text :=
  name :: (List.range count).map fun index => numbered name suffix (index + 1)

def resolve (sanitizer : Sanitizer) (name suffix : Text) : Text :=
  let name := if sanitizer.reserved.contains name then name ++ suffix else name
  let free := (candidates name suffix sanitizer.used.length).find? fun candidate =>
    !sanitizer.used.contains candidate
  free.getD name

def sanitize (sanitizer : Sanitizer) (name : Text) (style : Style) (suffix : Text) :
    Sanitizer × Text :=
  let key := request name style suffix
  match sanitizer.answers.lookup key with
  | some known => (sanitizer, known)
  | none =>
      let answer := sanitizer.resolve (guardStart (convert style (clean name))) suffix
      ({ sanitizer with
          answers := (key, answer) :: sanitizer.answers
          used := answer :: sanitizer.used },
        answer)

end Sanitizer

end TypeScriptGen.Naming
