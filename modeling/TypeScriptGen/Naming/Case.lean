import TypeScriptGen.Text.Blank
import TypeScriptGen.Text.LetterCase

/-!
# Case styles of names

Every style goes through snake case: runs of hyphens and blanks become one
underscore, a run of capitals is parted from the word that follows it, a small
letter or digit is parted from a capital, and the letters become small.
-/

namespace TypeScriptGen.Naming

inductive Style
  | snake
  | camel
  | pascal
deriving DecidableEq

def isSeparator (c : Char) : Bool := c == '-' || Text.isBlank c

/-- Writes one underscore for each run of separators; `inside` says that a run has begun. -/
def joinSeparators (inside : Bool) : Text → Text
  | [] => []
  | c :: rest =>
      if isSeparator c then
        if inside then joinSeparators true rest else '_' :: joinSeparators true rest
      else c :: joinSeparators false rest

def startsSmall : Text → Bool
  | c :: _ => c.isLower
  | [] => false

/-- Puts an underscore before the last capital of a run that a small letter follows. -/
def breakAcronyms (afterCapital : Bool) : Text → Text
  | [] => []
  | c :: rest =>
      if c.isUpper && afterCapital && startsSmall rest then
        '_' :: c :: breakAcronyms true rest
      else c :: breakAcronyms c.isUpper rest

/-- Puts an underscore between a small letter or digit and a capital. -/
def breakWords (afterSmall : Bool) : Text → Text
  | [] => []
  | c :: rest =>
      let small := c.isLower || c.isDigit
      if c.isUpper && afterSmall then '_' :: c :: breakWords small rest
      else c :: breakWords small rest

/-- Writes one underscore for each run of underscores. -/
def joinUnderscores (inside : Bool) : Text → Text
  | [] => []
  | c :: rest =>
      if c = '_' then
        if inside then joinUnderscores true rest else '_' :: joinUnderscores true rest
      else c :: joinUnderscores false rest

/-- Drops the characters that satisfy a test from both ends. -/
def stripWhere (drop : Char → Bool) (text : Text) : Text :=
  ((text.dropWhile drop).reverse.dropWhile drop).reverse

def toSnake (text : Text) : Text :=
  let parted := breakWords false (breakAcronyms false (joinSeparators false text))
  stripWhere (fun c => c == '_') (joinUnderscores false (Text.lower parted))

/-- The words of a name in snake case. -/
def snakeParts (text : Text) : List Text := Text.splitOn '_' (toSnake text)

def toCamel (text : Text) : Text :=
  match snakeParts text with
  | [] => []
  | first :: rest => first ++ rest.flatMap Text.capitalize

def toPascal (text : Text) : Text := (snakeParts text).flatMap Text.capitalize

def convert : Style → Text → Text
  | .snake => toSnake
  | .camel => toCamel
  | .pascal => toPascal

end TypeScriptGen.Naming
