import TypeScriptGen.Value.Basic

/-!
# Reading JSON

Values are read from JSON text. A number without point and exponent is a whole
number; `NaN` and the infinities are read as numbers, too. Of equal keys the
last value counts. Text must not hold control characters, and is ragged if a
surrogate in it has no partner. A whole number of too many digits is refused with
a fault of its own.
-/

namespace TypeScriptGen.Json

open Text (Point)

inductive Fault
  | malformed
  | oversize
deriving DecidableEq

def isGap (c : Char) : Bool := c == ' ' || c == '\t' || c == '\n' || c == '\r'

def skipGap (text : Text) : Text := text.dropWhile isGap

/-! ## Texts -/

def hexValue (c : Char) : Option Nat :=
  if c.isDigit then some (c.toNat - 48)
  else if 'a' ≤ c && c ≤ 'f' then some (c.toNat - 87)
  else if 'A' ≤ c && c ≤ 'F' then some (c.toNat - 55)
  else none

def hexNumber (marks : List Char) : Option Nat :=
  marks.foldlM (fun number c => (hexValue c).map fun digit => 16 * number + digit) 0

/-- The character that a letter behind a backslash stands for. -/
def escaped (c : Char) : Option Char :=
  if c = '"' || c = '\\' || c = '/' then some c
  else if c = 'b' then some '\x08'
  else if c = 'f' then some '\x0c'
  else if c = 'n' then some '\n'
  else if c = 'r' then some '\r'
  else if c = 't' then some '\t'
  else none

/-- Reads the codes up to the closing quote. -/
def readCodes : Text → Option (List Nat × Text)
  | [] => none
  | '"' :: rest => some ([], rest)
  | '\\' :: 'u' :: a :: b :: c :: d :: rest => do
      let code ← hexNumber [a, b, c, d]
      let (codes, after) ← readCodes rest
      pure (code :: codes, after)
  | '\\' :: c :: rest => do
      let found ← escaped c
      let (codes, after) ← readCodes rest
      pure (found.toNat :: codes, after)
  | c :: rest =>
      if c.toNat < 32 || c = '\\' then none
      else do
        let (codes, after) ← readCodes rest
        pure (c.toNat :: codes, after)

def isHighSurrogate (code : Nat) : Bool := 0xd800 ≤ code && code < 0xdc00

def isLowSurrogate (code : Nat) : Bool := 0xdc00 ≤ code && code < 0xe000

/-- The points of a list of codes, in which two surrogates make one character. -/
def joinSurrogates : List Nat → List Point
  | [] => []
  | [code] => [Point.ofCode code]
  | high :: low :: rest =>
      if isHighSurrogate high && isLowSurrogate low then
        .char (Char.ofNat (0x10000 + (high - 0xd800) * 0x400 + (low - 0xdc00))) ::
          joinSurrogates rest
      else Point.ofCode high :: joinSurrogates (low :: rest)

/-- Reads the text behind an opening quote. -/
def readText (text : Text) : Option (Value × Text) :=
  (readCodes text).map fun (codes, rest) => (Value.ofPoints (joinSurrogates codes), rest)

/-! ## Numbers -/

/-- The digits of a whole number: a zero alone, or digits of which the first is not zero. -/
def readWhole : Text → Option (Text × Text)
  | [] => none
  | c :: rest =>
      if c = '0' then some (['0'], rest)
      else if c.isDigit then
        some (c :: rest.takeWhile Char.isDigit, rest.dropWhile Char.isDigit)
      else none

/-- The digits behind a point, if there are any. -/
def readFraction (text : Text) : Text × Text :=
  match text with
  | '.' :: rest =>
      let digits := rest.takeWhile Char.isDigit
      if digits.isEmpty then ([], text) else (digits, rest.dropWhile Char.isDigit)
  | _ => ([], text)

/-- The exponent, if there is one. -/
def readPower (text : Text) : Option Int × Text :=
  match text with
  | mark :: rest =>
      let (negative, power) := Decimal.Double.readSign rest
      let digits := power.takeWhile Char.isDigit
      if (mark = 'e' || mark = 'E') && !digits.isEmpty then
        let size : Int := Decimal.ofDigits digits
        (some (if negative then -size else size), power.dropWhile Char.isDigit)
      else (none, text)
  | [] => (none, text)

/-- Reads a number behind its sign. -/
def readUnsigned (negative : Bool) (text : Text) : Except Fault (Value × Text) :=
  match readWhole text with
  | none => .error .malformed
  | some (whole, rest) =>
      let (fraction, rest) := readFraction rest
      let (power, rest) := readPower rest
      if fraction.isEmpty && power.isNone then
        if Decimal.digitLimit < whole.length then .error .oversize
        else
          let size : Int := Decimal.ofDigits whole
          .ok (.int (if negative then -size else size), rest)
      else
        let exponent := power.getD 0 - fraction.length
        let digits := Decimal.ofDigits (whole ++ fraction)
        .ok (.float (Decimal.Double.ofDecimal negative digits exponent), rest)

/-- The words that stand for values, with what they stand for. -/
def words : List (Text × Value) :=
  [("null".toList, .null), ("true".toList, .bool true), ("false".toList, .bool false),
    ("NaN".toList, .float .nan), ("Infinity".toList, .float (.infinity false)),
    ("-Infinity".toList, .float (.infinity true))]

def readWord (text : Text) : Option (Value × Text) :=
  words.findSome? fun (word, value) =>
    if word.isPrefixOf text then some (value, text.drop word.length) else none

/-- Reads a value that is no text, list or table. -/
def readScalar (text : Text) : Except Fault (Value × Text) :=
  match readWord text with
  | some found => .ok found
  | none =>
      match text with
      | '-' :: rest => readUnsigned true rest
      | _ => readUnsigned false text

/-! ## Values -/

mutual

/-- Reads a value at the start of a text; `fuel` bounds the number of steps. -/
def readValue : Nat → Text → Except Fault (Value × Text)
  | 0, _ => .error .malformed
  | fuel + 1, text =>
      match text with
      | '"' :: rest =>
          match readText rest with
          | some found => .ok found
          | none => .error .malformed
      | '[' :: rest =>
          match skipGap rest with
          | ']' :: after => .ok (.list [], after)
          | start => do
              let (items, after) ← readItems fuel start
              pure (.list items, after)
      | '\x7b' :: rest =>
          match skipGap rest with
          | '\x7d' :: after => .ok (.table [], after)
          | start => do
              let (entries, after) ← readEntries fuel start
              pure (.table (Table.ofList entries), after)
      | _ => readScalar text

/-- Reads the items of a list up to the closing bracket. -/
def readItems : Nat → Text → Except Fault (List Value × Text)
  | 0, _ => .error .malformed
  | fuel + 1, text => do
      let (item, rest) ← readValue fuel text
      match skipGap rest with
      | ',' :: more => do
          let (items, after) ← readItems fuel (skipGap more)
          pure (item :: items, after)
      | ']' :: after => pure ([item], after)
      | _ => .error .malformed

/-- Reads the entries of a table up to the closing brace. -/
def readEntries : Nat → Text → Except Fault (List (Value × Value) × Text)
  | 0, _ => .error .malformed
  | fuel + 1, text =>
      match text with
      | '"' :: rest =>
          match readText rest with
          | none => .error .malformed
          | some (key, after) =>
              match skipGap after with
              | ':' :: start => do
                  let (value, rest) ← readValue fuel (skipGap start)
                  match skipGap rest with
                  | ',' :: more => do
                      let (entries, after) ← readEntries fuel (skipGap more)
                      pure ((key, value) :: entries, after)
                  | '\x7d' :: after => pure ([(key, value)], after)
                  | _ => .error .malformed
              | _ => .error .malformed
      | _ => .error .malformed

end

/-- Reads a whole text. Each step takes at least one character, so its length is fuel enough. -/
def read (text : Text) : Except Fault Value := do
  let (value, rest) ← readValue (text.length + 1) (skipGap text)
  if (skipGap rest).isEmpty then pure value else .error .malformed

end TypeScriptGen.Json
