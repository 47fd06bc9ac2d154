import TypeScriptGen.Text.PrintableTable
import TypeScriptGen.Text.Basic

/-!
# Quoted text

Two written forms of a text. `display` is the form for readers: single quotes
unless the text holds a single quote and no double quote, with every character
that cannot be seen written by its number. `encode` is the double-quoted form
of the JSON rules, in which only quotes, backslashes and control characters are
escaped; `guard` escapes quotes and backslashes alone.
-/

namespace TypeScriptGen.Text

def hexDigit (value : Nat) : Char :=
  if value < 10 then Char.ofNat (48 + value) else Char.ofNat (87 + value)

/-- The last `width` hexadecimal digits of a number. -/
def hexDigits : Nat → Nat → Text
  | 0, _ => []
  | width + 1, number => hexDigits width (number / 16) ++ [hexDigit (number % 16)]

/-- Control characters and the characters of the table have no printed form. -/
def isPrintable (c : Char) : Bool :=
  if c.toNat < 128 then 32 ≤ c.toNat && c.toNat < 127
  else !inRanges unprintableRanges c.toNat

def displayChar (quote c : Char) : Text :=
  if c = quote || c = '\\' then ['\\', c]
  else if c = '\n' then ['\\', 'n']
  else if c = '\r' then ['\\', 'r']
  else if c = '\t' then ['\\', 't']
  else if isPrintable c then [c]
  else if c.toNat < 0x100 then '\\' :: 'x' :: hexDigits 2 c.toNat
  else if c.toNat < 0x10000 then '\\' :: 'u' :: hexDigits 4 c.toNat
  else '\\' :: 'U' :: hexDigits 8 c.toNat

def displayQuote (text : Text) : Char :=
  if text.contains '\x27' && !text.contains '"' then '"' else '\x27'

def display (text : Text) : Text :=
  let quote := displayQuote text
  quote :: text.flatMap (displayChar quote) ++ [quote]

def encodeChar (c : Char) : Text :=
  if c = '"' || c = '\\' then ['\\', c]
  else if c = '\n' then ['\\', 'n']
  else if c = '\r' then ['\\', 'r']
  else if c = '\t' then ['\\', 't']
  else if c = '\x08' then ['\\', 'b']
  else if c = '\x0c' then ['\\', 'f']
  else if c.toNat < 32 then '\\' :: 'u' :: hexDigits 4 c.toNat
  else [c]

def encode (text : Text) : Text := '"' :: text.flatMap encodeChar ++ ['"']

def guardChar (c : Char) : Text :=
  if c = '"' || c = '\\' then ['\\', c] else [c]

def guard (text : Text) : Text := '"' :: text.flatMap guardChar ++ ['"']

theorem guard_of_plain (text : Text) (plain : '"' ∉ text ∧ '\\' ∉ text) :
    guard text = '"' :: text ++ ['"'] := by
  suffices same : text.flatMap guardChar = text by simp [guard, same]
  induction text with
  | nil => rfl
  | cons c rest ih =>
      simp only [List.mem_cons, not_or] at plain
      have first : guardChar c = [c] := by
        simp [guardChar, Ne.symm plain.1.1, Ne.symm plain.2.1]
      simp [first, ih ⟨plain.1.2, plain.2.2⟩]

end TypeScriptGen.Text
