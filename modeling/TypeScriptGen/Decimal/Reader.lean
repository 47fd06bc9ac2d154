import TypeScriptGen.Decimal.Double
import TypeScriptGen.Text.Blank

/-!
# Reading written numbers

Numbers as people write them: blanks around a number do not count, its digits
may come from any script, and an underscore may stand between two digits.
-/

namespace TypeScriptGen.Decimal

/-- The codes of the zeros of all scripts. The other nine digits follow each zero. -/
def zeroCodes : List Nat :=
  [0x30, 0x660, 0x6f0, 0x7c0, 0x966, 0x9e6, 0xa66, 0xae6, 0xb66, 0xbe6, 0xc66, 0xce6, 0xd66, 0xde6,
    0xe50, 0xed0, 0xf20, 0x1040, 0x1090, 0x17e0, 0x1810, 0x1946, 0x19d0, 0x1a80, 0x1a90, 0x1b50,
    0x1bb0, 0x1c40, 0x1c50, 0xa620, 0xa8d0, 0xa900, 0xa9d0, 0xa9f0, 0xaa50, 0xabf0, 0xff10, 0x104a0,
    0x10d30, 0x11066, 0x110f0, 0x11136, 0x111d0, 0x112f0, 0x11450, 0x114d0, 0x11650, 0x116c0,
    0x11730, 0x118e0, 0x11950, 0x11c50, 0x11d50, 0x11da0, 0x16a60, 0x16ac0, 0x16b50, 0x1d7ce,
    0x1d7d8, 0x1d7e2, 0x1d7ec, 0x1d7f6, 0x1e140, 0x1e2f0, 0x1e950, 0x1fbf0]

/-- A digit of any script as the ASCII digit of the same value. -/
def plainDigit (c : Char) : Char :=
  match zeroCodes.find? fun start => start ≤ c.toNat && c.toNat < start + 10 with
  | some start => Char.ofNat (48 + (c.toNat - start))
  | none => c

/-- The blanks that may stand around a number: all but the separators `1c` to `1f`. -/
def isMargin (c : Char) : Bool := Text.isBlank c && !(28 ≤ c.toNat && c.toNat < 32)

def dropMargins (text : Text) : Text :=
  ((text.dropWhile isMargin).reverse.dropWhile isMargin).reverse

/-- Leaves out the underscores between two digits; an underscore elsewhere is refused. -/
def joinDigits : Text → Option Text
  | [] => some []
  | '_' :: _ => none
  | first :: '_' :: second :: rest =>
      if first.isDigit && second.isDigit then
        (joinDigits (second :: rest)).map fun joined => first :: joined
      else none
  | c :: rest => (joinDigits rest).map fun joined => c :: joined

def plainNumber (text : Text) : Option Text := joinDigits ((dropMargins text).map plainDigit)

def readDouble (text : Text) : Option Double := (plainNumber text).bind Double.ofText?

/-- Reads a whole number of at most as many digits as can be written. -/
def readWhole (text : Text) : Option Int := do
  let plain ← plainNumber text
  let (negative, digits) := Double.readSign plain
  if digits.isEmpty || !digits.all Char.isDigit || digitLimit < digits.length then none
  else
    let size : Int := ofDigits digits
    pure (if negative then -size else size)

end TypeScriptGen.Decimal
