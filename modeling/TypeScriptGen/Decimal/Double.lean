import TypeScriptGen.Decimal.Whole

/-!
# Binary numbers of 64 bits

A number is known by its bits: a sign, eleven bits of exponent and 52 of
fraction. A finite number is a fraction of two naturals, so that comparison and
rounding are exact. `ofFraction` gives the nearest number, the one with an even
last bit when two are equally near.
-/

namespace TypeScriptGen.Decimal

def twoTo (places : Nat) : Nat := Nat.pow 2 places

structure Double where
  bits : UInt64
deriving DecidableEq

namespace Double

def isNegative (number : Double) : Bool := twoTo 63 ≤ number.bits.toNat

def exponentField (number : Double) : Nat := number.bits.toNat / twoTo 52 % twoTo 11

def fractionField (number : Double) : Nat := number.bits.toNat % twoTo 52

def isFinite (number : Double) : Bool := number.exponentField < 2047

def isNaN (number : Double) : Bool := !number.isFinite && number.fractionField != 0

/-- The fraction field with the bit that a normal number leaves out. -/
def mantissa (number : Double) : Nat :=
  if number.exponentField = 0 then number.fractionField else twoTo 52 + number.fractionField

/-- The weight of the last bit of the mantissa, as a power of two. -/
def scale (number : Double) : Int := (max number.exponentField 1 : Nat) - 1075

def isZero (number : Double) : Bool := number.isFinite && number.mantissa == 0

/-- The absolute value of a finite number, as a numerator and a denominator. -/
def fraction (number : Double) : Nat × Nat :=
  (number.mantissa * twoTo number.scale.toNat, twoTo (-number.scale).toNat)

def ofMagnitude (negative : Bool) (magnitude : Nat) : Double :=
  ⟨UInt64.ofNat ((if negative then twoTo 63 else 0) + magnitude)⟩

def infinity (negative : Bool) : Double := ofMagnitude negative (2047 * twoTo 52)

def nan : Double := ofMagnitude false (2047 * twoTo 52 + twoTo 51)

/-- The whole number nearest to a fraction, an even one when two are equally near. -/
def roundHalfEven (numerator denominator : Nat) : Nat :=
  let quotient := numerator / denominator
  let twice := 2 * (numerator % denominator)
  if twice < denominator then quotient
  else if denominator < twice then quotient + 1
  else quotient + quotient % 2

/-- The largest power of two that a positive fraction reaches. -/
def binaryExponent (numerator denominator : Nat) : Int :=
  let guess : Int := (numerator.log2 : Int) - denominator.log2
  if denominator * twoTo guess.toNat ≤ numerator * twoTo (-guess).toNat then guess else guess - 1

def ofFraction (negative : Bool) (numerator denominator : Nat) : Double :=
  if numerator = 0 then ofMagnitude negative 0
  else
    let place := max (binaryExponent numerator denominator - 52) (-1074)
    let rounded :=
      roundHalfEven (numerator * twoTo (-place).toNat) (denominator * twoTo place.toNat)
    ofMagnitude negative (min ((place + 1074).toNat * twoTo 52 + rounded) (2047 * twoTo 52))

/-- The number nearest to `digits` times ten to the power `exponent`. -/
def ofDecimal (negative : Bool) (digits : Nat) (exponent : Int) : Double :=
  let reach : Int := (Decimal.digits digits).length + exponent
  if digits = 0 || reach < -330 then ofMagnitude negative 0
  else if 310 < reach then infinity negative
  else ofFraction negative (digits * tenTo exponent.toNat) (tenTo (-exponent).toNat)

def readSign : Text → Bool × Text
  | '-' :: rest => (true, rest)
  | '+' :: rest => (false, rest)
  | text => (false, text)

def readExponent : Text → Option Int
  | [] => some 0
  | mark :: rest =>
      let (negative, power) := readSign rest
      if (mark = 'e' || mark = 'E') && !power.isEmpty && power.all Char.isDigit then
        some (if negative then -(ofDigits power : Int) else ofDigits power)
      else none

/-- Reads digits with an optional point and an optional exponent, without a sign. -/
def readUnsigned (negative : Bool) (text : Text) : Option Double :=
  let whole := text.takeWhile Char.isDigit
  let rest := text.dropWhile Char.isDigit
  let (part, tail) :=
    match rest with
    | '.' :: more => (more.takeWhile Char.isDigit, more.dropWhile Char.isDigit)
    | _ => ([], rest)
  if whole.isEmpty && part.isEmpty then none
  else
    (readExponent tail).map fun exponent =>
      ofDecimal negative (ofDigits (whole ++ part)) (exponent - part.length)

def ofText? (text : Text) : Option Double :=
  let (negative, rest) := readSign text
  let name := rest.map Char.toLower
  if name = "inf".toList || name = "infinity".toList then some (infinity negative)
  else if name = "nan".toList then some nan
  else readUnsigned negative rest

end Double

end TypeScriptGen.Decimal
