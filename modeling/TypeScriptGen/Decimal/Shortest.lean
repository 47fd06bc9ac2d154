import TypeScriptGen.Decimal.Double

/-!
# Shortest decimal text of a binary number

The text has the fewest digits that read back as the same number, and of those
the digits nearest to it. A number reads back from every decimal between the
midpoints to its neighbours, the midpoints included when its mantissa is even.
Numbers from `0.0001` up to `10 ^ 16` are written with a point and at least one
digit behind it; the others with one digit in front and an exponent of at least
two digits.
-/

namespace TypeScriptGen.Decimal

/-- A numerator and a denominator after division by ten to the power `place`. -/
def scaleDown (place : Int) (numerator denominator : Nat) : Nat × Nat :=
  (numerator * tenTo (-place).toNat, denominator * tenTo place.toNat)

/-- The largest power of ten that a positive fraction reaches. -/
def decimalExponent (numerator denominator : Nat) : Int :=
  let guess : Int := ((digits numerator).length : Int) - (digits denominator).length
  let (top, bottom) := scaleDown guess numerator denominator
  if bottom ≤ top then guess else guess - 1

/-- The decimals that read back as a number lie between `low` and `high` over `denominator`. -/
structure Interval where
  low : Nat
  value : Nat
  high : Nat
  denominator : Nat
  closed : Bool

def Double.interval (number : Double) : Interval :=
  let mantissa := number.mantissa
  let place := number.scale - 2
  let unit := twoTo place.toNat
  let below := if mantissa = twoTo 52 && 1 < number.exponentField then 1 else 2
  { low := (4 * mantissa - below) * unit
    value := 4 * mantissa * unit
    high := (4 * mantissa + 2) * unit
    denominator := twoTo (-place).toNat
    closed := mantissa % 2 == 0 }

def Interval.reaches (interval : Interval) (smaller larger : Nat) : Bool :=
  if interval.closed then smaller ≤ larger else smaller < larger

/-- The multiple of ten to the power `place` inside the interval that is nearest to the value. -/
def Interval.pick (interval : Interval) (place : Int) : Option Nat :=
  let (value, unit) := scaleDown place interval.value interval.denominator
  let low := (scaleDown place interval.low interval.denominator).1
  let high := (scaleDown place interval.high interval.denominator).1
  let floor := value / unit
  let above := value % unit
  let floorFits := interval.reaches low (floor * unit)
  let ceilingFits := interval.reaches ((floor + 1) * unit) high
  if floorFits && ceilingFits then
    if 2 * above < unit then some floor
    else if unit < 2 * above then some (floor + 1)
    else some (floor + floor % 2)
  else if floorFits then some floor
  else if ceilingFits then some (floor + 1)
  else none

/-- Seventeen digits always suffice, so one of the seventeen grids has a hit. -/
def Double.shortest (number : Double) : Nat × Int :=
  let interval := number.interval
  let top := decimalExponent interval.value interval.denominator
  let places := (List.range 17).map fun more => top - Int.ofNat more
  let hit := places.findSome? fun place => (interval.pick place).map fun found => (found, place)
  hit.getD (0, 0)

def dropZeros (text : Text) : Text := (text.reverse.dropWhile (fun c => c == '0')).reverse

/-- Lays out the digits `text`, whose point stands behind the first `point` places. -/
def layout (text : Text) (point : Int) : Text :=
  if -3 ≤ point && point ≤ 16 then
    if point ≤ 0 then '0' :: '.' :: List.replicate (-point).toNat '0' ++ text
    else
      let places := point.toNat
      if text.length ≤ places then
        text ++ List.replicate (places - text.length) '0' ++ ['.', '0']
      else text.take places ++ '.' :: text.drop places
  else
    let exponent := point - 1
    let sign := if exponent < 0 then '-' else '+'
    let body := if text.length = 1 then text else text.take 1 ++ '.' :: text.drop 1
    body ++ 'e' :: sign :: padded 2 exponent.natAbs

def Double.text (number : Double) : Text :=
  if number.isNaN then "nan".toList
  else
    let magnitude :=
      if !number.isFinite then "inf".toList
      else if number.isZero then "0.0".toList
      else
        let (found, place) := number.shortest
        let text := digits found
        layout (dropZeros text) (text.length + place)
    if number.isNegative then '-' :: magnitude else magnitude

end TypeScriptGen.Decimal
