import TypeScriptGen.Calendar.Moment

/-!
# Reading moments

The written form is `YYYY-MM-DD`, then optionally `T` or a space and
`HH:MM[:SS[.f]]`, then optionally `Z` or an offset `+HH:MM[:SS[.f]]` or
`-HH:MM[:SS[.f]]`. Digits of a fraction after the sixth are dropped. A text of
another form and a text with a field out of range are refused. This is the reader
of a plain clock.
-/

namespace TypeScriptGen.Calendar

/-- Reads exactly `count` digits. -/
def readDigits (count : Nat) (text : Text) : Option (Nat × Text) :=
  let head := text.take count
  if head.length = count && head.all Char.isDigit then
    some (Decimal.ofDigits head, text.drop count)
  else none

def readMark (mark : Char) : Text → Option Text
  | [] => none
  | c :: rest => if c = mark then some rest else none

def readDay (text : Text) : Option (Day × Text) := do
  let (year, text) ← readDigits 4 text
  let text ← readMark '-' text
  let (month, text) ← readDigits 2 text
  let text ← readMark '-' text
  let (day, text) ← readDigits 2 text
  pure (⟨year, month, day⟩, text)

/-- The microseconds that the digits of a fraction of a second stand for. -/
def fractionMicros (fraction : Text) : Nat :=
  let kept := fraction.take 6
  Decimal.ofDigits (kept ++ List.replicate (6 - kept.length) '0')

/-- Reads the seconds behind a colon and their fraction, if they are there. -/
def readSeconds (text : Text) : Option (Nat × Nat × Text) :=
  match readMark ':' text with
  | none => some (0, 0, text)
  | some rest => do
      let (second, rest) ← readDigits 2 rest
      match readMark '.' rest with
      | none => pure (second, 0, rest)
      | some rest =>
          let fraction := rest.takeWhile Char.isDigit
          if fraction.isEmpty then none
          else pure (second, fractionMicros fraction, rest.dropWhile Char.isDigit)

/-- Reads hours, minutes and optional seconds: the fields of a time of day. -/
def readTime (text : Text) : Option (Nat × Nat × Nat × Nat × Text) := do
  let (hour, text) ← readDigits 2 text
  let text ← readMark ':' text
  let (minute, text) ← readDigits 2 text
  let (second, micro, text) ← readSeconds text
  pure (hour, minute, second, micro, text)

/-- Reads the offset that ends a moment. -/
def readOffset : Text → Option (Option Int)
  | [] => some none
  | ['Z'] => some (some 0)
  | sign :: text => do
      if sign ≠ '+' && sign ≠ '-' then none
      let (hour, minute, second, micro, rest) ← readTime text
      if !rest.isEmpty || 60 ≤ minute || 60 ≤ second then none
      let size := ((hour * 3600 + minute * 60 + second) * Moment.microsPerSecond + micro : Nat)
      pure (some (if sign = '-' then -(size : Int) else size))

def Moment.ofText? (text : Text) : Option Moment := do
  let (date, rest) ← readDay text
  let (hour, minute, second, micro, rest) ←
    match rest with
    | 'T' :: time => readTime time
    | ' ' :: time => readTime time
    | _ => some (0, 0, 0, 0, rest)
  let offset ← readOffset rest
  let moment := ⟨date, hour, minute, second, micro, offset⟩
  if moment.isValid then some moment else none

end TypeScriptGen.Calendar
