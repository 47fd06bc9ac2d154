import TypeScriptGen.Text.Quoted

/-!
# Code points

A text from outside may hold a surrogate without its partner, which is no
character. Such a text is ragged: it is a list of points, at least one of which
is a surrogate. It can be compared, walked through and displayed, but no file
can hold it. In a text of characters the replacement character stands for a
surrogate.
-/

namespace TypeScriptGen.Text

def firstSurrogate : Nat := 0xd800

inductive Point
  | char (c : Char)
  /-- The number counts from the first surrogate. -/
  | surrogate (place : Fin 0x800)
deriving DecidableEq

namespace Point

def isSurrogate : Point → Bool
  | .char _ => false
  | .surrogate _ => true

def code : Point → Nat
  | .char c => c.toNat
  | .surrogate place => firstSurrogate + place

def ofCode (code : Nat) : Point :=
  if firstSurrogate ≤ code && code < firstSurrogate + 0x800 then
    .surrogate (Fin.ofNat 0x800 (code - firstSurrogate))
  else .char (Char.ofNat code)

/-- The character that is shown for a point. -/
def shown : Point → Char
  | .char c => c
  | .surrogate _ => Char.ofNat 0xfffd

theorem map_shown_char (content : Text) : (content.map char).map shown = content := by
  rw [List.map_map]
  exact List.map_id content

/-- A surrogate has no printed form and is written by its number. -/
def display (quote : Char) : Point → Text
  | .char c => displayChar quote c
  | .surrogate place => '\\' :: 'u' :: hexDigits 4 (firstSurrogate + place)

end Point

structure Ragged where
  points : List Point
  torn : points.any Point.isSurrogate = true
deriving DecidableEq

namespace Ragged

def codes (content : Ragged) : List Nat := content.points.map Point.code

def shown (content : Ragged) : Text := content.points.map Point.shown

def display (content : Ragged) : Text :=
  let quote := displayQuote content.shown
  quote :: content.points.flatMap (Point.display quote) ++ [quote]

end Ragged

end TypeScriptGen.Text
