/-!
# Text

Text is a list of characters, so that every law about text is a law about
lists. This module holds the operations that need no character class:
splitting at separators, replacing single characters, and the search of a
character code in a table of ranges.
-/

namespace TypeScriptGen

abbrev Text := List Char

namespace Text

/-- The pieces between the characters that satisfy `stop`; there is at least one. -/
def splitWhere (stop : Char → Bool) : Text → List Text
  | [] => [[]]
  | c :: rest =>
      if stop c then [] :: splitWhere stop rest
      else
        match splitWhere stop rest with
        | [] => [[c]]
        | piece :: pieces => (c :: piece) :: pieces

theorem splitWhere_ne_nil (stop : Char → Bool) (text : Text) : splitWhere stop text ≠ [] := by
  cases text with
  | nil => simp [splitWhere]
  | cons c rest =>
      simp only [splitWhere]
      split
      · simp
      · split <;> simp

theorem splitWhere_flatten (stop : Char → Bool) (text : Text) :
    (splitWhere stop text).flatten = text.filter (fun c => !stop c) := by
  induction text with
  | nil => rfl
  | cons c rest ih =>
      simp only [splitWhere]
      split
      · simp_all
      · split
        · exact absurd (by assumption) (splitWhere_ne_nil stop rest)
        · simp_all

def splitOn (separator : Char) (text : Text) : List Text :=
  splitWhere (fun c => c == separator) text

def replace (old : Char) (new : Text) (text : Text) : Text :=
  text.flatMap fun c => if c = old then new else [c]

theorem replace_append (old : Char) (new first second : Text) :
    replace old new (first ++ second) = replace old new first ++ replace old new second := by
  simp [replace]

/-- Any of the characters of `marks` stands at the end of the text. -/
def endsWithAny (marks : List Char) (text : Text) : Bool :=
  match text.getLast? with
  | some c => marks.contains c
  | none => false

/-- Membership of a code in a table of closed ranges. -/
def inRanges (ranges : List (Nat × Nat)) (code : Nat) : Bool :=
  ranges.any fun range => range.1 ≤ code && code ≤ range.2

end Text

end TypeScriptGen
