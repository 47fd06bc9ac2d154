import TypeScriptGen.Text.Blank

/-!
# Lines

`lines` cuts a text at every line break of the Unicode table; a break at the
end opens no further line. `indentBy` moves a block of text to the right: it
knows the line feed only, and it leaves blank lines as they are.
-/

namespace TypeScriptGen.Text

def isLineBreak (c : Char) : Bool :=
  let code := c.toNat
  (10 ≤ code && code ≤ 13) || (28 ≤ code && code ≤ 30) || code == 0x85 || code == 0x2028 ||
    code == 0x2029

def lines : Text → List Text
  | [] => []
  | '\r' :: '\n' :: rest => [] :: lines rest
  | c :: rest =>
      if isLineBreak c then [] :: lines rest
      else
        match lines rest with
        | [] => [[c]]
        | line :: more => (c :: line) :: more

theorem lines_ne_nil (c : Char) (rest : Text) : lines (c :: rest) ≠ [] := by
  unfold lines
  split <;> rename_i same
  · cases same
  · simp
  · split
    · simp
    · split <;> simp

def spaces (count : Nat) : Text := List.replicate count ' '

def indentLine (margin : Nat) (line : Text) : Text :=
  if isBlankLine line then line else spaces margin ++ line

def indentBy (margin : Nat) (text : Text) : Text :=
  ['\n'].intercalate ((splitOn '\n' text).map (indentLine margin))

/-- Moves a text to the right by `level` times `size` places, if that is a positive number. -/
def indent (level size : Int) (text : Text) : Text := indentBy (level * size).toNat text

end TypeScriptGen.Text
