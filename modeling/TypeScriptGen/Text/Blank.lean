import TypeScriptGen.Text.Basic

/-!
# Blank characters

The white-space property used for trimming and for the gaps inside code: the
five control characters from the tab to the carriage return, the four
separators `1c` to `1f`, the space, the next-line control and the spaces of the
Unicode table.
-/

namespace TypeScriptGen.Text

def isBlank (c : Char) : Bool :=
  let code := c.toNat
  (9 ≤ code && code ≤ 13) || (28 ≤ code && code ≤ 32) || code == 0x85 || code == 0xa0 ||
    code == 0x1680 || (0x2000 ≤ code && code ≤ 0x200a) || code == 0x2028 || code == 0x2029 ||
    code == 0x202f || code == 0x205f || code == 0x3000

def isBlankLine (text : Text) : Bool := text.all isBlank

def trimStart (text : Text) : Text := text.dropWhile isBlank

def trimEnd (text : Text) : Text := (text.reverse.dropWhile isBlank).reverse

def trim (text : Text) : Text := trimEnd (trimStart text)

theorem trimStart_length_le (text : Text) : (trimStart text).length ≤ text.length :=
  (List.dropWhile_suffix isBlank).length_le

theorem trimEnd_length_le (text : Text) : (trimEnd text).length ≤ text.length := by
  have shorter := (List.dropWhile_suffix (l := text.reverse) isBlank).length_le
  simpa [trimEnd] using shorter

theorem trim_length_le (text : Text) : (trim text).length ≤ text.length :=
  Nat.le_trans (trimEnd_length_le _) (trimStart_length_le _)

end TypeScriptGen.Text
