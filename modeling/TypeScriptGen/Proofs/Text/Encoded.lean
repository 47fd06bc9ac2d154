import TypeScriptGen.Proofs.Text.Standing
import TypeScriptGen.Text.Quoted

/-!
# Encoded characters

A character is encoded as itself, or as a backslash and what names it: itself
again for quotes and backslashes, and word characters for control characters. So
encoding leaves names as they are and keeps the character in front of a name,
except that a control character there ends in a word character.
-/

namespace TypeScriptGen.Text

theorem isWord_hexDigit {value : Nat} (small : value < 16) : isWord (hexDigit value) = true := by
  have all : ∀ value : Fin 16, isWord (hexDigit value) = true := by decide
  exact all ⟨value, small⟩

theorem isWord_of_mem_hexDigits {c : Char} (width number : Nat)
    (member : c ∈ hexDigits width number) : isWord c = true := by
  induction width generalizing number with
  | zero => cases member
  | succ width ih =>
      rw [hexDigits] at member
      rcases List.mem_append.mp member with front | last
      · exact ih (number / 16) front
      · rw [List.mem_singleton.mp last]
        exact isWord_hexDigit (Nat.mod_lt _ (by omega))

/-- The three ways to encode a character. -/
inductive Encoding (c : Char) : Text → Prop
  | plain (visible : 32 ≤ c.toNat) (unquoted : c ≠ '"') (escape : c ≠ '\\') : Encoding c [c]
  | escaped (special : c = '"' ∨ c = '\\') : Encoding c ['\\', c]
  | control (small : c.toNat < 32) (letter : Char) (digits : Text)
      (words : ∀ d ∈ letter :: digits, isWord d = true) : Encoding c ('\\' :: letter :: digits)

theorem encoding_encodeChar (c : Char) : Encoding c (encodeChar c) := by
  have named (letter : Char) (word : isWord letter = true) (small : c.toNat < 32) :
      Encoding c ['\\', letter] := by
    refine .control small letter [] fun d member => ?_
    rw [List.mem_singleton.mp member]
    exact word
  unfold encodeChar
  split
  · next special =>
      exact .escaped (by simpa using special)
  next special =>
  simp only [Bool.or_eq_true, decide_eq_true_eq, not_or] at special
  split
  · next same => exact named 'n' (by decide) (by rw [same]; decide)
  split
  · next same => exact named 'r' (by decide) (by rw [same]; decide)
  split
  · next same => exact named 't' (by decide) (by rw [same]; decide)
  split
  · next same => exact named 'b' (by decide) (by rw [same]; decide)
  split
  · next same => exact named 'f' (by decide) (by rw [same]; decide)
  split
  · next small =>
      refine .control small 'u' _ fun d member => ?_
      rcases List.mem_cons.mp member with rfl | digit
      · decide
      · exact isWord_of_mem_hexDigits 4 c.toNat digit
  · next large => exact .plain (by omega) special.1 special.2

namespace Encoding

variable {c : Char} {code : Text}

theorem ne_nil (encoding : Encoding c code) : code ≠ [] := by
  rintro rfl
  cases encoding

/-- In front, an encoded character shows itself or a backslash. -/
theorem head? (encoding : Encoding c code) : code.head? = some c ∨ code.head? = some '\\' := by
  cases encoding with
  | plain => exact Or.inl rfl
  | escaped => exact Or.inr rfl
  | control => exact Or.inr rfl

theorem getLast?_visible (encoding : Encoding c code) (visible : 32 ≤ c.toNat) :
    code.getLast? = some c := by
  cases encoding with
  | plain => rfl
  | escaped => rfl
  | control small => omega

theorem getLast?_control (encoding : Encoding c code) (small : c.toNat < 32) :
    ∃ d, code.getLast? = some d ∧ isWord d = true := by
  cases encoding with
  | plain visible => omega
  | escaped special => rcases special with rfl | rfl <;> exact absurd small (by decide)
  | control _ letter digits words =>
      have last := List.getLast?_eq_some_getLast (List.cons_ne_nil letter digits)
      refine ⟨_, ?_, words _ (List.mem_of_getLast? last)⟩
      rw [List.getLast?_cons, last]
      rfl

theorem eq_of_isReferencePart (encoding : Encoding c code) (part : isReferencePart c = true) :
    code = [c] := by
  cases encoding with
  | plain => rfl
  | escaped special => rcases special with rfl | rfl <;> exact absurd part (by decide)
  | control small =>
      simp only [isReferencePart, isWord, Bool.or_eq_true, beq_iff_eq] at part
      rcases part with word | rfl
      · rw [if_pos (by omega)] at word
        have large := code_ge_of_isNamePart c word
        omega
      · exact absurd small (by decide)

/-- Control characters are written by visible ones. -/
theorem oneLine (encoding : Encoding c code) : '\n' ∉ code := by
  cases encoding with
  | plain visible =>
      intro inside
      rw [← List.mem_singleton.mp inside] at visible
      exact absurd visible (by decide)
  | escaped special => rcases special with rfl | rfl <;> decide
  | control _ letter digits words =>
      intro inside
      rcases List.mem_cons.mp inside with same | word
      · cases same
      · exact absurd (words '\n' word) (by decide)

end Encoding

/-! ## Encoded texts -/

theorem oneLine_encode (content : Text) : '\n' ∉ encode content := by
  have codes : '\n' ∉ content.flatMap encodeChar := by
    intro inside
    obtain ⟨c, _, code⟩ := List.mem_flatMap.mp inside
    exact (encoding_encodeChar c).oneLine code
  simp [encode, codes]

theorem getLast?_encoded (front : Text) (c : Char) :
    ((front ++ [c]).flatMap encodeChar).getLast? = (encodeChar c).getLast? := by
  have last := List.getLast?_eq_some_getLast (encoding_encodeChar c).ne_nil
  rw [List.flatMap_append, List.flatMap_singleton, List.getLast?_append, last]
  rfl

theorem head?_encoded (c : Char) (rest : Text) :
    ((c :: rest).flatMap encodeChar).head? = (encodeChar c).head? := by
  obtain ⟨d, more, same⟩ := List.exists_cons_of_ne_nil (encoding_encodeChar c).ne_nil
  rw [List.flatMap_cons, same]
  rfl

theorem encoded_of_solid {name : Text} (solid : Solid name) : name.flatMap encodeChar = name := by
  induction name with
  | nil => rfl
  | cons c name ih =>
      have rest := ih fun d member => solid d (List.mem_cons_of_mem c member)
      have first := (encoding_encodeChar c).eq_of_isReferencePart (solid c List.mem_cons_self)
      rw [List.flatMap_cons, rest, first]
      rfl

end TypeScriptGen.Text
