import TypeScriptGen.Json.Reader
import TypeScriptGen.Text.Quoted

/-!
# What a string literal denotes

Between the quotes of a TypeScript literal a character stands for itself, except for the quote, the
backslash and the two line breaks that no literal may hold. A backslash starts an escape: a letter
for a control character, a number in hexadecimal digits, or a character that stands for itself; two
numbers can make one character together. A backslash that joins two lines is left out here, since
such a literal is not in one line. Every literal is longer than what it denotes, and each quote and
backslash in it takes two characters.
-/

namespace TypeScriptGen.Text

variable {quote c : Char} {code content shown : Text}

/-- The text holds none of the characters that end a line of code. -/
def Unbroken (text : Text) : Prop := ∀ c ∈ text, c ≠ '\n' ∧ c ≠ '\r'

instance (text : Text) : Decidable (Unbroken text) :=
  List.decidableBAll (fun c => c ≠ '\n' ∧ c ≠ '\r') text

theorem unbroken_append {first second : Text} :
    Unbroken (first ++ second) ↔ Unbroken first ∧ Unbroken second :=
  List.forall_mem_append

/-! ## Escapes -/

/-- The letters behind a backslash, each with the control character that it stands for. -/
def escapeLetters : List (Char × Char) :=
  [('b', '\x08'), ('f', '\x0c'), ('n', '\n'), ('r', '\r'), ('t', '\t'), ('v', '\x0b')]

/-- A character that stands for itself behind a backslash. The line breaks are the two of
`Unbroken` and the two separators of Unicode. -/
def standsForItself (c : Char) : Bool :=
  !(escapeLetters.any fun letter => letter.1 == c) && c != 'x' && c != 'u' && !c.isDigit &&
    c != '\n' && c != '\r' && c.toNat != 0x2028 && c.toNat != 0x2029

/-- What stands behind a backslash and gives a number. -/
inductive Numbered : Text → Nat → Prop
  | byte {a b : Char} {number : Nat} (hex : Json.hexNumber [a, b] = some number) :
      Numbered ['x', a, b] number
  | unit {a b c d : Char} {number : Nat} (hex : Json.hexNumber [a, b, c, d] = some number) :
      Numbered ['u', a, b, c, d] number
  | point {digits : Text} {number : Nat} (digit : digits ≠ [])
      (hex : Json.hexNumber digits = some number) (limit : number ≤ 0x10ffff) :
      Numbered ('u' :: '\x7b' :: digits ++ ['\x7d']) number

/-- What stands behind a backslash, and the character that it stands for. -/
inductive Escape : Text → Char → Prop
  | letter {mark c : Char} (named : (mark, c) ∈ escapeLetters) : Escape [mark] c
  | itself {c : Char} (bare : standsForItself c = true) : Escape [c] c
  | zero : Escape ['0'] '\x00'
  | number {written : Text} {number : Nat} (numbered : Numbered written number)
      (single : (Json.isHighSurrogate number || Json.isLowSurrogate number) = false) :
      Escape written (Char.ofNat number)
  | pair {first second : Text} {high low : Nat} (one : Numbered first high)
      (other : Numbered second low)
      (both : (Json.isHighSurrogate high && Json.isLowSurrogate low) = true) :
      Escape (first ++ '\\' :: second)
        (Char.ofNat (0x10000 + (high - 0xd800) * 0x400 + (low - 0xdc00)))

/-- What stands between the quotes of a literal, and the text that it denotes. A zero behind a
backslash is followed by no other digit. -/
inductive Denotes (quote : Char) : Text → Text → Prop
  | done : Denotes quote [] []
  | plain {c : Char} {code content : Text} (unquoted : c ≠ quote) (solid : c ≠ '\\')
      (unbroken : c ≠ '\n' ∧ c ≠ '\r') (rest : Denotes quote code content) :
      Denotes quote (c :: code) (c :: content)
  | escape {c : Char} {written code content : Text} (escape : Escape written c)
      (alone : written = ['0'] → ∀ d ∈ code.head?, d.isDigit = false)
      (rest : Denotes quote code content) :
      Denotes quote ('\\' :: written ++ code) (c :: content)

/-- The text is a literal between two such quotes and denotes the content. -/
def IsLiteral (quote : Char) (shown content : Text) : Prop :=
  ∃ code, shown = quote :: code ++ [quote] ∧ Denotes quote code content

/-! ## Escapes are in one line -/

theorem unbroken_of_hexNumber {digits : Text} {number : Nat}
    (hex : Json.hexNumber digits = some number) : Unbroken digits := by
  unfold Json.hexNumber at hex
  generalize 0 = start at hex
  induction digits generalizing start with
  | nil => exact nofun
  | cons c digits ih =>
      rw [List.foldlM_cons] at hex
      obtain ⟨next, read, rest⟩ := Option.bind_eq_some_iff.mp hex
      obtain ⟨digit, value, _⟩ := Option.map_eq_some_iff.mp read
      refine List.forall_mem_cons.mpr ⟨?_, ih next rest⟩
      constructor
      · rintro rfl
        exact absurd value (by simp [Json.hexValue])
      · rintro rfl
        exact absurd value (by simp [Json.hexValue])

namespace Numbered

variable {written : Text} {number : Nat}

theorem unbroken (numbered : Numbered written number) : Unbroken written := by
  cases numbered with
  | byte hex => exact List.forall_mem_cons.mpr ⟨by decide, unbroken_of_hexNumber hex⟩
  | unit hex => exact List.forall_mem_cons.mpr ⟨by decide, unbroken_of_hexNumber hex⟩
  | point digit hex limit =>
      have opening : Unbroken ['u', '\x7b'] := by decide
      have closing : Unbroken ['\x7d'] := by decide
      exact unbroken_append.mpr
        ⟨unbroken_append.mpr ⟨opening, unbroken_of_hexNumber hex⟩, closing⟩

theorem ne_nil (numbered : Numbered written number) : written ≠ [] := by
  cases numbered <;> exact List.cons_ne_nil _ _

end Numbered

namespace Escape

variable {written : Text}

theorem unbroken (escape : Escape written c) : Unbroken written := by
  cases escape with
  | letter named =>
      have letters : ∀ letter ∈ escapeLetters, letter.1 ≠ '\n' ∧ letter.1 ≠ '\r' := by decide
      exact List.forall_mem_singleton.mpr (letters _ named)
  | itself bare =>
      refine List.forall_mem_singleton.mpr ⟨?_, ?_⟩
      · rintro rfl
        exact absurd bare (by decide)
      · rintro rfl
        exact absurd bare (by decide)
  | zero => decide
  | number numbered single => exact numbered.unbroken
  | pair one other both =>
      exact unbroken_append.mpr
        ⟨one.unbroken, List.forall_mem_cons.mpr ⟨by decide, other.unbroken⟩⟩

theorem ne_nil (escape : Escape written c) : written ≠ [] := by
  cases escape with
  | letter named => exact List.cons_ne_nil _ _
  | itself bare => exact List.cons_ne_nil _ _
  | zero => exact List.cons_ne_nil _ _
  | number numbered single => exact numbered.ne_nil
  | pair one other both => exact List.append_ne_nil_of_left_ne_nil one.ne_nil _

end Escape

/-! ## Literals are in one line and longer than what they denote -/

/-- The quote and the backslash do not stand for themselves. -/
def isMark (quote c : Char) : Bool := c == quote || c == '\\'

namespace Denotes

theorem unbroken (denotes : Denotes quote code content) : Unbroken code := by
  induction denotes with
  | done => exact nofun
  | plain unquoted solid unbroken rest ih => exact List.forall_mem_cons.mpr ⟨unbroken, ih⟩
  | escape escape alone rest ih =>
      have slash : '\\' ≠ '\n' ∧ '\\' ≠ '\r' := by decide
      exact unbroken_append.mpr ⟨List.forall_mem_cons.mpr ⟨slash, escape.unbroken⟩, ih⟩

/-- Of a quote or backslash that is denoted two characters stand in the code. -/
theorem length_le (denotes : Denotes quote code content) :
    content.length + content.countP (isMark quote) ≤ code.length := by
  induction denotes with
  | done => exact Nat.le_refl 0
  | @plain c code content unquoted solid unbroken rest ih =>
      have unmarked : isMark quote c = false := by simp [isMark, unquoted, solid]
      rw [List.length_cons, List.countP_cons, unmarked, List.length_cons, if_neg Bool.false_ne_true]
      omega
  | @escape c written code content escape alone rest ih =>
      have long : 0 < written.length := List.length_pos_iff.mpr escape.ne_nil
      have marks : (if isMark quote c = true then 1 else 0) ≤ 1 := by split <;> decide
      rw [List.length_cons, List.countP_cons, List.length_append, List.length_cons]
      omega

end Denotes

namespace IsLiteral

theorem length_le (literal : IsLiteral quote shown content) :
    content.length + content.countP (isMark quote) + 2 ≤ shown.length := by
  obtain ⟨code, rfl, denotes⟩ := literal
  have inner := denotes.length_le
  simp only [List.length_append, List.length_cons, List.length_nil]
  omega

/-- No text denotes itself. -/
theorem ne (literal : IsLiteral quote shown content) : shown ≠ content := by
  rintro rfl
  have longer := literal.length_le
  omega

theorem unbroken (literal : IsLiteral quote shown content) (line : quote ≠ '\n' ∧ quote ≠ '\r') :
    Unbroken shown := by
  obtain ⟨code, rfl, denotes⟩ := literal
  have opened : Unbroken (quote :: code) := List.forall_mem_cons.mpr ⟨line, denotes.unbroken⟩
  exact unbroken_append.mpr ⟨opened, List.forall_mem_singleton.mpr line⟩

end IsLiteral

/-! ## Texts between quotes -/

/-- A text between two quotes as it stands denotes itself if it holds no quote, no backslash and no
line break. -/
theorem isLiteral_of_plain (unquoted : quote ∉ content) (solid : '\\' ∉ content)
    (unbroken : Unbroken content) : IsLiteral quote (quote :: content ++ [quote]) content := by
  refine ⟨content, rfl, ?_⟩
  induction content with
  | nil => exact .done
  | cons c content ih =>
      obtain ⟨other, unquoted⟩ := not_or.mp (mt List.mem_cons.mpr unquoted)
      obtain ⟨bare, solid⟩ := not_or.mp (mt List.mem_cons.mpr solid)
      obtain ⟨first, unbroken⟩ := List.forall_mem_cons.mp unbroken
      exact .plain (Ne.symm other) (Ne.symm bare) first (ih unquoted solid unbroken)

theorem guardChar_eq (c : Char) : guardChar c = if isMark '"' c then ['\\', c] else [c] := by
  simp [guardChar, isMark]

theorem length_guarded (content : Text) :
    (content.flatMap guardChar).length = content.length + content.countP (isMark '"') := by
  induction content with
  | nil => rfl
  | cons c content ih =>
      rw [List.flatMap_cons, List.length_append, ih, guardChar_eq, List.countP_cons,
        List.length_cons]
      split
      · simp only [List.length_cons, List.length_nil]
        omega
      · simp only [List.length_cons, List.length_nil]
        omega

theorem mem_guard (c : Char) (content : Text) (inside : c ∈ content) : c ∈ guard content := by
  have written : c ∈ guardChar c := by
    rw [guardChar_eq]
    split
    · exact .tail _ (.head _)
    · exact .head _
  have among : c ∈ content.flatMap guardChar := List.mem_flatMap.mpr ⟨c, inside, written⟩
  exact List.mem_append_left _ (.tail _ among)

/-- With its quotes and backslashes escaped a text is a literal exactly if it holds no line
break. -/
theorem isLiteral_guard_iff : IsLiteral '"' (guard content) content ↔ Unbroken content := by
  constructor
  · intro literal c inside
    exact literal.unbroken (by decide) c (mem_guard c content inside)
  · intro unbroken
    refine ⟨content.flatMap guardChar, rfl, ?_⟩
    induction content with
    | nil => exact .done
    | cons c content ih =>
        obtain ⟨first, rest⟩ := List.forall_mem_cons.mp unbroken
        rw [List.flatMap_cons, guardChar_eq]
        split
        · next mark =>
            have bare : standsForItself c = true := by
              simp only [isMark, Bool.or_eq_true, beq_iff_eq] at mark
              rcases mark with rfl | rfl <;> decide
            have digit : [c] ≠ ['0'] := by
              rintro same
              cases same
              exact absurd mark (by decide)
            exact .escape (.itself bare) (fun same => absurd same digit) (ih rest)
        · next unmarked =>
            simp only [isMark, Bool.or_eq_true, beq_iff_eq, not_or] at unmarked
            exact .plain unmarked.1 unmarked.2 first (ih rest)

end TypeScriptGen.Text
