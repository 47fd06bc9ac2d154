import TypeScriptGen.Text.WordTable
import TypeScriptGen.Text.Basic

/-!
# Words and names

A word character is a letter or number of any script or the underscore. Names
of the generated language are spelled with ASCII letters, digits, the
underscore and the dollar sign; a plain name has no dollar sign. `words` cuts a
text into its maximal runs of word characters.
-/

namespace TypeScriptGen.Text

def isWord (c : Char) : Bool :=
  if c.toNat < 128 then c.isAlphanum || c == '_' else inRanges wordRanges c.toNat

/-- An ASCII letter or an underscore. -/
def isNameStart (c : Char) : Bool := c.isAlpha || c == '_'

/-- An ASCII letter or digit or an underscore. -/
def isNamePart (c : Char) : Bool := c.isAlphanum || c == '_'

def isIdentifierStart (c : Char) : Bool := isNameStart c || c == '$'

def isIdentifierPart (c : Char) : Bool := isNamePart c || c == '$'

/-- A character that continues a reference: a word character or a dollar sign. -/
def isReferencePart (c : Char) : Bool := isWord c || c == '$'

/-- What holds of each ASCII code holds of each ASCII character. -/
@[elab_as_elim]
theorem ascii_cases {motive : Char → Prop} (c : Char) (ascii : c.toNat < 128)
    (all : ∀ code : Fin 128, motive (Char.ofNat code)) : motive c := by
  have found := all ⟨c.toNat, ascii⟩
  rwa [Char.ofNat_toNat] at found

theorem code_lt_of_isUpper (c : Char) (upper : c.isUpper = true) : c.toNat < 128 := by
  have bounds : c.val ≥ 'A'.val ∧ c.val ≤ 'Z'.val := of_decide_eq_true upper
  exact Nat.lt_of_le_of_lt bounds.2 (by decide)

theorem code_lt_of_isLower (c : Char) (lower : c.isLower = true) : c.toNat < 128 := by
  have bounds : (decide (c.val ≥ 'a'.val) && decide (c.val ≤ 'z'.val)) = true := lower
  exact Nat.lt_of_le_of_lt (of_decide_eq_true ((Bool.and_eq_true _ _).mp bounds).2) (by decide)

theorem code_lt_of_isDigit (c : Char) (digit : c.isDigit = true) : c.toNat < 128 := by
  have bounds : (decide (c.val ≥ '0'.val) && decide (c.val ≤ '9'.val)) = true := digit
  exact Nat.lt_of_le_of_lt (of_decide_eq_true ((Bool.and_eq_true _ _).mp bounds).2) (by decide)

theorem code_lt_of_isAlphanum (c : Char) (alphanum : c.isAlphanum = true) : c.toNat < 128 := by
  have kinds : ((c.isUpper || c.isLower) || c.isDigit) = true := alphanum
  simp only [Bool.or_eq_true] at kinds
  rcases kinds with (upper | lower) | digit
  · exact code_lt_of_isUpper c upper
  · exact code_lt_of_isLower c lower
  · exact code_lt_of_isDigit c digit

theorem code_lt_of_isNamePart (c : Char) (part : isNamePart c = true) : c.toNat < 128 := by
  simp only [isNamePart, Bool.or_eq_true, beq_iff_eq] at part
  rcases part with alphanum | rfl
  · exact code_lt_of_isAlphanum c alphanum
  · decide

theorem isWord_of_isNamePart (c : Char) (part : isNamePart c = true) : isWord c = true := by
  rw [isWord, if_pos (code_lt_of_isNamePart c part)]
  exact part

theorem isNamePart_of_isNameStart (c : Char) (start : isNameStart c = true) :
    isNamePart c = true := by
  simp only [isNameStart, isNamePart, Bool.or_eq_true] at *
  rcases start with alpha | low
  · have either : (c.isAlpha || c.isDigit) = true := by simp [alpha]
    exact Or.inl either
  · exact Or.inr low

theorem isReferencePart_of_isIdentifierPart (c : Char) (part : isIdentifierPart c = true) :
    isReferencePart c = true := by
  simp only [isIdentifierPart, isReferencePart, Bool.or_eq_true] at *
  exact part.imp_left (isWord_of_isNamePart c)

/-- A name of the generated language. -/
def isIdentifier : Text → Bool
  | [] => false
  | c :: rest => isIdentifierStart c && rest.all isIdentifierPart

/-- An identifier without a dollar sign. -/
def isPlainName : Text → Bool
  | [] => false
  | c :: rest => isNameStart c && rest.all isNamePart

/-- A plain name that starts with a capital letter. -/
def isTypeName : Text → Bool
  | [] => false
  | c :: rest => c.isUpper && rest.all isNamePart

/-- The maximal runs of word characters. -/
def words (text : Text) : List Text :=
  (splitWhere (fun c => !isWord c) text).filter fun word => !word.isEmpty

/-- The plain name at the start of a text, if there is one. -/
def leadingName : Text → Option Text
  | [] => none
  | c :: rest => if isNameStart c then some (c :: rest.takeWhile isNamePart) else none

theorem leadingName_isPlainName {text name : Text} (found : leadingName text = some name) :
    isPlainName name = true := by
  cases text with
  | nil => simp [leadingName] at found
  | cons c rest =>
      simp only [leadingName] at found
      split at found
      · next start =>
          cases found
          simp [isPlainName, start, List.all_takeWhile]
      · cases found

end TypeScriptGen.Text
