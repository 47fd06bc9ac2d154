import TypeScriptGen.Text.Basic

/-!
# Literals inside code

A literal starts with one of three quotes and ends at the next occurrence of
the same quote that no backslash escapes; a quote that nothing closes is code.
`tokens` cuts a text into its literals and the single characters of code
between them, and `codeSegments` and `literals` are the two views of that.
-/

namespace TypeScriptGen.Syntax

structure Literal where
  quote : Char
  content : Text
deriving DecidableEq

def Literal.text (literal : Literal) : Text :=
  literal.quote :: literal.content ++ [literal.quote]

def isQuote (c : Char) : Bool := c == '"' || c == '\x27' || c == '\x60'

/-- The text up to the closing quote, where a backslash takes the character behind it along. -/
def contentBefore (quote : Char) : Text → Option Text
  | [] => none
  | '\\' :: [] => none
  | '\\' :: c :: rest => (contentBefore quote rest).map fun content => '\\' :: c :: content
  | c :: rest =>
      if c = quote then some [] else (contentBefore quote rest).map fun content => c :: content

/-- The literal at the start of a text. -/
def literalAt : Text → Option Literal
  | [] => none
  | c :: rest => if isQuote c then (contentBefore c rest).map (Literal.mk c) else none

inductive Token
  | code (c : Char)
  | literal (literal : Literal)
deriving DecidableEq

def Token.text : Token → Text
  | .code c => [c]
  | .literal found => found.text

/-- The tokens behind the next `skip` characters, which belong to a literal. -/
def tokensFrom : Nat → Text → List Token
  | _, [] => []
  | skip + 1, _ :: rest => tokensFrom skip rest
  | 0, c :: rest =>
      match literalAt (c :: rest) with
      | some found => .literal found :: tokensFrom (found.content.length + 1) rest
      | none => .code c :: tokensFrom 0 rest

def tokens (text : Text) : List Token := tokensFrom 0 text

def codeOf : List Token → List Text
  | [] => [[]]
  | .literal _ :: rest => [] :: codeOf rest
  | .code c :: rest =>
      match codeOf rest with
      | [] => [[c]]
      | segment :: segments => (c :: segment) :: segments

def literalsOf : List Token → List Literal
  | [] => []
  | .literal found :: rest => found :: literalsOf rest
  | .code _ :: rest => literalsOf rest

/-- The stretches of code between the literals; there is one more than there are literals. -/
def codeSegments (text : Text) : List Text := codeOf (tokens text)

def literals (text : Text) : List Literal := literalsOf (tokens text)

/-- The closing quote follows the content. -/
theorem contentBefore_append (quote : Char) (text content : Text)
    (found : contentBefore quote text = some content) :
    ∃ rest, text = content ++ quote :: rest := by
  fun_induction contentBefore quote text generalizing content with
  | case1 => cases found
  | case2 => cases found
  | case3 c rest ih =>
      obtain ⟨inner, same, rfl⟩ := Option.map_eq_some_iff.1 found
      obtain ⟨after, rfl⟩ := ih inner same
      exact ⟨after, rfl⟩
  | case4 rest => exact ⟨rest, by cases found; rfl⟩
  | case5 c rest _ _ _ ih =>
      obtain ⟨inner, same, rfl⟩ := Option.map_eq_some_iff.1 found
      obtain ⟨after, rfl⟩ := ih inner same
      exact ⟨after, rfl⟩

theorem literalAt_append (text : Text) (literal : Literal)
    (found : literalAt text = some literal) : ∃ rest, text = literal.text ++ rest := by
  cases text with
  | nil => cases found
  | cons c rest =>
      simp only [literalAt] at found
      split at found
      · obtain ⟨content, same, rfl⟩ := Option.map_eq_some_iff.1 found
        obtain ⟨after, rfl⟩ := contentBefore_append c rest content same
        exact ⟨after, by simp [Literal.text]⟩
      · cases found

theorem tokensFrom_text (skip : Nat) (text : Text) :
    (tokensFrom skip text).flatMap Token.text = text.drop skip := by
  induction text generalizing skip with
  | nil => simp [tokensFrom]
  | cons c rest ih =>
      cases skip with
      | succ skip => simp [tokensFrom, ih]
      | zero =>
          simp only [tokensFrom]
          split
          · next literal found =>
              obtain ⟨after, same⟩ := literalAt_append _ literal found
              simp only [Literal.text, List.cons_append, List.append_assoc, List.cons.injEq,
                List.nil_append] at same
              have behind : rest.drop (literal.content.length + 1) = after := by
                simp [same.2, List.drop_append]
              rw [List.flatMap_cons, ih, behind]
              simp [Token.text, Literal.text, same.1, same.2]
          · simp [ih, Token.text]

/-- Nothing is lost between the tokens. -/
theorem tokens_text (text : Text) : (tokens text).flatMap Token.text = text :=
  tokensFrom_text 0 text

end TypeScriptGen.Syntax
