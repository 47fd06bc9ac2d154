import TypeScriptGen.Proofs.Syntax.Segmentation
import TypeScriptGen.Proofs.Text.Encoded

/-!
# Texts that are cut the same wherever they stand

A text spells some literals when it is cut into them and code whatever follows.
An encoded text spells one literal, which holds its encoded characters, and texts
that spell literals can be put behind one another.
-/

namespace TypeScriptGen.Syntax

open Text (Encoding encodeChar encode encoding_encodeChar)

/-! ## Encoded texts are closed -/

theorem contentBefore_words {digits : Text} (words : ∀ d ∈ digits, Text.isWord d = true)
    (rest : Text) :
    contentBefore '"' (digits ++ rest) = (contentBefore '"' rest).map (digits ++ ·) := by
  induction digits with
  | nil => exact Option.map_id'.symm
  | cons d digits ih =>
      have word := words d List.mem_cons_self
      have escape : d ≠ '\\' := by
        rintro rfl
        exact absurd word (by decide)
      have quote : d ≠ '"' := by
        rintro rfl
        exact absurd word (by decide)
      rw [List.cons_append, contentBefore_cons escape, if_neg quote,
        ih fun other member => words other (List.mem_cons_of_mem d member), Option.map_map]
      rfl

theorem contentBefore_encoding {c : Char} {code : Text} (encoding : Encoding c code)
    (rest : Text) :
    contentBefore '"' (code ++ rest) = (contentBefore '"' rest).map (code ++ ·) := by
  cases encoding with
  | plain visible unquoted escape =>
      rw [List.singleton_append, contentBefore_cons escape, if_neg unquoted]
      rfl
  | escaped special => rfl
  | control small letter digits words =>
      have later := contentBefore_words
        (fun d member => words d (List.mem_cons_of_mem letter member)) rest
      rw [List.cons_append, List.cons_append, contentBefore, later, Option.map_map]
      rfl

/-- Only the quote behind an encoded text closes it. -/
theorem contentBefore_encoded (content rest : Text) :
    contentBefore '"' (content.flatMap encodeChar ++ '"' :: rest) =
      some (content.flatMap encodeChar) := by
  induction content with
  | nil => rfl
  | cons c content ih =>
      rw [List.flatMap_cons, List.append_assoc, contentBefore_encoding (encoding_encodeChar c), ih]
      rfl

/-- The literal that an encoded text is. -/
def encodedLiteral (content : Text) : Literal := ⟨'"', content.flatMap encodeChar⟩

theorem tokens_encode (content rest : Text) :
    tokens (encode content ++ rest) = .literal (encodedLiteral content) :: tokens rest := by
  refine @tokens_literal_append (encodedLiteral content) rest ?_
  have shape : (encodedLiteral content).text ++ rest =
      '"' :: (content.flatMap encodeChar ++ '"' :: rest) := by
    simp [encodedLiteral, Literal.text]
  have opens : isQuote '"' = true := rfl
  rw [shape, literalAt, if_pos opens, contentBefore_encoded]
  rfl

/-! ## Spelling -/

/-- Whatever follows, the text is cut into the given literals and code. -/
def Spells (text : Text) (found : List Literal) : Prop :=
  ∃ stream, literalsOf stream = found ∧ ∀ rest, tokens (text ++ rest) = stream ++ tokens rest

theorem literalsOf_append (front back : List Token) :
    literalsOf (front ++ back) = literalsOf front ++ literalsOf back := by
  induction front with
  | nil => rfl
  | cons token front ih =>
      cases token with
      | code c => exact ih
      | literal literal => exact congrArg (literal :: ·) ih

theorem literalsOf_code (code : Text) : literalsOf (code.map Token.code) = [] := by
  induction code with
  | nil => rfl
  | cons c code ih => exact ih

theorem spells_of_plain {text : Text} (plain : ∀ c ∈ text, isQuote c = false) : Spells text [] :=
  ⟨text.map Token.code, literalsOf_code text, tokens_of_plain plain⟩

theorem spells_nil : Spells [] [] := spells_of_plain nofun

theorem spells_encode (content : Text) : Spells (encode content) [encodedLiteral content] :=
  ⟨[.literal (encodedLiteral content)], rfl, tokens_encode content⟩

variable {first second : Text} {firsts seconds : List Literal}

theorem Spells.append (left : Spells first firsts) (right : Spells second seconds) :
    Spells (first ++ second) (firsts ++ seconds) := by
  obtain ⟨front, found, cut⟩ := left
  obtain ⟨back, others, next⟩ := right
  refine ⟨front ++ back, by rw [literalsOf_append, found, others], fun rest => ?_⟩
  rw [List.append_assoc, cut, next, List.append_assoc]

theorem Spells.behind (plain : ∀ c ∈ first, isQuote c = false) (spelled : Spells second seconds) :
    Spells (first ++ second) seconds :=
  (spells_of_plain plain).append spelled

theorem Spells.before (spelled : Spells first firsts) (plain : ∀ c ∈ second, isQuote c = false) :
    Spells (first ++ second) firsts := by
  have both := spelled.append (spells_of_plain plain)
  rwa [List.append_nil] at both

/-- A separator without quotes adds nothing between texts that spell literals. -/
theorem spells_intercalate {α : Type} (separator : Text)
    (plain : ∀ c ∈ separator, isQuote c = false) {items : List α} {write : α → Text}
    {held : α → List Literal} (spelled : ∀ item ∈ items, Spells (write item) (held item)) :
    Spells (separator.intercalate (items.map write)) (items.flatMap held) := by
  induction items with
  | nil => exact spells_nil
  | cons item items ih =>
      have here := spelled item List.mem_cons_self
      have later := ih fun other member => spelled other (List.mem_cons_of_mem item member)
      cases items with
      | nil =>
          rw [List.map_singleton, List.intercalate_singleton, List.flatMap_singleton]
          exact here
      | cons second items =>
          rw [List.map_cons, List.map_cons, List.intercalate_cons_cons, List.flatMap_cons]
          exact (here.before plain).append later

theorem tokens_nil : tokens [] = [] := rfl

theorem Spells.literals_eq {text : Text} {found : List Literal} (spelled : Spells text found) :
    literals text = found := by
  obtain ⟨stream, held, cut⟩ := spelled
  have whole : tokens text = stream := by
    have bare := cut []
    rwa [List.append_nil, tokens_nil, List.append_nil] at bare
  rw [literals, whole, held]

end TypeScriptGen.Syntax
