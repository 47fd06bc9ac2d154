import TypeScriptGen.Proofs.Syntax.Parsed

/-!
# No mentioned name is missed

A name that stands whole in a text, in code and not behind a dot or in a literal
and without a dollar sign, is used by every node that the text is parsed to, as
long as it is no reserved word. Trimming, the semicolon of a statement and the
brackets of an array are padding around the text, so they move no name.
-/

namespace TypeScriptGen.Syntax

open Text (Stands)

/-! ## Padding around what is parsed -/

theorem exists_trimEnd (text : Text) :
    ∃ blanks, text = Text.trimEnd text ++ blanks ∧ IsPadding blanks := by
  refine ⟨(text.reverse.takeWhile Text.isBlank).reverse, ?_,
    isPadding_of_isBlank fun c member => ?_⟩
  · have whole := List.takeWhile_append_dropWhile (p := Text.isBlank) (l := text.reverse)
    have back := congrArg List.reverse whole
    rw [List.reverse_append, List.reverse_reverse] at back
    exact back.symm
  · exact List.all_eq_true.mp List.all_takeWhile c (List.mem_reverse.mp member)

theorem exists_trimStart (text : Text) :
    ∃ blanks, text = blanks ++ Text.trimStart text ∧ IsPadding blanks := by
  obtain ⟨blanks, whole, white⟩ := exists_blanks text
  exact ⟨blanks, whole, isPadding_of_isBlank white⟩

namespace Mentioned

variable {text name : Text}

theorem dropBack {back : Text} (closing : IsPadding back)
    (mentioned : Mentioned (text ++ back) name) : Mentioned text name :=
  Mentioned.core isPadding_nil closing mentioned

theorem dropFront {front : Text} (opening : IsPadding front)
    (mentioned : Mentioned (front ++ text) name) : Mentioned text name := by
  rw [← List.append_nil text] at mentioned
  exact mentioned.core opening isPadding_nil

theorem trimEnd (mentioned : Mentioned text name) : Mentioned (Text.trimEnd text) name := by
  obtain ⟨blanks, whole, padding⟩ := exists_trimEnd text
  rw [whole] at mentioned
  exact mentioned.dropBack padding

theorem trim (mentioned : Mentioned text name) : Mentioned (Text.trim text) name := by
  obtain ⟨blanks, whole, padding⟩ := exists_trimStart text
  rw [whole] at mentioned
  exact (mentioned.dropFront padding).trimEnd

end Mentioned

theorem isPadding_semicolon : IsPadding [';'] := by
  intro c member
  rw [List.mem_singleton.mp member]
  decide

namespace Mentioned

variable {text name : Text}

/-- A semicolon at the end belongs to no name. -/
theorem dropSemicolon (mentioned : Mentioned text name) (ends : text.getLast? = some ';') :
    Mentioned (Text.trimEnd text.dropLast) name := by
  obtain ⟨front, rfl⟩ := List.getLast?_eq_some_iff.mp ends
  rw [List.dropLast_concat]
  exact (mentioned.dropBack isPadding_semicolon).trimEnd

theorem arrayElement (mentioned : Mentioned text name) {element : Text}
    (found : arrayElement text = some element) : Mentioned element name := by
  unfold Syntax.arrayElement at found
  split at found
  · next rest same =>
      obtain ⟨_, found⟩ := Option.ite_none_left_eq_some.mp found
      cases found
      have whole : text = rest.reverse ++ ['[', ']'] := by
        rw [← List.reverse_reverse text, same]
        simp
      have padding : IsPadding ['[', ']'] := by
        intro c member
        simp only [List.mem_cons, List.not_mem_nil, or_false] at member
        rcases member with rfl | rfl <;> decide
      rw [whole] at mentioned
      exact (mentioned.dropBack padding).trim
  · cases found

/-! ## Types with nodes of their own -/

/-- An identifier holds no name but itself. -/
theorem eq_identifier (mentioned : Mentioned text name)
    (identifier : Text.isIdentifier text = true) : text = name := by
  obtain ⟨before, after, rfl, stands, _⟩ := mentioned
  exact stands.eq_of_isIdentifier identifier

/-- Between single dots every name is a component. -/
theorem mem_dottedName (mentioned : Mentioned text name) {found : Name}
    (dotted : dottedName text = some found) : name ∈ found.parts := by
  obtain ⟨parts, identifiers⟩ := dottedName_parts dotted
  obtain ⟨before, after, whole, stands, _⟩ := mentioned
  have outside : ∀ c ∈ text, Text.isReferencePart c = false → (c == '.') = true := by
    intro c member other
    cases dot : c == '.' with
    | true => rfl
    | false =>
        obtain ⟨part, among, inside⟩ := Text.exists_piece_of_mem (· == '.') member dot
        rw [← Text.splitOn, ← parts] at among
        rw [Text.solid_of_isIdentifier (identifiers part among) c inside] at other
        cases other
  rw [parts, whole]
  refine Text.mem_splitWhere (fun c last => ?_) (fun c member => ?_) fun c first => ?_
  · exact outside c (by rw [whole]; exact List.mem_append_left _ (List.mem_of_getLast? last))
      (stands.opened c last)
  · cases dot : c == '.' with
    | false => rfl
    | true =>
        have part := stands.solid c member
        rw [beq_iff_eq.mp dot] at part
        exact absurd part (by decide)
  · exact outside c (by rw [whole]; simp [List.mem_of_head? first]) (stands.closed c first)

/-- In a number there are no names. -/
theorem not_isNumber (mentioned : Mentioned text name) : isNumber text = false := by
  obtain ⟨before, after, whole, stands, _⟩ := mentioned
  obtain ⟨c, rest, rfl, start⟩ := stands.exists_cons
  have inside : c ∈ text := by simp [whole]
  have dot : (c == '.') = false := by
    cases same : c == '.' with
    | false => rfl
    | true =>
        rw [beq_iff_eq.mp same] at start
        exact absurd start (by decide)
  obtain ⟨piece, among, within⟩ := Text.exists_piece_of_mem (· == '.') inside dot
  have digits : piece.all Char.isDigit = false := by
    refine List.all_eq_false.mpr ⟨c, within, ?_⟩
    rw [Text.isDigit_of_isIdentifierStart start]
    exact Bool.false_ne_true
  unfold isNumber
  rw [Text.splitOn]
  dsimp only
  split
  · next same =>
      rw [same] at among
      rw [← List.mem_singleton.mp among, digits, Bool.and_false]
  · next first second same =>
      rw [same] at among
      simp only [List.mem_cons, List.not_mem_nil, or_false] at among
      rcases among with rfl | rfl
      · rw [digits, Bool.and_false, Bool.false_and]
      · rw [digits, Bool.and_false, Bool.and_false]
  · rfl

end Mentioned

/-! ## Quoted types -/

theorem contentBefore_of_plain {quote : Char} {content : Text} (plain : '\\' ∉ content)
    (other : quote ∉ content) (escape : quote ≠ '\\') :
    contentBefore quote (content ++ [quote]) = some content := by
  induction content with
  | nil => rw [List.nil_append, contentBefore_cons escape, if_pos rfl]
  | cons c content ih =>
      simp only [List.mem_cons, not_or] at plain other
      rw [List.cons_append, contentBefore_cons (Ne.symm plain.1), if_neg (Ne.symm other.1),
        ih plain.2 other.2]
      rfl

theorem tokensFrom_of_length_le {skip : Nat} {text : Text} (short : text.length ≤ skip) :
    tokensFrom skip text = [] := by
  induction text generalizing skip with
  | nil => rw [tokensFrom]
  | cons c text ih =>
      cases skip with
      | zero => cases short
      | succ skip => exact ih (Nat.le_of_succ_le_succ short)

/-- A quoted type is one literal. -/
theorem tokens_of_quotedContent {text content : Text} (quoted : quotedContent text = some content) :
    ∃ quote, tokens text = [.literal ⟨quote, content⟩] := by
  cases text with
  | nil => cases quoted
  | cons quote rest =>
      simp only [quotedContent] at quoted
      obtain ⟨shape, same⟩ := Option.ite_none_right_eq_some.mp quoted
      cases same
      simp only [Bool.and_eq_true, Bool.or_eq_true, decide_eq_true_eq, Bool.not_eq_true',
        List.contains_eq_mem, decide_eq_false_iff_not] at shape
      obtain ⟨⟨⟨kind, ends⟩, other⟩, plain⟩ := shape
      obtain ⟨content, rfl⟩ := List.getLast?_eq_some_iff.mp ends
      rw [List.dropLast_concat] at other plain ⊢
      have opens : isQuote quote = true := by rcases kind with rfl | rfl <;> rfl
      have escape : quote ≠ '\\' := by rcases kind with rfl | rfl <;> decide
      refine ⟨quote, ?_⟩
      have found : literalAt (quote :: (content ++ [quote])) = some ⟨quote, content⟩ := by
        rw [literalAt, if_pos opens, contentBefore_of_plain plain other escape]
        rfl
      rw [tokens, tokensFrom, found]
      exact congrArg _ (tokensFrom_of_length_le (by simp))

/-- A name in a quoted type stands in its content. -/
theorem Mentioned.exists_quoted {text name content : Text} (mentioned : Mentioned text name)
    (quoted : quotedContent text = some content) :
    '$' ∉ name ∧ ∃ inner rest, content = inner ++ (name ++ rest) ∧ Stands inner name rest := by
  obtain ⟨quote, same⟩ := tokens_of_quotedContent quoted
  obtain ⟨before, after, whole, stands, ⟨place, _⟩ | ⟨place, plain⟩⟩ := mentioned
  · obtain ⟨front, back, tokenized, _⟩ := place
    obtain ⟨c, rest, rfl, _⟩ := stands.exists_cons
    have member : Token.code c ∈ tokens text := by simp [tokenized]
    rw [same] at member
    cases List.mem_singleton.mp member
  · obtain ⟨literal, among, inner, rest, split, stands⟩ := place.exists_literal whole stands
    have member := mem_literalsOf.mp among
    rw [same, List.mem_singleton, Token.literal.injEq] at member
    subst member
    exact ⟨plain, inner, rest, split, stands⟩

end TypeScriptGen.Syntax
