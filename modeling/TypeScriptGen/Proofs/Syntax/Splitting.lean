import TypeScriptGen.Proofs.Syntax.Spelling

/-!
# The one way to split a text

The search from left to right cuts a text into segments of code and the literals
between them. Without the search these are told by three conditions: together
they give the text back, every literal ends at the first quote of its kind that
no odd number of backslashes escapes, and no quote in a segment could be closed
by what follows it. A text is split so in one way only.
-/

namespace TypeScriptGen.Syntax

/-! ## Escaped characters -/

/-- How many backslashes stand at the end of a text. -/
def backslashes (text : Text) : Nat := (text.reverse.takeWhile (· == '\\')).length

/-- An odd number of backslashes escapes what follows the text. -/
def Escapes (text : Text) : Prop := backslashes text % 2 = 1

theorem not_escapes_nil : ¬Escapes [] := by
  unfold Escapes backslashes
  simp

/-- A character in front counts only where nothing but backslashes stands behind it. -/
theorem backslashes_cons (c : Char) (text : Text) :
    backslashes (c :: text) =
      if backslashes text = text.length ∧ c = '\\' then backslashes text + 1
      else backslashes text := by
  unfold backslashes
  rw [List.reverse_cons, List.takeWhile_append, List.length_reverse]
  by_cases all : (text.reverse.takeWhile (· == '\\')).length = text.length
  · by_cases slash : c = '\\'
    · simp [all, slash]
    · simp [all, slash]
  · simp [all]

theorem backslashes_cons_of_ne {c : Char} (plain : c ≠ '\\') (text : Text) :
    backslashes (c :: text) = backslashes text := by
  rw [backslashes_cons, if_neg fun both => plain both.2]

theorem escapes_cons {c : Char} (plain : c ≠ '\\') (text : Text) :
    Escapes (c :: text) ↔ Escapes text := by
  unfold Escapes
  rw [backslashes_cons_of_ne plain]

/-- A backslash and the character that it takes along change nothing behind them. -/
theorem escapes_pair (c : Char) (text : Text) : Escapes ('\\' :: c :: text) ↔ Escapes text := by
  unfold Escapes
  have bound : backslashes text ≤ text.length := by
    have front : text.reverse.takeWhile (· == '\\') <+: text.reverse := List.takeWhile_prefix _
    simpa [backslashes] using front.length_le
  rw [backslashes_cons, backslashes_cons, List.length_cons]
  by_cases both : backslashes text = text.length ∧ c = '\\'
  · rw [if_pos both, if_pos ⟨by rw [both.1], rfl⟩]
    omega
  · rw [if_neg both, if_neg fun all => by omega]

/-! ## Where a literal ends -/

/-- The content of a literal goes up to the first quote of its kind that is not escaped. -/
structure ClosedBy (quote : Char) (content : Text) : Prop where
  free : ¬Escapes content
  first : ∀ inner rest, content = inner ++ quote :: rest → Escapes inner

/-- Some quote of the kind that is not escaped stands in the text. -/
def Closable (quote : Char) (text : Text) : Prop :=
  ∃ inner rest, text = inner ++ quote :: rest ∧ ¬Escapes inner

section Content

variable {quote : Char} {text content : Text}

theorem closedBy_nil : ClosedBy quote [] :=
  ⟨not_escapes_nil, fun inner rest same => by simp at same⟩

/-- A character that is neither a backslash nor the quote can be put in front. -/
theorem ClosedBy.cons {c : Char} (plain : c ≠ '\\') (other : c ≠ quote) (closed : ClosedBy quote content) :
    ClosedBy quote (c :: content) := by
  refine ⟨fun escaped => closed.free ((escapes_cons plain content).mp escaped), ?_⟩
  intro inner rest same
  cases inner with
  | nil =>
      rw [List.nil_append, List.cons.injEq] at same
      exact absurd same.1 other
  | cons d inner =>
      rw [List.cons_append, List.cons.injEq] at same
      obtain ⟨rfl, same⟩ := same
      exact (escapes_cons plain inner).mpr (closed.first inner rest same)

/-- In front of a quote behind a backslash and a character stands the backslash, or both. -/
theorem pair_eq_append {c : Char} {inner rest : Text} (unlike : quote ≠ '\\')
    (same : '\\' :: c :: text = inner ++ quote :: rest) :
    inner = ['\\'] ∨ ∃ deeper, inner = '\\' :: c :: deeper ∧ text = deeper ++ quote :: rest := by
  cases inner with
  | nil =>
      rw [List.nil_append, List.cons.injEq] at same
      exact absurd same.1.symm unlike
  | cons slash inner =>
      rw [List.cons_append, List.cons.injEq] at same
      obtain ⟨rfl, same⟩ := same
      cases inner with
      | nil => exact .inl rfl
      | cons d inner =>
          rw [List.cons_append, List.cons.injEq] at same
          obtain ⟨rfl, same⟩ := same
          exact .inr ⟨inner, rfl, same⟩

/-- A backslash can be put in front together with any character. -/
theorem ClosedBy.pair (unlike : quote ≠ '\\') (c : Char) (closed : ClosedBy quote content) :
    ClosedBy quote ('\\' :: c :: content) := by
  refine ⟨fun escaped => closed.free ((escapes_pair c content).mp escaped), ?_⟩
  intro inner rest same
  rcases pair_eq_append unlike same with rfl | ⟨deeper, rfl, split⟩
  · rfl
  · exact (escapes_pair c deeper).mpr (closed.first deeper rest split)

/-- What the reader takes for the content of a literal ends as it should. -/
theorem closedBy_of_contentBefore (unlike : quote ≠ '\\')
    (found : contentBefore quote text = some content) : ClosedBy quote content := by
  fun_induction contentBefore quote text generalizing content with
  | case1 => cases found
  | case2 => cases found
  | case3 c rest ih =>
      obtain ⟨inner, read, rfl⟩ := Option.map_eq_some_iff.mp found
      exact (ih read).pair unlike c
  | case4 rest =>
      cases found
      exact closedBy_nil
  | case5 c rest last more other ih =>
      obtain ⟨inner, read, rfl⟩ := Option.map_eq_some_iff.mp found
      exact (ih read).cons (ne_backslash last more) other

/-- The reader finds an end wherever there is one. -/
theorem isSome_contentBefore (unlike : quote ≠ '\\') (closable : Closable quote text) :
    (contentBefore quote text).isSome = true := by
  obtain ⟨inner, tail, same, free⟩ := closable
  fun_induction contentBefore quote text generalizing inner with
  | case1 => simp at same
  | case2 =>
      -- a lone backslash escapes the place behind it, and is no quote
      cases inner with
      | nil =>
          rw [List.nil_append, List.cons.injEq] at same
          exact absurd same.1.symm unlike
      | cons d inner => simp at same
  | case3 c rest ih =>
      rw [Option.isSome_map]
      rcases pair_eq_append unlike same with rfl | ⟨deeper, rfl, split⟩
      · exact absurd rfl free
      · exact ih deeper split fun escaped => free ((escapes_pair c deeper).mpr escaped)
  | case4 rest => rfl
  | case5 c rest last more other ih =>
      rw [Option.isSome_map]
      cases inner with
      | nil =>
          rw [List.nil_append, List.cons.injEq] at same
          exact absurd same.1 other
      | cons d inner =>
          rw [List.cons_append, List.cons.injEq] at same
          obtain ⟨rfl, same⟩ := same
          exact ih inner same fun escaped =>
            free ((escapes_cons (ne_backslash last more) inner).mpr escaped)

/-- A literal has one end. -/
theorem ClosedBy.unique {other rest tail : Text} (closed : ClosedBy quote content)
    (again : ClosedBy quote other) (same : content ++ quote :: rest = other ++ quote :: tail) :
    content = other := by
  rcases List.append_eq_append_iff.mp same with ⟨extra, longer, behind⟩ | ⟨extra, longer, behind⟩
  · cases extra with
    | nil => simpa using longer.symm
    | cons d extra =>
        rw [List.cons_append, List.cons.injEq] at behind
        rw [← behind.1] at longer
        exact absurd (again.first content extra longer) closed.free
  · cases extra with
    | nil => simpa using longer
    | cons d extra =>
        rw [List.cons_append, List.cons.injEq] at behind
        rw [← behind.1] at longer
        exact absurd (closed.first other extra longer) again.free

theorem contentBefore_eq_some_iff (unlike : quote ≠ '\\') :
    contentBefore quote text = some content ↔
      ∃ rest, text = content ++ quote :: rest ∧ ClosedBy quote content := by
  constructor
  · intro found
    obtain ⟨rest, whole⟩ := contentBefore_append quote text content found
    exact ⟨rest, whole, closedBy_of_contentBefore unlike found⟩
  · rintro ⟨rest, rfl, closed⟩
    obtain ⟨other, found⟩ := Option.isSome_iff_exists.mp
      (isSome_contentBefore unlike ⟨content, rest, rfl, closed.free⟩)
    obtain ⟨tail, same⟩ := contentBefore_append quote _ other found
    rw [found, closed.unique (closedBy_of_contentBefore unlike found) same]

theorem contentBefore_eq_none_iff (unlike : quote ≠ '\\') :
    contentBefore quote text = none ↔ ¬Closable quote text := by
  constructor
  · intro none closable
    have some := isSome_contentBefore unlike closable
    rw [none] at some
    cases some
  · intro open'
    cases found : contentBefore quote text with
    | none => rfl
    | some content =>
        obtain ⟨rest, whole, closed⟩ := (contentBefore_eq_some_iff unlike).mp found
        exact absurd ⟨content, rest, whole, closed.free⟩ open'

end Content

theorem ne_backslash_of_isQuote {c : Char} (quote : isQuote c = true) : c ≠ '\\' := by
  rintro rfl
  cases quote

/-- A literal starts with a quote, and the first quote of its kind that is not escaped ends it. -/
structure Literal.Formed (literal : Literal) : Prop where
  opened : isQuote literal.quote = true
  closed : ClosedBy literal.quote literal.content

theorem Literal.Formed.literalAt_eq {literal : Literal} (formed : literal.Formed) (tail : Text) :
    literalAt (literal.text ++ tail) = some literal := by
  have read : contentBefore literal.quote (literal.content ++ literal.quote :: tail) =
      some literal.content :=
    (contentBefore_eq_some_iff (ne_backslash_of_isQuote formed.opened)).mpr
      ⟨tail, rfl, formed.closed⟩
  have shape : literal.text ++ tail =
      literal.quote :: (literal.content ++ (literal.quote :: tail)) := by simp [Literal.text]
  rw [shape, literalAt, if_pos formed.opened, read]
  rfl

theorem formed_of_literalAt {text : Text} {literal : Literal}
    (found : literalAt text = some literal) : literal.Formed := by
  have opened := isQuote_of_literalAt found
  cases text with
  | nil => cases found
  | cons c rest =>
      rw [literalAt] at found
      obtain ⟨_, found⟩ := Option.ite_none_right_eq_some.mp found
      obtain ⟨content, read, rfl⟩ := Option.map_eq_some_iff.mp found
      exact ⟨opened, closedBy_of_contentBefore (ne_backslash_of_isQuote opened) read⟩

theorem literalAt_eq_none_iff {c : Char} {rest : Text} :
    literalAt (c :: rest) = none ↔ (isQuote c = true → ¬Closable c rest) := by
  rw [literalAt]
  split
  · next quote =>
      rw [Option.map_eq_none_iff, contentBefore_eq_none_iff (ne_backslash_of_isQuote quote)]
      exact ⟨fun open' _ => open', fun open' => open' quote⟩
  · next plain => exact ⟨fun _ quote => absurd quote plain, fun _ => rfl⟩

/-! ## Streams of tokens -/

/-- The literals of a stream are formed, and no quote in its code could be closed. -/
def Lawful : List Token → Prop
  | [] => True
  | .code c :: rest => (isQuote c = true → ¬Closable c (rest.flatMap Token.text)) ∧ Lawful rest
  | .literal found :: rest => found.Formed ∧ Lawful rest

theorem lawful_tokensFrom (skip : Nat) (text : Text) : Lawful (tokensFrom skip text) := by
  induction text generalizing skip with
  | nil =>
      rw [tokensFrom]
      exact trivial
  | cons c text ih =>
      cases skip with
      | succ skip => exact ih skip
      | zero =>
          rw [tokensFrom]
          split
          · next literal found => exact ⟨formed_of_literalAt found, ih _⟩
          · next none =>
              refine ⟨?_, ih 0⟩
              rw [tokensFrom_text]
              exact literalAt_eq_none_iff.mp none

/-- A lawful stream is what its text is cut into. -/
theorem Lawful.tokens_eq {stream : List Token} (lawful : Lawful stream) :
    tokens (stream.flatMap Token.text) = stream := by
  induction stream with
  | nil => rfl
  | cons token stream ih =>
      cases token with
      | code c =>
          have here : literalAt (c :: stream.flatMap Token.text) = none :=
            literalAt_eq_none_iff.mpr lawful.1
          exact (tokens_cons_code here).trans (congrArg _ (ih lawful.2))
      | literal found =>
          have here := lawful.1.literalAt_eq (stream.flatMap Token.text)
          exact (tokens_literal_append here).trans (congrArg _ (ih lawful.2))

/-! ## Segments and literals in turn -/

/-- Segments of code with literals between them. -/
def interleave : List Text → List Literal → Text
  | segment :: segments, literal :: found => segment ++ (literal.text ++ interleave segments found)
  | segments, _ => segments.flatten

/-- The same as a stream of tokens. -/
def weave : List Text → List Literal → List Token
  | segment :: segments, literal :: found =>
      segment.map Token.code ++ .literal literal :: weave segments found
  | segments, _ => segments.flatten.map Token.code

variable {segments : List Text} {found : List Literal}

theorem weave_text (segments : List Text) (found : List Literal) :
    (weave segments found).flatMap Token.text = interleave segments found := by
  fun_induction weave segments found with
  | case1 segment segments literal found ih =>
      rw [List.flatMap_append, map_code_text, List.flatMap_cons, ih, interleave]
      rfl
  | case2 segments found short =>
      rw [map_code_text, interleave]
      exact short

theorem codeOf_weave (count : segments.length = found.length + 1) :
    codeOf (weave segments found) = segments := by
  induction found generalizing segments with
  | nil =>
      obtain ⟨segment, rfl⟩ := List.length_eq_one_iff.mp count
      have bare := codeOf_code_append segment [] [] [] rfl
      simpa [weave] using bare
  | cons literal found ih =>
      obtain ⟨segment, segments, rfl⟩ := List.exists_cons_of_length_eq_add_one count
      have rest := ih (Nat.succ.inj count)
      have ends : codeOf (.literal literal :: weave segments found) = [] :: segments :=
        congrArg ([] :: ·) rest
      rw [weave, codeOf_code_append segment _ _ _ ends, List.append_nil]

theorem literalsOf_weave (count : segments.length = found.length + 1) :
    literalsOf (weave segments found) = found := by
  induction found generalizing segments with
  | nil =>
      obtain ⟨segment, rfl⟩ := List.length_eq_one_iff.mp count
      simpa [weave] using literalsOf_code segment
  | cons literal found ih =>
      obtain ⟨segment, segments, rfl⟩ := List.exists_cons_of_length_eq_add_one count
      rw [weave, literalsOf_append, literalsOf_code, List.nil_append, literalsOf,
        ih (Nat.succ.inj count)]

/-- A stream is its segments and its literals in turn, and there is one segment more. -/
theorem weave_codeOf (stream : List Token) :
    weave (codeOf stream) (literalsOf stream) = stream ∧
      (codeOf stream).length = (literalsOf stream).length + 1 := by
  fun_induction codeOf stream with
  | case1 => exact ⟨rfl, rfl⟩
  | case2 literal rest ih =>
      refine ⟨?_, congrArg (· + 1) ih.2⟩
      rw [literalsOf, weave, ih.1]
      rfl
  | case3 c rest none ih => exact absurd none (codeOf_ne_nil rest)
  | case4 c rest segment segments same ih =>
      rw [same] at ih
      refine ⟨?_, ih.2⟩
      rw [literalsOf]
      refine Eq.trans ?_ (congrArg (Token.code c :: ·) ih.1)
      cases literalsOf rest <;> simp [weave]

/-- No quote in a segment could be closed by what follows it. -/
def Sealed (segments : List Text) (found : List Literal) : Prop :=
  ∀ before left quote right after, segments = before ++ (left ++ quote :: right) :: after →
    isQuote quote = true →
      ¬Closable quote (interleave (right :: after) (found.drop before.length))

/-- Code can be put in front of a stream where none of its quotes could be closed. -/
theorem lawful_code_append {code : Text} {stream : List Token} :
    Lawful (code.map Token.code ++ stream) ↔
      (∀ left quote right, code = left ++ quote :: right → isQuote quote = true →
        ¬Closable quote (right ++ stream.flatMap Token.text)) ∧ Lawful stream := by
  induction code with
  | nil => simp
  | cons c code ih =>
      rw [List.map_cons, List.cons_append, Lawful, ih, List.flatMap_append, map_code_text]
      constructor
      · rintro ⟨here, later, lawful⟩
        refine ⟨fun left quote right same opens => ?_, lawful⟩
        cases left with
        | nil =>
            rw [List.nil_append, List.cons.injEq] at same
            obtain ⟨rfl, rfl⟩ := same
            exact here opens
        | cons d left =>
            rw [List.cons_append, List.cons.injEq] at same
            exact later left quote right same.2 opens
      · rintro ⟨all, lawful⟩
        refine ⟨fun opens => all [] c code rfl opens, fun left quote right same opens => ?_, lawful⟩
        exact all (c :: left) quote right (congrArg (c :: ·) same) opens

/-- The first segment and the literal behind it can be looked at apart from the rest. -/
theorem sealed_cons {segment : Text} {literal : Literal} :
    Sealed (segment :: segments) (literal :: found) ↔
      (∀ left quote right, segment = left ++ quote :: right → isQuote quote = true →
        ¬Closable quote (right ++ (literal.text ++ interleave segments found))) ∧
        Sealed segments found := by
  constructor
  · intro sealed
    refine ⟨fun left quote right same opens => ?_, fun before left quote right after same => ?_⟩
    · exact sealed [] left quote right segments (by rw [same]; rfl) opens
    · exact sealed (segment :: before) left quote right after (by rw [same]; rfl)
  · rintro ⟨here, later⟩ before left quote right after same opens
    cases before with
    | nil =>
        rw [List.nil_append, List.cons.injEq] at same
        obtain ⟨whole, rfl⟩ := same
        exact here left quote right whole opens
    | cons first before =>
        rw [List.cons_append, List.cons.injEq] at same
        exact later before left quote right after same.2 opens

theorem sealed_singleton {segment : Text} :
    Sealed [segment] [] ↔ ∀ left quote right, segment = left ++ quote :: right →
      isQuote quote = true → ¬Closable quote right := by
  constructor
  · intro sealed left quote right same opens
    have rest := sealed [] left quote right [] (by rw [same]; rfl) opens
    simpa [interleave] using rest
  · intro all before left quote right after same opens
    cases before with
    | nil =>
        rw [List.nil_append, List.cons.injEq] at same
        obtain ⟨whole, rfl⟩ := same
        have rest := all left quote right whole opens
        simpa [interleave] using rest
    | cons first before => simp at same

theorem lawful_weave_iff (count : segments.length = found.length + 1) :
    Lawful (weave segments found) ↔
      (∀ literal ∈ found, literal.Formed) ∧ Sealed segments found := by
  induction found generalizing segments with
  | nil =>
      obtain ⟨segment, rfl⟩ := List.length_eq_one_iff.mp count
      have bare := @lawful_code_append segment []
      rw [List.append_nil] at bare
      simpa [weave, sealed_singleton, Lawful] using bare
  | cons literal found ih =>
      obtain ⟨segment, segments, rfl⟩ := List.exists_cons_of_length_eq_add_one count
      rw [weave, lawful_code_append, Lawful, ih (Nat.succ.inj count), sealed_cons,
        List.flatMap_cons, weave_text, List.forall_mem_cons]
      constructor
      · rintro ⟨here, formed, others, later⟩
        exact ⟨⟨formed, others⟩, here, later⟩
      · rintro ⟨⟨formed, others⟩, here, later⟩
        exact ⟨here, formed, others, later⟩

/-! ## Splitting -/

/-- A text is split into segments of code and the literals between them. -/
structure Splits (text : Text) (segments : List Text) (found : List Literal) : Prop where
  count : segments.length = found.length + 1
  whole : interleave segments found = text
  formed : ∀ literal ∈ found, literal.Formed
  sealed : Sealed segments found

/-- Every text is split into its code segments and its literals, and in no other way. -/
theorem splits_iff {text : Text} {segments : List Text} {found : List Literal} :
    Splits text segments found ↔ segments = codeSegments text ∧ found = literals text := by
  constructor
  · rintro ⟨count, rfl, formed, sealed⟩
    have lawful := (lawful_weave_iff count).mpr ⟨formed, sealed⟩
    have cut : tokens (interleave segments found) = weave segments found := by
      rw [← weave_text]
      exact lawful.tokens_eq
    rw [codeSegments, literals, cut, codeOf_weave count, literalsOf_weave count]
    exact ⟨rfl, rfl⟩
  · rintro ⟨rfl, rfl⟩
    obtain ⟨woven, count⟩ := weave_codeOf (tokens text)
    have lawful : Lawful (weave (codeSegments text) (literals text)) := by
      rw [codeSegments, literals, woven]
      exact lawful_tokensFrom 0 text
    obtain ⟨formed, sealed⟩ := (lawful_weave_iff count).mp lawful
    refine ⟨count, ?_, formed, sealed⟩
    rw [← weave_text, codeSegments, literals, woven, tokens_text]

/-- Nothing closes the last quote, an escaped one closes nothing, and others are content. -/
example : codeSegments "a = \"it's \\\" b\" + c'".toList = ["a = ".toList, " + c'".toList] ∧
    literals "a = \"it's \\\" b\" + c'".toList = [⟨'"', "it's \\\" b".toList⟩] := by
  decide

end TypeScriptGen.Syntax
