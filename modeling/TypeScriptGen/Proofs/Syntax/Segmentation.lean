import TypeScriptGen.Proofs.Text.Standing
import TypeScriptGen.Syntax.Literal

/-!
# Places in code and in literals

Cutting a text into literals and code tells where a name stands: in the code, or
inside the content of a literal. Blanks, brackets and semicolons around a text
change neither, since they open no literal and close none.
-/

namespace TypeScriptGen.Syntax

open Text (Stands Solid isReferencePart)

/-- The name stands in the code of a text, behind the text `before`. -/
def InCode (text before name : Text) : Prop :=
  ∃ front back, tokens text = front ++ (name.map Token.code ++ back) ∧
    before = front.flatMap Token.text

/-- The name stands inside the content of a literal of a text, behind the text `before`. -/
def InLiteral (text before name : Text) : Prop :=
  ∃ front literal back inner rest, tokens text = front ++ ([Token.literal literal] ++ back) ∧
    literal.content = inner ++ (name ++ rest) ∧
    before = front.flatMap Token.text ++ literal.quote :: inner

/-- Characters that belong to no name and delimit no literal. -/
def IsPadding (text : Text) : Prop :=
  ∀ c ∈ text, isReferencePart c = false ∧ isQuote c = false

theorem isPadding_nil : IsPadding [] := fun _ member => absurd member List.not_mem_nil

theorem isQuote_cases {c : Char} (quote : isQuote c = true) :
    c = '"' ∨ c = '\x27' ∨ c = '\x60' := by
  simp only [isQuote, Bool.or_eq_true, beq_iff_eq] at quote
  rcases quote with (double | single) | back
  · exact Or.inl double
  · exact Or.inr (Or.inl single)
  · exact Or.inr (Or.inr back)

theorem isBlank_of_isQuote {c : Char} (quote : isQuote c = true) : Text.isBlank c = false := by
  rcases isQuote_cases quote with rfl | rfl | rfl <;> rfl

theorem isPadding_of_isBlank {text : Text} (blank : ∀ c ∈ text, Text.isBlank c = true) :
    IsPadding text := by
  intro c member
  refine ⟨Text.isReferencePart_of_isBlank c (blank c member), ?_⟩
  cases quote : isQuote c with
  | false => rfl
  | true =>
      have white := blank c member
      rw [isBlank_of_isQuote quote] at white
      cases white

/-- A fixed text is without quotes when none is found in it. -/
theorem isQuote_of_any {text : Text} (found : text.any isQuote = false) :
    ∀ c ∈ text, isQuote c = false :=
  Text.eq_false_of_any found

/-! ## Padding and literals -/

theorem contentBefore_cons {quote c : Char} (plain : c ≠ '\\') (rest : Text) :
    contentBefore quote (c :: rest) =
      if c = quote then some [] else (contentBefore quote rest).map (c :: ·) := by
  rw [contentBefore]
  · intro same
    exact absurd same plain
  · intro d more same
    exact absurd same plain

/-- Nothing closes a literal where its quote does not occur. -/
theorem contentBefore_eq_none {quote : Char} {text : Text} (absent : quote ∉ text) :
    contentBefore quote text = none := by
  fun_induction contentBefore quote text with
  | case1 => rfl
  | case2 => rfl
  | case3 c rest ih =>
      simp only [List.mem_cons, not_or] at absent
      rw [ih absent.2.2]
      rfl
  | case4 rest => exact absurd List.mem_cons_self absent
  | case5 c rest _ _ _ ih =>
      simp only [List.mem_cons, not_or] at absent
      rw [ih absent.2]
      rfl

/-- The reader tells a character from a backslash by what stands behind it. -/
theorem ne_backslash {c : Char} {rest : Text} (last : c = '\\' → rest = [] → False)
    (more : ∀ d tail, c = '\\' → rest = d :: tail → False) : c ≠ '\\' := by
  intro slash
  cases rest with
  | nil => exact last slash rfl
  | cons d tail => exact more d tail slash rfl

theorem contentBefore_padding {quote : Char} {text pad : Text} (opens : isQuote quote = true)
    (plain : ∀ c ∈ pad, isQuote c = false) :
    contentBefore quote (text ++ pad) = contentBefore quote text := by
  have absent : quote ∉ pad := fun member => by
    rw [plain quote member] at opens
    cases opens
  have escape : quote ≠ '\\' := by
    rintro rfl
    cases opens
  fun_induction contentBefore quote text with
  | case1 => exact contentBefore_eq_none absent
  | case2 =>
      refine contentBefore_eq_none fun member => ?_
      rcases List.mem_cons.mp member with same | tail
      · exact escape same
      · exact absent tail
  | case3 c rest ih =>
      rw [List.cons_append, List.cons_append, contentBefore, ih]
  | case4 rest => rw [List.cons_append, contentBefore_cons escape, if_pos rfl]
  | case5 c rest last more other ih =>
      rw [List.cons_append, contentBefore_cons (ne_backslash last more), if_neg other, ih]

theorem literalAt_padding (text pad : Text) (plain : ∀ c ∈ pad, isQuote c = false)
    (some : text ≠ []) : literalAt (text ++ pad) = literalAt text := by
  cases text with
  | nil => exact absurd rfl some
  | cons c rest =>
      simp only [List.cons_append, literalAt]
      split
      · next opens => rw [contentBefore_padding opens plain]
      · rfl

theorem tokens_of_plain {pad : Text} (plain : ∀ c ∈ pad, isQuote c = false) (text : Text) :
    tokens (pad ++ text) = pad.map Token.code ++ tokens text := by
  induction pad with
  | nil => rfl
  | cons c pad ih =>
      have first := plain c List.mem_cons_self
      have rest := ih fun d member => plain d (List.mem_cons_of_mem c member)
      unfold tokens at rest ⊢
      simp [tokensFrom, literalAt, first, rest]

theorem tokensFrom_padding {pad : Text} (plain : ∀ c ∈ pad, isQuote c = false) (skip : Nat)
    (text : Text) (short : skip ≤ text.length) :
    tokensFrom skip (text ++ pad) = tokensFrom skip text ++ pad.map Token.code := by
  induction text generalizing skip with
  | nil =>
      have none : skip = 0 := Nat.le_zero.mp short
      subst none
      have pads := tokens_of_plain plain []
      rw [List.append_nil] at pads
      exact pads.trans (List.append_nil _)
  | cons c text ih =>
      cases skip with
      | succ skip => exact ih skip (Nat.le_of_succ_le_succ short)
      | zero =>
          have same := literalAt_padding (c :: text) pad plain (List.cons_ne_nil c text)
          rw [List.cons_append] at same ⊢
          rw [tokensFrom, tokensFrom, same]
          split
          · next literal found =>
              obtain ⟨rest, whole⟩ := literalAt_append _ literal found
              have size := congrArg List.length whole
              simp only [Literal.text, List.cons_append, List.length_cons, List.length_append,
                List.length_nil] at size
              rw [ih _ (by omega), List.cons_append]
          · rw [ih 0 (Nat.zero_le _), List.cons_append]

/-- Padding around a text becomes code around its tokens. -/
theorem tokens_padding {front back : Text} (opening : IsPadding front) (closing : IsPadding back)
    (core : Text) :
    tokens (front ++ (core ++ back)) =
      front.map Token.code ++ (tokens core ++ back.map Token.code) := by
  rw [tokens_of_plain fun c member => (opening c member).2]
  exact congrArg _
    (tokensFrom_padding (fun c member => (closing c member).2) 0 core (Nat.zero_le _))

/-! ## Every name has a place -/

theorem isQuote_of_isReferencePart {c : Char} (part : isReferencePart c = true) :
    isQuote c = false := by
  cases quote : isQuote c with
  | false => rfl
  | true => rcases isQuote_cases quote with rfl | rfl | rfl <;> exact absurd part (by decide)

/-- What is skipped leaves the tokens of the rest. -/
theorem tokensFrom_eq (skip : Nat) (text : Text) :
    tokensFrom skip text = tokens (text.drop skip) := by
  induction text generalizing skip with
  | nil => rw [List.drop_nil, tokens, tokensFrom, tokensFrom]
  | cons c text ih =>
      cases skip with
      | zero => rfl
      | succ skip => rw [tokensFrom, ih, List.drop_succ_cons]

theorem tokens_cons_code {c : Char} {text : Text} (open' : literalAt (c :: text) = none) :
    tokens (c :: text) = .code c :: tokens text := by
  rw [tokens, tokensFrom, open']
  rfl

theorem tokens_literal_append {literal : Literal} {tail : Text}
    (found : literalAt (literal.text ++ tail) = some literal) :
    tokens (literal.text ++ tail) = .literal literal :: tokens tail := by
  have shape : literal.text ++ tail =
      literal.quote :: (literal.content ++ (literal.quote :: tail)) := by simp [Literal.text]
  rw [shape] at found ⊢
  rw [tokens, tokensFrom, found]
  dsimp only
  have behind : (literal.content ++ literal.quote :: tail).drop (literal.content.length + 1) =
      tail := by
    rw [← List.drop_drop, List.drop_left]
    rfl
  rw [tokensFrom_eq, behind]

theorem InCode.after_token {token : Token} {text before name : Text}
    (place : InCode text before name) {whole : Text} (split : tokens whole = token :: tokens text) :
    InCode whole (token.text ++ before) name := by
  obtain ⟨front, back, same, rfl⟩ := place
  exact ⟨token :: front, back, by rw [split, same]; rfl, rfl⟩

theorem InLiteral.after_token {token : Token} {text before name : Text}
    (place : InLiteral text before name) {whole : Text}
    (split : tokens whole = token :: tokens text) :
    InLiteral whole (token.text ++ before) name := by
  obtain ⟨front, literal, back, inner, rest, same, content, rfl⟩ := place
  refine ⟨token :: front, literal, back, inner, rest, by rw [split, same]; rfl, content, ?_⟩
  rw [List.flatMap_cons, List.append_assoc]

theorem isQuote_of_literalAt {text : Text} {literal : Literal}
    (found : literalAt text = some literal) : isQuote literal.quote = true := by
  cases text with
  | nil => cases found
  | cons c rest =>
      rw [literalAt] at found
      obtain ⟨opens, read⟩ := Option.ite_none_right_eq_some.mp found
      obtain ⟨content, _, rfl⟩ := Option.map_eq_some_iff.mp read
      exact opens

/-- A name cannot reach over the quote that closes a literal. -/
theorem exists_content {literal : Literal} {c : Char} {before name after left tail : Text}
    (solid : Solid name) (opens : isQuote literal.quote = true)
    (text : literal.text = c :: before ++ left) (some : left ≠ [])
    (rest : name ++ after = left ++ tail) :
    c = literal.quote ∧ ∃ more, literal.content = before ++ (name ++ more) := by
  rcases List.eq_nil_or_concat left with rfl | ⟨inner, closing, rfl⟩
  · exact absurd rfl some
  · rw [List.concat_eq_append] at text rest
    rw [← List.append_assoc] at text
    obtain ⟨opened, closed⟩ := List.append_inj' text rfl
    rw [List.cons_append, List.cons.injEq] at opened
    rw [List.cons.injEq] at closed
    have quote : closing ∉ name := fun member => by
      rw [closed.1, isQuote_of_isReferencePart (solid closing member)] at opens
      cases opens
    refine ⟨opened.1.symm, ?_⟩
    rw [List.append_assoc] at rest
    rcases List.append_eq_append_iff.mp rest with ⟨extra, same, behind⟩ | ⟨extra, same, behind⟩
    · exact ⟨extra, by rw [opened.2, same]⟩
    · cases extra with
      | nil => exact ⟨[], by rw [opened.2, same]; simp⟩
      | cons d extra =>
          rw [List.singleton_append, List.cons_append, List.cons.injEq] at behind
          refine absurd ?_ quote
          rw [same, behind.1]
          exact List.mem_append_right _ List.mem_cons_self

/-- A name that stands whole in a text stands in its code or in one of its literals. -/
theorem inCode_or_inLiteral {before name after : Text} (stands : Stands before name after) :
    InCode (before ++ (name ++ after)) before name ∨
      InLiteral (before ++ (name ++ after)) before name := by
  induction size : before.length using Nat.strongRecOn generalizing before with
  | ind length ih =>
      subst size
      cases before with
      | nil =>
          refine Or.inl ⟨[], tokens after, ?_, rfl⟩
          exact tokens_of_plain
            (fun c member => isQuote_of_isReferencePart (stands.solid c member)) after
      | cons c before =>
          cases found : literalAt (c :: before ++ (name ++ after)) with
          | none =>
              have split := tokens_cons_code found
              have later : Stands ([c] ++ before) name after := stands
              exact (ih before.length (by simp) later.tail rfl).imp
                (·.after_token split) (·.after_token split)
          | some literal =>
              obtain ⟨tail, whole⟩ := literalAt_append _ literal found
              rw [whole] at found ⊢
              have split := tokens_literal_append found
              have beyond (left : Text) (text : c :: before = literal.text ++ left)
                  (rest : tail = left ++ (name ++ after)) :
                  InCode (literal.text ++ tail) (c :: before) name ∨
                    InLiteral (literal.text ++ tail) (c :: before) name := by
                rw [text] at stands ⊢
                subst rest
                have shorter : left.length < (c :: before).length := by
                  rw [text]
                  simp [Literal.text]
                  omega
                exact (ih left.length shorter stands.tail rfl).imp
                  (·.after_token split) (·.after_token split)
              rcases List.append_eq_append_iff.mp whole with
                ⟨left, text, rest⟩ | ⟨left, text, rest⟩
              · cases left with
                | nil => exact beyond [] (by simpa using text.symm) (by simpa using rest.symm)
                | cons d left =>
                    obtain ⟨rfl, more, content⟩ :=
                      exists_content stands.solid (isQuote_of_literalAt found) text
                        (List.cons_ne_nil d left) rest
                    exact Or.inr ⟨[], literal, tokens tail, before, more, split, content, rfl⟩
              · exact beyond left text rest

/-! ## Places in a padded text -/

section Between

variable {α : Type} {front middle back first core last : List α}

/-- A stretch that shares nothing with the start of a list lies behind it. -/
theorem exists_behind (same : first ++ core = front ++ (middle ++ back)) (some : middle ≠ [])
    (apart : ∀ x ∈ middle, x ∉ first) :
    ∃ left, front = first ++ left ∧ core = left ++ (middle ++ back) := by
  rcases List.append_eq_append_iff.mp same with ⟨left, whole, rest⟩ | ⟨extra, whole, rest⟩
  · exact ⟨left, whole, rest⟩
  · cases extra with
    | nil => exact ⟨[], by simpa using whole.symm, rest.symm⟩
    | cons x extra =>
        obtain ⟨y, middle, rfl⟩ := List.exists_cons_of_ne_nil some
        rw [List.cons_append, List.cons_append, List.cons.injEq] at rest
        refine absurd ?_ (apart y List.mem_cons_self)
        rw [whole, rest.1]
        exact List.mem_append_right _ List.mem_cons_self

/-- A stretch that shares nothing with the end of a list lies before it. -/
theorem exists_before (same : core ++ last = front ++ (middle ++ back)) (some : middle ≠ [])
    (apart : ∀ x ∈ middle, x ∉ last) :
    ∃ right, back = right ++ last ∧ core = front ++ (middle ++ right) := by
  rw [← List.append_assoc] at same
  rcases List.append_eq_append_iff.mp same with ⟨extra, whole, rest⟩ | ⟨right, whole, rest⟩
  · rcases List.eq_nil_or_concat extra with rfl | ⟨extra, x, rfl⟩
    · exact ⟨[], by simpa using rest.symm, by simpa using whole.symm⟩
    · obtain ⟨middle, y, rfl⟩ := (List.eq_nil_or_concat middle).resolve_left some
      rw [List.concat_eq_append, List.concat_eq_append, ← List.append_assoc,
        ← List.append_assoc] at whole
      have ends := List.append_inj_right' whole rfl
      rw [List.cons.injEq] at ends
      refine absurd ?_ (apart y (by simp))
      rw [rest, ends.1, List.concat_eq_append, List.append_assoc]
      exact List.mem_append_right _ List.mem_cons_self
  · exact ⟨right, rest, by simpa using whole⟩

/-- A stretch that shares nothing with the two ends of a list lies between them. -/
theorem exists_between (same : first ++ (core ++ last) = front ++ (middle ++ back))
    (some : middle ≠ []) (before : ∀ x ∈ middle, x ∉ first) (behind : ∀ x ∈ middle, x ∉ last) :
    ∃ left right, front = first ++ left ∧ back = right ++ last ∧
      core = left ++ (middle ++ right) := by
  obtain ⟨left, opening, inner⟩ := exists_behind same some before
  obtain ⟨right, closing, inner⟩ := exists_before inner some behind
  exact ⟨left, right, opening, closing, inner⟩

end Between

/-! ## Segments -/

theorem codeOf_ne_nil (stream : List Token) : codeOf stream ≠ [] := by
  fun_induction codeOf stream <;> simp

theorem map_code_text (code : Text) : (code.map Token.code).flatMap Token.text = code := by
  simp [List.flatMap_map, Token.text]

theorem mem_literalsOf {literal : Literal} {stream : List Token} :
    literal ∈ literalsOf stream ↔ Token.literal literal ∈ stream := by
  fun_induction literalsOf stream with
  | case1 => simp
  | case2 found rest ih => simp [ih]
  | case3 c rest ih => simp [ih]

def Token.isLiteral : Token → Bool
  | .literal _ => true
  | .code _ => false

/-- The stream goes on with a literal, if at all. -/
def StartsQuoted (stream : List Token) : Prop := ∀ token ∈ stream.head?, token.isLiteral = true

/-- The stream ends in a literal, if it is not empty. -/
def EndsQuoted (stream : List Token) : Prop := ∀ token ∈ stream.getLast?, token.isLiteral = true

theorem endsQuoted_nil : EndsQuoted [] := nofun

theorem endsQuoted_singleton (literal : Literal) : EndsQuoted [.literal literal] := by
  rintro _ ⟨⟩
  rfl

theorem EndsQuoted.cons_literal {stream : List Token} (ends : EndsQuoted stream)
    (literal : Literal) : EndsQuoted (.literal literal :: stream) := by
  intro token last
  rw [Option.mem_def, List.getLast?_cons] at last
  cases same : stream.getLast? with
  | none =>
      rw [same] at last
      cases last
      rfl
  | some other =>
      rw [same] at last
      cases last
      exact ends other same

/-- A stream that has an end goes on ending in it behind any token. -/
theorem EndsQuoted.cons {stream : List Token} (ends : EndsQuoted stream) (some : stream ≠ [])
    (token : Token) : EndsQuoted (token :: stream) := by
  intro other last
  obtain ⟨front, final, rfl⟩ := (List.eq_nil_or_concat stream).resolve_left some
  refine ends other ?_
  simpa [List.getLast?_cons] using last

/-- The first segment stands at the start, every other one behind a literal, and each of them
reaches up to a literal or to the end. -/
theorem codeOf_place (stream : List Token) :
    (∀ segment ∈ (codeOf stream).head?, ∃ back,
        stream = segment.map Token.code ++ back ∧ StartsQuoted back) ∧
      ∀ segment ∈ (codeOf stream).tail, ∃ front back, stream =
        front ++ (segment.map Token.code ++ back) ∧ front ≠ [] ∧ EndsQuoted front ∧
          StartsQuoted back := by
  fun_induction codeOf stream with
  | case1 => exact ⟨by rintro _ ⟨⟩; exact ⟨[], rfl, nofun⟩, nofun⟩
  | case2 literal rest ih =>
      obtain ⟨start, behind⟩ := ih
      obtain ⟨first, segments, same⟩ := List.exists_cons_of_ne_nil (codeOf_ne_nil rest)
      rw [same] at start behind
      refine ⟨?_, fun segment member => ?_⟩
      · rintro _ ⟨⟩
        exact ⟨_, rfl, by rintro _ ⟨⟩; rfl⟩
      · rw [List.tail_cons, same] at member
        rcases List.mem_cons.mp member with rfl | tail
        · obtain ⟨back, whole, starts⟩ := start segment rfl
          exact ⟨[.literal literal], back, by rw [whole]; rfl, List.cons_ne_nil _ _,
            endsQuoted_singleton literal, starts⟩
        · obtain ⟨front, back, whole, _, ends, starts⟩ := behind segment tail
          exact ⟨.literal literal :: front, back, by rw [whole]; rfl, List.cons_ne_nil _ _,
            ends.cons_literal literal, starts⟩
  | case3 c rest none ih => exact absurd none (codeOf_ne_nil rest)
  | case4 c rest first more same ih =>
      rw [same] at ih
      refine ⟨?_, fun segment member => ?_⟩
      · rintro _ ⟨⟩
        obtain ⟨back, whole, starts⟩ := ih.1 first rfl
        exact ⟨back, by rw [whole]; rfl, starts⟩
      · obtain ⟨front, back, whole, some, ends, starts⟩ := ih.2 segment member
        exact ⟨.code c :: front, back, by rw [whole]; rfl, List.cons_ne_nil _ _,
          ends.cons some _, starts⟩

theorem exists_of_mem_codeOf {stream : List Token} {segment : Text}
    (member : segment ∈ codeOf stream) :
    ∃ front back, stream = front ++ (segment.map Token.code ++ back) ∧ EndsQuoted front ∧
      StartsQuoted back := by
  obtain ⟨start, behind⟩ := codeOf_place stream
  obtain ⟨first, segments, same⟩ := List.exists_cons_of_ne_nil (codeOf_ne_nil stream)
  rw [same] at member start behind
  rcases List.mem_cons.mp member with rfl | tail
  · obtain ⟨back, whole, starts⟩ := start segment rfl
    exact ⟨[], back, whole, endsQuoted_nil, starts⟩
  · obtain ⟨front, back, whole, _, ends, starts⟩ := behind segment tail
    exact ⟨front, back, whole, ends, starts⟩

theorem isQuote_of_mem_literals {literal : Literal} (skip : Nat) (text : Text)
    (member : literal ∈ literalsOf (tokensFrom skip text)) : isQuote literal.quote = true := by
  induction text generalizing skip with
  | nil => cases skip <;> cases member
  | cons c text ih =>
      cases skip with
      | succ skip => exact ih skip member
      | zero =>
          rw [tokensFrom] at member
          split at member
          · next first found =>
              rcases List.mem_cons.mp member with rfl | tail
              · exact isQuote_of_literalAt found
              · exact ih _ tail
          · exact ih 0 member

/-- Where tokens of a text end in a literal, their text ends in a quote. -/
theorem EndsQuoted.isQuote {text : Text} {front back : List Token} (ends : EndsQuoted front)
    (whole : tokens text = front ++ back) :
    ∀ c ∈ (front.flatMap Token.text).getLast?, isQuote c = true := by
  intro c last
  rcases List.eq_nil_or_concat front with rfl | ⟨front, token, rfl⟩
  · cases last
  · cases token with
    | code d =>
        have literal := ends (.code d) (by simp)
        cases literal
    | literal found =>
        have among : found ∈ literals text := mem_literalsOf.mpr (by simp [whole])
        have closing : found.quote = c := by
          simpa [Token.text, Literal.text, List.getLast?_cons] using last
        exact closing ▸ isQuote_of_mem_literals 0 text among

/-- Where tokens of a text start with a literal, their text starts with a quote. -/
theorem StartsQuoted.isQuote {text : Text} {front back : List Token} (starts : StartsQuoted back)
    (whole : tokens text = front ++ back) :
    ∀ c ∈ (back.flatMap Token.text).head?, isQuote c = true := by
  intro c first
  cases back with
  | nil => cases first
  | cons token back =>
      cases token with
      | code d =>
          have literal := starts (.code d) rfl
          cases literal
      | literal found =>
          have among : found ∈ literals text := mem_literalsOf.mpr (by simp [whole])
          cases first
          exact isQuote_of_mem_literals 0 text among

/-- A segment stands behind a quote or at the start. -/
theorem segment_place {text segment : Text} (member : segment ∈ codeSegments text) :
    ∃ front back, text = front ++ (segment ++ back) ∧ ∀ c ∈ front.getLast?, isQuote c = true := by
  obtain ⟨front, back, whole, ends, _⟩ := exists_of_mem_codeOf member
  refine ⟨front.flatMap Token.text, back.flatMap Token.text, ?_, ends.isQuote whole⟩
  rw [← tokens_text text, whole, List.flatMap_append, List.flatMap_append, map_code_text]

/-- The last segment of the front goes on in the first segment of what follows. -/
theorem codeOf_append (front back : List Token) :
    ∃ segments left last, front = left ++ last.map Token.code ∧ EndsQuoted left ∧
      (segments = [] ↔ left = []) ∧
      ∀ first more, codeOf back = first :: more →
        codeOf (front ++ back) = segments ++ (last ++ first) :: more := by
  induction front with
  | nil => exact ⟨[], [], [], rfl, endsQuoted_nil, by simp, fun first more same => same⟩
  | cons token front ih =>
      obtain ⟨segments, left, last, rfl, ends, empty, joined⟩ := ih
      cases token with
      | literal found =>
          refine ⟨[] :: segments, .literal found :: left, last, rfl, ends.cons_literal found,
            by simp, ?_⟩
          intro first more same
          exact congrArg ([] :: ·) (joined first more same)
      | code c =>
          cases segments with
          | nil =>
              obtain rfl := empty.mp rfl
              refine ⟨[], [], c :: last, rfl, endsQuoted_nil, by simp, ?_⟩
              intro first more same
              rw [List.cons_append, codeOf, joined first more same]
              rfl
          | cons segment segments =>
              have some : left ≠ [] := fun none => List.cons_ne_nil _ _ (empty.mpr none)
              refine ⟨(c :: segment) :: segments, .code c :: left, last, rfl, ends.cons some _,
                by simp, ?_⟩
              intro first more same
              rw [List.cons_append, codeOf, joined first more same]
              rfl

theorem codeOf_code_append (code first : Text) (back : List Token) (more : List Text)
    (same : codeOf back = first :: more) :
    codeOf (code.map Token.code ++ back) = (code ++ first) :: more := by
  induction code with
  | nil => exact same
  | cons c code ih => rw [List.map_cons, List.cons_append, codeOf, ih]; rfl

/-! ## Names that count -/

/-- A place in code keeps its name in a segment of the code, which starts behind a quote. -/
theorem InCode.exists_segment {text before name after : Text} (place : InCode text before name)
    (whole : text = before ++ (name ++ after)) (stands : Stands before name after) :
    ∃ left start rest, start ++ (name ++ rest) ∈ codeSegments text ∧ Stands start name rest ∧
      before = left ++ start ∧ ∀ c ∈ left.getLast?, isQuote c = true := by
  obtain ⟨front, back, same, rfl⟩ := place
  obtain ⟨segments, left, last, rfl, ends, _, joined⟩ :=
    codeOf_append front (name.map Token.code ++ back)
  obtain ⟨first, more, split⟩ := List.exists_cons_of_ne_nil (codeOf_ne_nil back)
  obtain ⟨right, behind, _⟩ := (codeOf_place back).1 first (by rw [split]; rfl)
  have shown := tokens_text text
  rw [same, whole, List.flatMap_append, List.append_cancel_left_eq, List.flatMap_append,
    map_code_text, List.append_cancel_left_eq, behind, List.flatMap_append, map_code_text] at shown
  refine ⟨left.flatMap Token.text, last, first, ?_, ?_, ?_, ?_⟩
  · rw [codeSegments, same, joined _ _ (codeOf_code_append name first back more split)]
    exact List.mem_append_right _ List.mem_cons_self
  · rw [← shown, List.flatMap_append, map_code_text] at stands
    exact stands.tail.init
  · rw [List.flatMap_append, map_code_text]
  · exact ends.isQuote (same.trans (List.append_assoc _ _ _))

/-- A place in a literal keeps its name in the content of that literal. -/
theorem InLiteral.exists_literal {text before name after : Text}
    (place : InLiteral text before name) (whole : text = before ++ (name ++ after))
    (stands : Stands before name after) :
    ∃ literal ∈ literals text, ∃ inner rest, literal.content = inner ++ (name ++ rest) ∧
      Stands inner name rest := by
  obtain ⟨front, literal, back, inner, rest, same, content, rfl⟩ := place
  refine ⟨literal, mem_literalsOf.mpr (by simp [same]), inner, rest, content, ?_⟩
  have shown := tokens_text text
  rw [same, whole] at shown
  simp only [List.flatMap_append, List.flatMap_cons, Token.text, Literal.text, content,
    List.append_assoc, List.cons_append, List.append_cancel_left_eq, List.nil_append,
    List.cons.injEq, true_and] at shown
  rw [← shown] at stands
  have inside : Stands (front.flatMap Token.text ++ ([literal.quote] ++ inner)) name
      (rest ++ literal.quote :: back.flatMap Token.text) := stands
  exact inside.tail.tail.init

/-- A name stands whole in a text, at a place where it counts: in code with no dot in front of it,
or in a literal and without a dollar sign. -/
def Mentioned (text name : Text) : Prop :=
  ∃ before after, text = before ++ (name ++ after) ∧ Stands before name after ∧
    (InCode text before name ∧ before.getLast? ≠ some '.' ∨
      InLiteral text before name ∧ '$' ∉ name)

/-- A name that stands whole counts unless a dot stands in front of it in code, or it is in a
literal and has a dollar sign. -/
theorem mentioned_of_stands {before name after : Text} (stands : Stands before name after)
    (undotted : ¬InLiteral (before ++ (name ++ after)) before name → before.getLast? ≠ some '.')
    (plain : InLiteral (before ++ (name ++ after)) before name → '$' ∉ name) :
    Mentioned (before ++ (name ++ after)) name := by
  refine ⟨before, after, rfl, stands, ?_⟩
  by_cases inside : InLiteral (before ++ (name ++ after)) before name
  · exact Or.inr ⟨inside, plain inside⟩
  · exact Or.inl ⟨(inCode_or_inLiteral stands).resolve_right inside, undotted inside⟩

theorem getLast?_of_suffix {start before : Text} {c : Char} (ends : start <:+ before)
    (last : start.getLast? = some c) : before.getLast? = some c := by
  obtain ⟨left, rfl⟩ := ends
  rw [List.getLast?_append, last]
  rfl

theorem stands_core {front core back before name after rest : Text}
    (stands : Stands (front ++ before) name after)
    (whole : front ++ (core ++ back) = front ++ before ++ (name ++ after))
    (same : core = before ++ (name ++ rest)) : Stands before name rest := by
  rw [same] at whole
  simp only [List.append_assoc, List.append_cancel_left_eq] at whole
  rw [← whole] at stands
  exact stands.tail.init

theorem InCode.exists_after {text before name : Text} (place : InCode text before name) :
    ∃ after, text = before ++ (name ++ after) := by
  obtain ⟨front, back, same, rfl⟩ := place
  have shown := tokens_text text
  rw [same, List.flatMap_append, List.flatMap_append, map_code_text] at shown
  exact ⟨_, shown.symm⟩

theorem InLiteral.exists_after {text before name : Text} (place : InLiteral text before name) :
    ∃ after, text = before ++ (name ++ after) := by
  obtain ⟨front, literal, back, inner, rest, same, content, rfl⟩ := place
  refine ⟨rest ++ literal.quote :: back.flatMap Token.text, ?_⟩
  have shown := tokens_text text
  rw [same] at shown
  rw [← shown]
  simp [Token.text, Literal.text, content]

section Padding

variable {front middle back before name : Text}

/-- Removing padding leaves a place in code. -/
theorem InCode.core (opening : IsPadding front) (closing : IsPadding back) (solid : Solid name)
    (some : name ≠ []) (place : InCode (front ++ (middle ++ back)) before name) :
    ∃ inner, before = front ++ inner ∧ InCode middle inner name := by
  obtain ⟨first, last, same, rfl⟩ := place
  rw [tokens_padding opening closing] at same
  have apart {pad : Text} (padding : IsPadding pad) :
      ∀ x ∈ name.map Token.code, x ∉ pad.map Token.code := by
    intro x member other
    obtain ⟨c, part, rfl⟩ := List.mem_map.mp member
    obtain ⟨d, padded, same⟩ := List.mem_map.mp other
    cases same
    have outside := (padding c padded).1
    rw [solid c part] at outside
    cases outside
  obtain ⟨left, right, rfl, _, inner⟩ :=
    exists_between same (by simpa using some) (apart opening) (apart closing)
  refine ⟨left.flatMap Token.text, ?_, left, right, inner, rfl⟩
  rw [List.flatMap_append, map_code_text]

/-- Removing padding leaves a place in a literal. -/
theorem InLiteral.core (opening : IsPadding front) (closing : IsPadding back)
    (place : InLiteral (front ++ (middle ++ back)) before name) :
    ∃ inner, before = front ++ inner ∧ InLiteral middle inner name := by
  obtain ⟨first, literal, last, start, rest, same, content, rfl⟩ := place
  rw [tokens_padding opening closing] at same
  have apart (pad : Text) : ∀ x ∈ [Token.literal literal], x ∉ pad.map Token.code := by simp
  obtain ⟨left, right, rfl, _, inner⟩ :=
    exists_between same (List.cons_ne_nil _ _) (apart front) (apart back)
  refine ⟨left.flatMap Token.text ++ literal.quote :: start, ?_,
    left, literal, right, start, rest, inner, content, rfl⟩
  rw [List.flatMap_append, map_code_text, List.append_assoc]

/-- Padding keeps a place in code. -/
theorem InCode.padded (opening : IsPadding front) (closing : IsPadding back)
    (place : InCode middle before name) :
    InCode (front ++ (middle ++ back)) (front ++ before) name := by
  obtain ⟨first, last, same, rfl⟩ := place
  refine ⟨front.map Token.code ++ first, last ++ back.map Token.code, ?_, ?_⟩
  · rw [tokens_padding opening closing, same]
    simp
  · rw [List.flatMap_append, map_code_text]

/-- Padding keeps a place in a literal. -/
theorem InLiteral.padded (opening : IsPadding front) (closing : IsPadding back)
    (place : InLiteral middle before name) :
    InLiteral (front ++ (middle ++ back)) (front ++ before) name := by
  obtain ⟨first, literal, last, inner, rest, same, content, rfl⟩ := place
  refine ⟨front.map Token.code ++ first, literal, last ++ back.map Token.code, inner, rest, ?_,
    content, ?_⟩
  · rw [tokens_padding opening closing, same]
    simp
  · rw [List.flatMap_append, map_code_text, List.append_assoc]

/-- Removing padding moves no name. -/
theorem Mentioned.core (opening : IsPadding front) (closing : IsPadding back)
    (mentioned : Mentioned (front ++ (middle ++ back)) name) : Mentioned middle name := by
  obtain ⟨before, after, whole, stands, place⟩ := mentioned
  rcases place with ⟨place, undotted⟩ | ⟨place, plain⟩
  · obtain ⟨inner, rfl, within⟩ := place.core opening closing stands.solid stands.ne_nil
    obtain ⟨rest, split⟩ := within.exists_after
    refine ⟨inner, rest, split, stands_core stands whole split, Or.inl ⟨within, fun dot => ?_⟩⟩
    exact undotted (getLast?_of_suffix (List.suffix_append front inner) dot)
  · obtain ⟨inner, rfl, within⟩ := place.core opening closing
    obtain ⟨rest, split⟩ := within.exists_after
    exact ⟨inner, rest, split, stands_core stands whole split, Or.inr ⟨within, plain⟩⟩

end Padding

end TypeScriptGen.Syntax
