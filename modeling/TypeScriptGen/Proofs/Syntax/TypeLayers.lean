import TypeScriptGen.Proofs.Syntax.TypeNodes

/-!
# Pairs of brackets behind a type

Reading takes the pairs of brackets off the end of a type, with the blanks between
them, down to a stem. A stem with an operator is kept verbatim, and the arrays
around it are printed with the parentheses around the stem.
-/

namespace TypeScriptGen.Syntax

/-- A text is a stem with so many pairs of brackets behind it. -/
inductive Layered : Text → Text → Nat → Prop
  | stem {text : Text} (bare : ¬['[', ']'] <:+ text) : Layered text text 0
  | brackets {front stem : Text} {count : Nat} (inner : Layered (Text.trim front) stem count) :
      Layered (front ++ ['[', ']']) stem (count + 1)

theorem exists_layered (text : Text) : ∃ stem count, Layered text stem count := by
  induction length : text.length using Nat.strongRecOn generalizing text with
  | ind size ih =>
      by_cases brackets : ['[', ']'] <:+ text
      · obtain ⟨front, rfl⟩ := brackets
        have shorter := Text.trim_length_le front
        rw [List.length_append] at length
        obtain ⟨stem, count, inner⟩ := ih (Text.trim front).length
          (by simp only [List.length_cons, List.length_nil] at length; omega) _ rfl
        exact ⟨stem, count + 1, .brackets inner⟩
      · exact ⟨text, 0, .stem brackets⟩

/-- So many arrays around a node. -/
def arrays : Nat → Node → Node
  | 0, node => node
  | count + 1, node => .arrayType (arrays count node)

def pairs : Nat → Text
  | 0 => []
  | count + 1 => pairs count ++ ['[', ']']

section Reading

variable {text stem : Text} {count : Nat}

theorem parseSimpleType_operator (unquoted : ∀ c ∈ text, isQuote c = false)
    (operator : ∃ c ∈ text, isOperator c = true) : parseSimpleType text = none := by
  cases found : parseSimpleType text with
  | none => rfl
  | some node =>
      obtain ⟨c, member, operator⟩ := operator
      rw [(print_parseSimpleType unquoted found).1 c member] at operator
      cases operator

/-- A text that is neither simple nor has brackets behind it is kept verbatim. -/
theorem parseTypeWithin_bare (simple : parseSimpleType text = none)
    (bare : ¬['[', ']'] <:+ text) : parseTypeWithin text.length text = rawType text := by
  have element : arrayElement text = none := by
    cases found : arrayElement text with
    | none => rfl
    | some element =>
        obtain ⟨front, rfl, _⟩ := arrayElement_some found
        exact absurd (List.suffix_append _ _) bare
  cases text.length with
  | zero => rw [parseTypeWithin, simple]; rfl
  | succ depth => rw [parseTypeWithin, simple, element]

/-- A text with an operator is read as arrays around its stem, which is kept verbatim. -/
theorem Layered.read (layered : Layered text stem count) (unquoted : ∀ c ∈ text, isQuote c = false)
    (operator : ∃ c ∈ text, isOperator c = true) :
    parseTypeWithin text.length text = arrays count (rawType stem) := by
  induction layered with
  | stem bare => exact parseTypeWithin_bare (parseSimpleType_operator unquoted operator) bare
  | @brackets front stem count inner ih =>
      have simple := parseSimpleType_operator unquoted operator
      obtain ⟨c, member, mark⟩ := operator
      have inside := (mem_trim_of_isOperator mark).mp member
      have some : ¬(Text.trim front).isEmpty = true := by
        simpa using List.ne_nil_of_mem inside
      have quiet (d : Char) (among : d ∈ Text.trim front) : isQuote d = false :=
        unquoted d (List.mem_append_left _ ((Text.trim_isInfix front).subset among))
      have read := ih quiet ⟨c, inside, mark⟩
      have shorter := Text.trim_length_le front
      have length : (front ++ ['[', ']']).length = front.length + 1 + 1 := by simp
      rw [length, parseTypeWithin, simple, arrayElement_brackets, if_neg some]
      change Node.arrayType (parseTypeWithin (front.length + 1) (Text.trim front)) = _
      rw [parseTypeWithin_eq _ _ (by omega), read]
      rfl

end Reading

/-- The stem of arrays is printed in parentheses unless one opens it. -/
def enclosed (stem : Text) : Text :=
  if stem.head? = some '(' then stem else '(' :: (stem ++ [')'])

theorem grouped_rawType {stem : Text} (operator : ∃ c ∈ stem, isOperator c = true) :
    Printer.grouped (rawType stem) stem = enclosed stem := by
  obtain ⟨c, member, mark⟩ := operator
  have any : stem.any (fun c => c == '|' || c == '&') = true :=
    List.any_eq_true.mpr ⟨c, member, mark⟩
  change (if (stem.any (fun c => c == '|' || c == '&') && stem.head? != some '(') = true then
    '(' :: stem ++ [')'] else stem) = enclosed stem
  rw [any, enclosed, Bool.true_and]
  by_cases opened : stem.head? = some '('
  · simp [opened]
  · simp [opened]

theorem bare_arrays {stem : Text} (operator : ∃ c ∈ stem, isOperator c = true) (count : Nat) :
    Printer.standard.bare (arrays (count + 1) (rawType stem)) =
      .ok (enclosed stem ++ pairs (count + 1)) := by
  induction count with
  | zero => exact congrArg (fun text => Except.ok (text ++ ['[', ']'])) (grouped_rawType operator)
  | succ count ih =>
      rw [arrays, Printer.bare]
      refine (bind_ok ih).trans ?_
      change Except.ok (enclosed stem ++ pairs (count + 1) ++ ['[', ']']) = _
      rw [List.append_assoc]
      rfl

/-- What opens a text opens its stem. -/
theorem Layered.head? {text stem : Text} {count : Nat} (layered : Layered text stem count)
    (opened : text.head? = some '(') : stem.head? = some '(' := by
  induction layered with
  | stem bare => exact opened
  | @brackets front stem count inner ih =>
      refine ih ?_
      cases front with
      | nil => cases opened
      | cons c front =>
          cases opened
          rw [← List.nil_append ('(' :: front), Text.trim_around rfl [] front]
          rfl

/-- The text of an array is the whole text in parentheses exactly if neither a parenthesis opens the
text nor brackets end it. -/
theorem Layered.enclosed_iff {text stem : Text} {count : Nat} (layered : Layered text stem count) :
    enclosed stem ++ pairs (count + 1) = '(' :: (text ++ [')', '[', ']']) ↔
      text.head? ≠ some '(' ∧ ¬['[', ']'] <:+ text := by
  cases layered with
  | stem bare =>
      by_cases opened : text.head? = some '('
      · refine ⟨fun same => ?_, fun both => absurd opened both.1⟩
        have size := congrArg List.length same
        simp [enclosed, opened, pairs] at size
      · simp [enclosed, opened, pairs, bare]
  | @brackets front stem count inner =>
      refine ⟨fun same => ?_, fun both => absurd (List.suffix_append _ _) both.2⟩
      -- in front of the last brackets there are brackets on one side, a parenthesis on the other
      have last : '(' :: (front ++ ['[', ']'] ++ [')', '[', ']']) =
          ('(' :: (front ++ ['[', ']'] ++ [')'])) ++ ['[', ']'] := by simp
      rw [last, pairs, ← List.append_assoc] at same
      have ends := congrArg List.reverse (List.append_cancel_right same)
      simp [pairs] at ends

/-! ## Operators outside brackets -/

def openings : List Char := ['(', '[', '\x7b', '<']

def closings : List Char := [')', ']', '\x7d', '>']

/-- How many brackets are open behind a text, when so many are open in front of it. The arrow of a
function type is no bracket, and a bracket that closes nothing is passed over. -/
def openBehind : Nat → Text → Nat
  | depth, [] => depth
  | depth, '=' :: '>' :: rest => openBehind depth rest
  | depth, c :: rest =>
      openBehind
        (if openings.contains c then depth + 1 else if closings.contains c then depth - 1 else depth)
        rest

/-- An operator stands outside all brackets. -/
def OperatorOutside (text : Text) : Prop :=
  ∃ front c back, text = front ++ c :: back ∧ isOperator c = true ∧ openBehind 0 front = 0

theorem isBlank_of_bracket {c : Char} (bracket : c ∈ openings ++ closings) :
    Text.isBlank c = false := by
  have visible : (openings ++ closings).all (fun mark => !Text.isBlank mark) = true := rfl
  simpa using List.all_eq_true.mp visible c bracket

theorem openBehind_trimStart (depth : Nat) (text : Text) :
    openBehind depth (Text.trimStart text) = openBehind depth text := by
  induction text with
  | nil => rfl
  | cons c text ih =>
      unfold Text.trimStart at ih ⊢
      cases blank : Text.isBlank c with
      | false => rw [List.dropWhile_cons_of_neg (by simp [blank])]
      | true =>
          have arrow : c ≠ '=' := by
            rintro rfl
            exact absurd blank (by decide)
          have opening : c ∉ openings := fun member => by
            rw [isBlank_of_bracket (List.mem_append_left _ member)] at blank
            cases blank
          have closing : c ∉ closings := fun member => by
            rw [isBlank_of_bracket (List.mem_append_right _ member)] at blank
            cases blank
          rw [List.dropWhile_cons_of_pos blank, ih, openBehind]
          · simp [opening, closing]
          · exact fun _ same _ => arrow same

namespace OperatorOutside

variable {text : Text}

theorem exists_operator (outside : OperatorOutside text) : ∃ c ∈ text, isOperator c = true := by
  obtain ⟨front, c, back, rfl, operator, _⟩ := outside
  exact ⟨c, by simp, operator⟩

theorem append (outside : OperatorOutside text) (more : Text) : OperatorOutside (text ++ more) := by
  obtain ⟨front, c, back, rfl, operator, closed⟩ := outside
  exact ⟨front, c, back ++ more, by simp, operator, closed⟩

theorem trim (outside : OperatorOutside text) : OperatorOutside (Text.trim text) := by
  obtain ⟨front, c, back, rfl, operator, closed⟩ := outside
  refine ⟨Text.trimStart front, c, Text.trimEnd back, ?_, operator, ?_⟩
  · exact Text.trim_around (isBlank_of_isOperator operator) front back
  · rw [openBehind_trimStart, closed]

/-- An operator stands in front of the brackets at the end. -/
theorem of_brackets (outside : OperatorOutside (text ++ ['[', ']'])) : OperatorOutside text := by
  obtain ⟨front, c, back, same, operator, closed⟩ := outside
  rcases List.append_eq_append_iff.mp same with ⟨more, _, behind⟩ | ⟨more, rfl, behind⟩
  · have among : c ∈ ['[', ']'] := by simp [behind]
    have bracket : c = '[' ∨ c = ']' := by simpa using among
    rcases bracket with rfl | rfl <;> cases operator
  · cases more with
    | nil =>
        cases behind
        cases operator
    | cons d more =>
        obtain ⟨rfl, _⟩ := List.cons.inj behind
        exact ⟨front, c, more, rfl, operator, closed⟩

theorem stem {stem : Text} {count : Nat} (outside : OperatorOutside text)
    (layered : Layered text stem count) : OperatorOutside stem := by
  induction layered with
  | stem bare => exact outside
  | brackets inner ih => exact ih outside.of_brackets.trim

end OperatorOutside

/-! ## Arrays of types given as text -/

/-- A type that a parenthesis opens and another one ends is kept verbatim. -/
theorem parseTypeWithin_group {text inside : Text} (group : text = '(' :: (inside ++ [')'])) :
    parseTypeWithin text.length text = rawType text := by
  refine parseTypeWithin_bare ?_ ?_
  · cases found : parseSimpleType text with
    | none => rfl
    | some node =>
        have first : AtEdge '(' text := .inl (by rw [group]; rfl)
        exact absurd (isEdge_of_parseSimpleType found first) (by decide)
  · rintro ⟨front, same⟩
    rw [group] at same
    have ends := congrArg List.reverse same
    simp at ends

/-- An array of a type without quotes is always printed. An operator outside all brackets stands in
its stem, and the text of a group is printed as it is. -/
theorem exists_print_array {text : Text} (unquoted : ∀ c ∈ text, isQuote c = false) :
    ∃ type, (Node.arrayType (parseType text)).print = .ok type ∧
      (OperatorOutside text → ∃ stem count, Layered (Text.trim text) stem count ∧
        OperatorOutside stem ∧ type = enclosed stem ++ pairs (count + 1)) ∧
      ∀ inside, Text.trim text = '(' :: (inside ++ [')']) →
        type = Text.trim text ++ ['[', ']'] := by
  have quiet (c : Char) (member : c ∈ Text.trim text) : isQuote c = false :=
    unquoted c ((Text.trim_isInfix text).subset member)
  obtain ⟨element, prints⟩ : ∃ element, PrintsAs (Text.trim text) element (parseType text) :=
    exists_printsAs _ (Nat.le_refl _) quiet (Text.visible_trim text)
  have bare : (Node.arrayType (parseType text)).print =
      .ok (Printer.grouped (parseType text) element ++ ['[', ']']) := by
    refine bind_ok ((bind_ok prints.bare).trans ?_)
    rw [prints.withComment]
    rfl
  refine ⟨_, bare, fun outside => ?_, fun inside group => ?_⟩
  · obtain ⟨stem, count, layered⟩ := exists_layered (Text.trim text)
    have stays := outside.trim.stem layered
    have read : parseType text = arrays count (rawType stem) :=
      layered.read quiet outside.trim.exists_operator
    have shown : (Node.arrayType (parseType text)).print =
        .ok (enclosed stem ++ pairs (count + 1)) := by
      rw [read]
      exact bind_ok (bare_arrays stays.exists_operator count)
    exact ⟨stem, count, layered, stays, Except.ok.inj (bare.symm.trans shown)⟩
  · have read : parseType text = rawType (Text.trim text) := parseTypeWithin_group group
    have opened : Printer.grouped (rawType (Text.trim text)) (Text.trim text) = Text.trim text := by
      rw [group]
      simp [Printer.grouped, Printer.needsGroup, rawType]
    rw [read] at prints ⊢
    have same : Text.trim text = element := Except.ok.inj prints.bare
    rw [← same, opened]

end TypeScriptGen.Syntax
