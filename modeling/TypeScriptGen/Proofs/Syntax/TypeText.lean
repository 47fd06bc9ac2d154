import TypeScriptGen.Proofs.Syntax.Parsed
import TypeScriptGen.Proofs.Syntax.Segmentation
import TypeScriptGen.Proofs.Text.Squeeze

/-!
# Which type texts are printed as they were written

Up to blanks, a type without quotes is printed as it was written, with one
exception: pairs of brackets at its end are taken off before the rest is looked
at, so where an operator stands in the rest, and no parenthesis opens it, the
rest gets parentheses of its own. The main statement says that this happens in
that case and in no other.
-/

namespace TypeScriptGen.Syntax

open Text (squeeze)

def isOperator (c : Char) : Bool := c == '|' || c == '&'

theorem isOperator_cases {c : Char} (operator : isOperator c = true) : c = '|' ∨ c = '&' := by
  simpa [isOperator] using operator

theorem isOperator_of_isReferencePart {c : Char} (part : Text.isReferencePart c = true) :
    isOperator c = false := by
  cases operator : isOperator c with
  | false => rfl
  | true => rcases isOperator_cases operator with rfl | rfl <;> exact absurd part (by decide)

/-- An operator stands in the text, and no parenthesis opens it. -/
structure IsOpenCompound (text : Text) : Prop where
  operator : ∃ c ∈ text, isOperator c = true
  opening : text.head? ≠ some '('

/-- Brackets at the end of a text that is compound without them. -/
structure Regroups (text : Text) : Prop where
  compound : IsOpenCompound text
  brackets : ['[', ']'] <:+ text

/-! ## The parts of a type text -/

theorem arrayElement_some {text element : Text} (found : arrayElement text = some element) :
    ∃ front, text = front ++ ['[', ']'] ∧ element = Text.trim front ∧ element ≠ [] := by
  unfold arrayElement at found
  split at found
  · next rest same =>
      obtain ⟨some, found⟩ := Option.ite_none_left_eq_some.mp found
      cases found
      refine ⟨rest.reverse, ?_, rfl, by simpa using some⟩
      rw [← List.reverse_reverse text, same]
      simp
  · cases found

theorem arrayElement_brackets (front : Text) :
    arrayElement (front ++ ['[', ']']) =
      if (Text.trim front).isEmpty then none else some (Text.trim front) := by
  have back : (front ++ ['[', ']']).reverse = ']' :: '[' :: front.reverse := by simp
  rw [arrayElement, back]
  simp only [List.reverse_reverse]

theorem solid_of_isNumber {text : Text} (number : isNumber text = true) :
    ∀ piece ∈ Text.splitOn '.' text, Text.Solid piece := by
  have digits {piece : Text} (all : piece.all Char.isDigit = true) : Text.Solid piece :=
    fun c member => Text.isReferencePart_of_isDigit (List.all_eq_true.mp all c member)
  unfold isNumber at number
  dsimp only at number
  intro piece among
  split at number
  · next whole same =>
      rw [same, List.mem_singleton] at among
      rw [Bool.and_eq_true] at number
      exact among ▸ digits number.2
  · next whole part same =>
      simp only [same, List.mem_cons, List.not_mem_nil, or_false] at among
      simp only [Bool.and_eq_true] at number
      rcases among with rfl | rfl
      · exact digits number.1.2
      · exact digits number.2.2
  · cases number

theorem quotedContent_eq_none {text : Text} (unquoted : ∀ c ∈ text, isQuote c = false) :
    quotedContent text = none := by
  cases text with
  | nil => rfl
  | cons c rest =>
      have plain := unquoted c List.mem_cons_self
      have double : c ≠ '"' := by rintro rfl; cases plain
      have single : c ≠ '\x27' := by rintro rfl; cases plain
      simp [quotedContent, double, single]

/-- Between the dots of a text without operators the pieces are solid. -/
theorem isOperator_of_pieces {text : Text}
    (solid : ∀ piece ∈ Text.splitOn '.' text, Text.Solid piece) :
    ∀ c ∈ text, isOperator c = false := by
  intro c member
  cases dot : c == '.' with
  | true => rw [beq_iff_eq.mp dot]; rfl
  | false =>
      obtain ⟨piece, among, inside⟩ := Text.exists_piece_of_mem (· == '.') member dot
      exact isOperator_of_isReferencePart (solid piece among c inside)

/-- Unless they are quoted, types with nodes of their own hold no operator and are printed as they
are. -/
theorem print_parseSimpleType {text : Text} {node : Node}
    (unquoted : ∀ c ∈ text, isQuote c = false) (found : parseSimpleType text = some node) :
    (∀ c ∈ text, isOperator c = false) ∧ Printer.standard.bare node = .ok text ∧
      node.leadingComment = [] ∧ Printer.needsGroup node text = false := by
  rcases parseSimpleType_cases found with ⟨identifier, _, rfl⟩ | ⟨identifier, rfl⟩ |
    ⟨name, dotted, rfl⟩ | ⟨content, quoted, _⟩ | ⟨number, rfl⟩
  · refine ⟨fun c member => ?_, rfl, rfl, rfl⟩
    exact isOperator_of_isReferencePart (Text.solid_of_isIdentifier identifier c member)
  · refine ⟨fun c member => ?_, ?_, rfl, rfl⟩
    · exact isOperator_of_isReferencePart (Text.solid_of_isIdentifier identifier c member)
    · change Except.ok (['.'].intercalate [text] ++ []) = _
      simp
  · obtain ⟨parts, identifiers⟩ := dottedName_parts dotted
    refine ⟨isOperator_of_pieces fun piece among => ?_, ?_, rfl, rfl⟩
    · exact Text.solid_of_isIdentifier (identifiers piece (parts ▸ among))
    · change Except.ok (['.'].intercalate name.parts ++ []) = _
      rw [parts, Text.intercalate_splitOn, List.append_nil]
  · rw [quotedContent_eq_none unquoted] at quoted
    cases quoted
  · exact ⟨isOperator_of_pieces (solid_of_isNumber number), rfl, rfl, rfl⟩

/-! ## Printing -/

/-- How the node of a type text is printed: as the text was written, unless it is regrouped; then
parentheses are added behind which only brackets follow. -/
structure PrintsAs (text printed : Text) (node : Node) : Prop where
  bare : Printer.standard.bare node = .ok printed
  uncommented : node.leadingComment = []
  grouped : Printer.needsGroup node printed = true ↔
    IsOpenCompound text ∧ ¬['[', ']'] <:+ text
  kept : ¬Regroups text → squeeze printed = squeeze text
  regrouped : Regroups text → ∃ stem brackets, squeeze text = stem ++ brackets ∧
    squeeze printed = '(' :: (stem ++ ')' :: brackets)

theorem PrintsAs.withComment {text printed : Text} {node : Node}
    (prints : PrintsAs text printed node) : node.withComment printed = printed := by
  rw [Node.withComment, prints.uncommented]
  rfl

theorem PrintsAs.print {text printed : Text} {node : Node} (prints : PrintsAs text printed node) :
    node.print = .ok printed :=
  (bind_ok prints.bare).trans (congrArg Except.ok prints.withComment)

theorem PrintsAs.simple {text : Text} {node : Node}
    (unquoted : ∀ c ∈ text, isQuote c = false) (found : parseSimpleType text = some node) :
    PrintsAs text text node := by
  obtain ⟨plain, bare, uncommented, ungrouped⟩ := print_parseSimpleType unquoted found
  have none (compound : IsOpenCompound text) : False := by
    obtain ⟨c, member, operator⟩ := compound.operator
    rw [plain c member] at operator
    cases operator
  refine ⟨bare, uncommented, ?_, fun _ => rfl, fun regroups => (none regroups.compound).elim⟩
  rw [ungrouped]
  exact ⟨nofun, fun compound => (none compound.1).elim⟩

theorem isOpenCompound_iff {text : Text} :
    IsOpenCompound text ↔
      (text.any (fun c => c == '|' || c == '&') && text.head? != some '(') = true := by
  rw [Bool.and_eq_true, List.any_eq_true, bne_iff_ne]
  exact ⟨fun compound => ⟨compound.operator, compound.opening⟩, fun both => ⟨both.1, both.2⟩⟩

theorem PrintsAs.raw {text : Text} (bare : ¬Regroups text) : PrintsAs text text (rawType text) := by
  refine ⟨rfl, rfl, ?_, fun _ => rfl, fun regroups => absurd regroups bare⟩
  change (text.any (fun c => c == '|' || c == '&') && text.head? != some '(') = true ↔ _
  rw [← isOpenCompound_iff]
  exact ⟨fun compound => ⟨compound, fun brackets => bare ⟨compound, brackets⟩⟩, And.left⟩

theorem isBlank_of_isOperator {c : Char} (operator : isOperator c = true) :
    Text.isBlank c = false := by
  rcases isOperator_cases operator with rfl | rfl <;> decide

/-- Neither brackets behind a text nor blanks around it are operators. -/
theorem mem_trim_of_isOperator {front : Text} {c : Char} (operator : isOperator c = true) :
    c ∈ front ++ ['[', ']'] ↔ c ∈ Text.trim front := by
  rw [Text.mem_trim (isBlank_of_isOperator operator), List.mem_append]
  refine or_iff_left fun bracket => ?_
  simp only [List.mem_cons, List.not_mem_nil, or_false] at bracket
  rcases bracket with rfl | rfl <;> cases operator

/-- Neither brackets behind a text nor blanks around it make it compound. -/
theorem isOpenCompound_brackets {front : Text}
    (visible : ∀ c ∈ (front ++ ['[', ']']).head?, Text.isBlank c = false)
    (some : Text.trim front ≠ []) :
    IsOpenCompound (front ++ ['[', ']']) ↔ IsOpenCompound (Text.trim front) := by
  have first : (front ++ ['[', ']']).head? = front.head? := by
    cases front with
    | nil => exact absurd rfl some
    | cons c front => rfl
  rw [first] at visible
  have opening : (Text.trim front).head? = front.head? := by
    rw [← Text.head?_squeeze visible, ← Text.squeeze_trim,
      Text.head?_squeeze (Text.visible_trim front)]
  constructor
  · rintro ⟨⟨c, member, operator⟩, open'⟩
    exact ⟨⟨c, (mem_trim_of_isOperator operator).mp member, operator⟩, by rwa [opening, ← first]⟩
  · rintro ⟨⟨c, member, operator⟩, open'⟩
    exact ⟨⟨c, (mem_trim_of_isOperator operator).mpr member, operator⟩, by rwa [first, ← opening]⟩

theorem squeeze_brackets (text : Text) :
    squeeze (text ++ ['[', ']']) = squeeze text ++ ['[', ']'] := Text.squeeze_append _ _

/-- An array of an element that is printed so is itself printed so. -/
theorem PrintsAs.array {front printed : Text} {node : Node}
    (visible : ∀ c ∈ (front ++ ['[', ']']).head?, Text.isBlank c = false)
    (some : Text.trim front ≠ []) (element : PrintsAs (Text.trim front) printed node) :
    PrintsAs (front ++ ['[', ']']) (Printer.grouped node printed ++ ['[', ']'])
      (.arrayType node) := by
  have brackets : ['[', ']'] <:+ front ++ ['[', ']'] := List.suffix_append _ _
  have compound := isOpenCompound_brackets visible some
  refine ⟨?_, rfl, ?_, fun whole => ?_, fun regroups => ?_⟩
  · refine (bind_ok element.bare).trans ?_
    rw [element.withComment]
    rfl
  · exact ⟨nofun, fun compound => absurd brackets compound.2⟩
  · have loose : ¬IsOpenCompound (Text.trim front) := fun inner =>
      whole ⟨compound.mpr inner, brackets⟩
    have ungrouped : ¬Printer.needsGroup node printed = true := fun group =>
      loose (element.grouped.mp group).1
    rw [Printer.grouped, if_neg ungrouped, squeeze_brackets, squeeze_brackets,
      element.kept fun regroups => loose regroups.compound, Text.squeeze_trim]
  · have inner := compound.mp regroups.compound
    by_cases more : ['[', ']'] <:+ Text.trim front
    · have ungrouped : ¬Printer.needsGroup node printed = true := fun group =>
        (element.grouped.mp group).2 more
      obtain ⟨stem, pairs, same, written⟩ := element.regrouped ⟨inner, more⟩
      refine ⟨stem, pairs ++ ['[', ']'], ?_, ?_⟩
      · rw [squeeze_brackets, ← Text.squeeze_trim, same, List.append_assoc]
      · rw [Printer.grouped, if_neg ungrouped, squeeze_brackets, written]
        simp
    · have group := element.grouped.mpr ⟨inner, more⟩
      refine ⟨squeeze front, ['[', ']'], squeeze_brackets front, ?_⟩
      have kept := element.kept fun regroups => more regroups.brackets
      rw [Text.squeeze_trim] at kept
      rw [Printer.grouped, if_pos group, squeeze_brackets, List.cons_append, ← kept]
      change '(' :: squeeze (printed ++ [')']) ++ ['[', ']'] = _
      rw [Text.squeeze_append, List.cons_append, List.append_assoc]
      rfl

/-- Reading follows the pairs of brackets at the end, so the induction does. -/
theorem exists_printsAs (depth : Nat) {text : Text} (enough : text.length ≤ depth)
    (unquoted : ∀ c ∈ text, isQuote c = false)
    (visible : ∀ c ∈ text.head?, Text.isBlank c = false) :
    ∃ printed, PrintsAs text printed (parseTypeWithin depth text) := by
  induction depth generalizing text with
  | zero =>
      rw [List.length_eq_zero_iff.mp (Nat.le_zero.mp enough)]
      exact ⟨[], .raw fun regroups => by simpa using regroups.brackets.length_le⟩
  | succ depth ih =>
      rw [parseTypeWithin]
      cases simple : parseSimpleType text with
      | some node => exact ⟨text, .simple unquoted simple⟩
      | none =>
          dsimp only
          cases found : arrayElement text with
          | none =>
              refine ⟨text, .raw fun regroups => ?_⟩
              obtain ⟨front, rfl⟩ := regroups.brackets
              obtain ⟨c, member, operator⟩ := regroups.compound.operator
              have inside := (mem_trim_of_isOperator operator).mp member
              rw [arrayElement_brackets] at found
              split at found
              · next empty =>
                  rw [List.isEmpty_iff.mp empty] at inside
                  cases inside
              · cases found
          | some element =>
              obtain ⟨front, rfl, rfl, some⟩ := arrayElement_some found
              have shorter := arrayElement_length _ _ found
              have inside (c : Char) (member : c ∈ Text.trim front) : isQuote c = false :=
                unquoted c (List.mem_append_left _ ((Text.trim_isInfix front).subset member))
              obtain ⟨printed, prints⟩ := ih (by omega) inside (Text.visible_trim front)
              exact ⟨_, prints.array visible some⟩

/-- A type without quotes is always printed, and up to blanks as it was written, unless brackets
stand at its end, an operator in front of them and no parenthesis at its start. In that case
parentheses are added. -/
theorem squeeze_print_parseType_iff {text : Text} (unquoted : ∀ c ∈ text, isQuote c = false) :
    ∃ printed, (parseType text).print = .ok printed ∧
      (squeeze printed = squeeze text ↔ ¬Regroups (Text.trim text)) ∧
      (Regroups (Text.trim text) → ∃ stem brackets, squeeze text = stem ++ brackets ∧
        squeeze printed = '(' :: (stem ++ ')' :: brackets)) := by
  have inside (c : Char) (member : c ∈ Text.trim text) : isQuote c = false :=
    unquoted c ((Text.trim_isInfix text).subset member)
  obtain ⟨printed, prints⟩ :=
    exists_printsAs (Text.trim text).length (Nat.le_refl _) inside (Text.visible_trim text)
  have kept := prints.kept
  have regrouped := prints.regrouped
  rw [Text.squeeze_trim] at kept regrouped
  refine ⟨printed, prints.print, ⟨fun same regroups => ?_, kept⟩, regrouped⟩
  obtain ⟨stem, brackets, whole, written⟩ := regrouped regroups
  rw [same, whole] at written
  have size := congrArg List.length written
  simp only [List.length_append, List.length_cons] at size
  omega

/-- Blanks and generics are kept, and so are the parentheses that open an array of a union. -/
theorem squeeze_print_generic_array :
    (∀ c ∈ "( A | Map<B, C[]> ) [ ] []".toList, isQuote c = false) ∧
      ∃ printed, (parseType "( A | Map<B, C[]> ) [ ] []".toList).print = .ok printed ∧
        squeeze printed = "(A|Map<B,C[]>)[][]".toList := by
  have unquoted : ∀ c ∈ "( A | Map<B, C[]> ) [ ] []".toList, isQuote c = false :=
    isQuote_of_any rfl
  obtain ⟨printed, shown, kept, _⟩ := squeeze_print_parseType_iff unquoted
  refine ⟨unquoted, printed, shown, kept.mpr fun regroups => ?_⟩
  exact regroups.compound.opening (by decide)

/-- A union that ends in an array of its last member becomes an array of the whole union. -/
theorem print_parseType_regrouped :
    (parseType "A | B[]".toList).print = .ok "(A | B)[]".toList ∧
      (∀ c ∈ "A | B[]".toList, isQuote c = false) ∧
      squeeze "(A | B)[]".toList ≠ squeeze "A | B[]".toList := by
  exact ⟨by rfl, isQuote_of_any rfl, by decide⟩

end TypeScriptGen.Syntax
