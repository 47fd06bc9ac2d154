import TypeScriptGen.Proofs.Syntax.TypeText

/-!
# Types with nodes of their own

Names, literal types without escapes, and arrays of such types have nodes without
verbatim parts. Their printed form is read as the same node, whatever stands
between the quotes and however many brackets follow.
-/

namespace TypeScriptGen

/-- A name is made of its parts. -/
theorem Name.ofParts?_parts (name : Name) : ofParts? name.parts = some name := by
  induction name with
  | identifier text => rfl
  | qualified left right ih =>
      cases parts : left.parts with
      | nil =>
          rw [parts] at ih
          cases ih
      | cons first rest =>
          rw [parts] at ih
          have whole : extend (.identifier first) rest = left := Option.some.inj ih
          rw [Name.parts, parts, List.cons_append, ofParts?, extend, List.foldl_append]
          exact congrArg (fun name => some (Name.qualified name right)) whole

namespace Syntax

/-! ## The edges of simple types -/

/-- What can stand at the start and at the end of a simple type. -/
def isEdge (c : Char) : Bool := Text.isReferencePart c || isQuote c

theorem isBlank_of_isEdge {c : Char} (edge : isEdge c = true) : Text.isBlank c = false := by
  rcases (Bool.or_eq_true _ _).mp edge with part | quote
  · exact Text.isBlank_of_isReferencePart part
  · exact isBlank_of_isQuote quote

/-- The first or the last character. -/
def AtEdge (c : Char) (text : Text) : Prop := c ∈ text.head? ∨ c ∈ text.getLast?

theorem AtEdge.mem {c : Char} {text : Text} (edge : AtEdge c text) : c ∈ text := by
  rcases edge with first | last
  · exact List.mem_of_mem_head? first
  · exact List.mem_of_mem_getLast? last

theorem isEdge_of_pieces {text : Text}
    (solid : ∀ piece ∈ Text.splitOn '.' text, piece ≠ [] ∧ Text.Solid piece) {c : Char}
    (edge : AtEdge c text) : isEdge c = true := by
  cases dot : c == '.' with
  | false =>
      obtain ⟨piece, among, inside⟩ := Text.exists_piece_of_mem (· == '.') edge.mem dot
      simp [isEdge, (solid piece among).2 c inside]
  | true =>
      -- a dot at an edge has an empty piece beside it
      obtain rfl := beq_iff_eq.mp dot
      have empty : [] ∈ Text.splitOn '.' text := by
        rcases edge with first | last
        · obtain ⟨rest, rfl⟩ := List.head?_eq_some_iff.mp first
          exact List.mem_cons_self
        · obtain ⟨front, rfl⟩ := List.getLast?_eq_some_iff.mp last
          rw [Text.splitOn, Text.splitWhere_append_stop rfl]
          exact List.mem_append_right _ List.mem_cons_self
      exact absurd rfl (solid [] empty).1

theorem exists_quote {text content : Text} (quoted : quotedContent text = some content) :
    ∃ quote, isQuote quote = true ∧ text = quote :: (content ++ [quote]) := by
  cases text with
  | nil => cases quoted
  | cons quote rest =>
      unfold quotedContent at quoted
      dsimp only at quoted
      obtain ⟨closed, same⟩ := Option.ite_none_right_eq_some.mp quoted
      simp only [Bool.and_eq_true, Bool.or_eq_true, decide_eq_true_eq] at closed
      obtain ⟨⟨⟨mark, last⟩, _⟩, _⟩ := closed
      obtain ⟨front, rfl⟩ := List.getLast?_eq_some_iff.mp last
      rw [List.dropLast_concat] at same
      refine ⟨quote, ?_, by rw [← Option.some.inj same]⟩
      rcases mark with rfl | rfl <;> rfl

theorem nonempty_of_isNumber {text : Text} (number : isNumber text = true) :
    ∀ piece ∈ Text.splitOn '.' text, piece ≠ [] := by
  unfold isNumber at number
  dsimp only at number
  intro piece among
  split at number
  · next whole same =>
      rw [same, List.mem_singleton] at among
      simp only [Bool.and_eq_true] at number
      rw [among]
      simpa using number.1
  · next whole part same =>
      simp only [same, List.mem_cons, List.not_mem_nil, or_false] at among
      simp only [Bool.and_eq_true] at number
      rcases among with rfl | rfl
      · simpa using number.1.1
      · simpa using number.2.1
  · cases number

theorem isEdge_of_isIdentifier {text : Text} (identifier : Text.isIdentifier text = true)
    {c : Char} (edge : AtEdge c text) : isEdge c = true := by
  simp [isEdge, Text.solid_of_isIdentifier identifier c edge.mem]

/-- Simple types start and end with a part of a name or number, or with a quote. -/
theorem isEdge_of_parseSimpleType {text : Text} {node : Node}
    (found : parseSimpleType text = some node) {c : Char} (edge : AtEdge c text) :
    isEdge c = true := by
  rcases parseSimpleType_cases found with ⟨identifier, _, _⟩ | ⟨identifier, _⟩ |
    ⟨name, dotted, _⟩ | ⟨content, quoted, _⟩ | ⟨number, _⟩
  · exact isEdge_of_isIdentifier identifier edge
  · exact isEdge_of_isIdentifier identifier edge
  · obtain ⟨parts, identifiers⟩ := dottedName_parts dotted
    refine isEdge_of_pieces (fun piece among => ?_) edge
    have identifier := identifiers piece (parts ▸ among)
    refine ⟨?_, Text.solid_of_isIdentifier identifier⟩
    rintro rfl
    cases identifier
  · obtain ⟨quote, mark, rfl⟩ := exists_quote quoted
    have same : c = quote := by
      rcases edge with first | last
      · exact (Option.some.inj first).symm
      · rw [← List.cons_append, List.getLast?_concat] at last
        exact (Option.some.inj last).symm
    rw [same, isEdge, mark, Bool.or_true]
  · exact isEdge_of_pieces
      (fun piece among => ⟨nonempty_of_isNumber number piece among,
        solid_of_isNumber number piece among⟩) edge

/-- With brackets behind it a type is not simple. -/
theorem parseSimpleType_brackets (text : Text) : parseSimpleType (text ++ ['[', ']']) = none := by
  cases found : parseSimpleType (text ++ ['[', ']']) with
  | none => rfl
  | some node =>
      have last : AtEdge ']' (text ++ ['[', ']']) := .inr (by simp)
      exact absurd (isEdge_of_parseSimpleType found last) (by decide)

/-! ## Nodes without verbatim parts -/

/-- The words that are literal types. -/
def truthWords : List Text := ["true".toList, "false".toList]

structure Digits (text : Text) : Prop where
  written : text ≠ []
  digits : ∀ c ∈ text, c.isDigit = true

/-- Digits, or digits on both sides of a point. -/
inductive Numeral : Text → Prop
  | whole {text : Text} (digits : Digits text) : Numeral text
  | decimal {whole part : Text} (front : Digits whole) (back : Digits part) :
      Numeral (whole ++ '.' :: part)

/-- A type without verbatim parts: a name, a literal that needs no escapes, or an array. -/
inductive Structured : Node → Prop
  | name {name : Text} (identifier : Text.isIdentifier name = true) (other : name ∉ truthWords) :
      Structured (.typeReference (.identifier name) [])
  | dotted {left : Name} {right : Text}
      (identifiers : ∀ part ∈ (Name.qualified left right).parts, Text.isIdentifier part = true) :
      Structured (.typeReference (.qualified left right) [])
  | truth {word : Text} (one : word ∈ truthWords) : Structured (.literalType (.raw word []))
  | quoted {content : Text} (plain : '"' ∉ content ∧ '\\' ∉ content) :
      Structured (.literalType (.stringLiteral content))
  | number {digits : Text} (numeral : Numeral digits) :
      Structured (.literalType (.numericLiteral digits))
  | array {element : Node} (inner : Structured element) : Structured (.arrayType element)

/-! ## What simple nodes are read from -/

theorem parseSimpleType_name {name : Text} (identifier : Text.isIdentifier name = true)
    (other : name ∉ truthWords) :
    parseSimpleType name = some (.typeReference (.identifier name) []) := by
  have plain : ¬(name = "true".toList || name = "false".toList) = true := by
    simpa [truthWords] using other
  rw [parseSimpleType, if_pos identifier, if_neg plain]

theorem parseSimpleType_truth {word : Text} (one : word ∈ truthWords) :
    parseSimpleType word = some (.literalType (.raw word [])) := by
  simp only [truthWords, List.mem_cons, List.not_mem_nil, or_false] at one
  rcases one with rfl | rfl <;> rfl

/-- A character that is no part of a reference stands in no identifier. -/
theorem isIdentifier_of_mem {text : Text} {c : Char} (member : c ∈ text)
    (outside : Text.isReferencePart c = false) : Text.isIdentifier text = false := by
  cases identifier : Text.isIdentifier text with
  | false => rfl
  | true =>
      rw [Text.solid_of_isIdentifier identifier c member] at outside
      cases outside

theorem parts_ne_nil (name : Name) : name.parts ≠ [] := by
  cases name <;> simp [Name.parts]

theorem exists_parts (left : Name) (right : Text) : ∃ first second rest,
    (Name.qualified left right).parts = first :: second :: rest := by
  obtain ⟨first, more, same⟩ := List.exists_cons_of_ne_nil (parts_ne_nil left)
  obtain ⟨second, rest, behind⟩ := List.exists_cons_of_ne_nil (List.concat_ne_nil right more)
  exact ⟨first, second, rest, by rw [Name.parts, same, List.cons_append, ← behind]⟩

theorem dot_mem_nameText (left : Name) (right : Text) :
    '.' ∈ Printer.nameText (.qualified left right) := by
  obtain ⟨first, second, rest, parts⟩ := exists_parts left right
  rw [Printer.nameText, parts, List.intercalate_cons_cons]
  simp

theorem parseSimpleType_dotted {left : Name} {right : Text}
    (identifiers : ∀ part ∈ (Name.qualified left right).parts, Text.isIdentifier part = true) :
    parseSimpleType (Printer.nameText (.qualified left right)) =
      some (.typeReference (.qualified left right) []) := by
  have clear : ∀ part ∈ (Name.qualified left right).parts, '.' ∉ part := fun part among inside =>
    absurd (Text.solid_of_isIdentifier (identifiers part among) '.' inside) (by decide)
  have dotted : dottedName (Printer.nameText (.qualified left right)) =
      some (.qualified left right) := by
    have pieces := Text.splitOn_intercalate (parts_ne_nil (.qualified left right)) clear
    have made := Name.ofParts?_parts (.qualified left right)
    obtain ⟨first, second, rest, parts⟩ := exists_parts left right
    rw [parts] at made identifiers
    unfold dottedName Printer.nameText
    rw [pieces, parts]
    exact (if_pos (List.all_eq_true.mpr identifiers)).trans made
  have compound := isIdentifier_of_mem (dot_mem_nameText left right) (by decide)
  rw [parseSimpleType, if_neg (by simp [compound]), dotted]

theorem quotedContent_guarded {content : Text} (plain : '"' ∉ content ∧ '\\' ∉ content) :
    quotedContent ('"' :: (content ++ ['"'])) = some content := by
  simp [quotedContent, plain.1, plain.2]

theorem parseSimpleType_quoted {content : Text} (plain : '"' ∉ content ∧ '\\' ∉ content) :
    parseSimpleType ('"' :: (content ++ ['"'])) = some (.literalType (.stringLiteral content)) := by
  have quote : '"' ∈ '"' :: (content ++ ['"']) := List.mem_cons_self
  have dotted : dottedName ('"' :: (content ++ ['"'])) = none := by
    cases found : dottedName ('"' :: (content ++ ['"'])) with
    | none => rfl
    | some name =>
        obtain ⟨parts, identifiers⟩ := dottedName_parts found
        obtain ⟨piece, among, inside⟩ := Text.exists_piece_of_mem (· == '.') quote rfl
        have part := Text.solid_of_isIdentifier (identifiers piece (parts ▸ among)) '"' inside
        exact absurd part (by decide)
  rw [parseSimpleType, if_neg (by simp [isIdentifier_of_mem quote (by decide)]), dotted,
    quotedContent_guarded plain]

theorem Digits.splitOn {text : Text} (digits : Digits text) : Text.splitOn '.' text = [text] :=
  Text.splitOn_of_not_mem fun member => absurd (digits.digits '.' member) (by decide)

theorem Digits.isIdentifier {text : Text} (digits : Digits text) :
    Text.isIdentifier text = false := by
  obtain ⟨c, rest, rfl⟩ := List.exists_cons_of_ne_nil digits.written
  cases start : Text.isIdentifierStart c with
  | false => simp [Text.isIdentifier, start]
  | true =>
      have digit := digits.digits c List.mem_cons_self
      rw [Text.isDigit_of_isIdentifierStart start] at digit
      cases digit

theorem Numeral.isNumber {text : Text} (numeral : Numeral text) : isNumber text = true := by
  cases numeral with
  | whole digits =>
      unfold Syntax.isNumber
      rw [digits.splitOn]
      simpa using ⟨digits.written, digits.digits⟩
  | decimal front back =>
      unfold Syntax.isNumber
      rw [Text.splitOn_append_separator, front.splitOn, back.splitOn]
      simpa using ⟨⟨front.written, front.digits⟩, back.written, back.digits⟩

theorem Numeral.isIdentifier {text : Text} (numeral : Numeral text) :
    Text.isIdentifier text = false := by
  cases numeral with
  | whole digits => exact digits.isIdentifier
  | decimal front back => exact isIdentifier_of_mem (c := '.') (by simp) (by decide)

theorem Numeral.exists_digits {text : Text} (numeral : Numeral text) :
    ∃ piece ∈ Text.splitOn '.' text, Digits piece := by
  cases numeral with
  | whole digits => exact ⟨_, by simp [digits.splitOn], digits⟩
  | decimal front back =>
      exact ⟨_, by simp [Text.splitOn_append_separator, front.splitOn], front⟩

theorem Numeral.unquoted {text : Text} (numeral : Numeral text) :
    ∀ c ∈ text, isQuote c = false := by
  intro c member
  have solid := solid_of_isNumber numeral.isNumber
  cases dot : c == '.' with
  | true => rw [beq_iff_eq.mp dot]; rfl
  | false =>
      obtain ⟨piece, among, inside⟩ := Text.exists_piece_of_mem (· == '.') member dot
      exact isQuote_of_isReferencePart (solid piece among c inside)

theorem parseSimpleType_number {text : Text} (numeral : Numeral text) :
    parseSimpleType text = some (.literalType (.numericLiteral text)) := by
  have dotted : dottedName text = none := by
    cases found : dottedName text with
    | none => rfl
    | some name =>
        obtain ⟨parts, identifiers⟩ := dottedName_parts found
        obtain ⟨piece, among, digits⟩ := numeral.exists_digits
        have identifier := identifiers piece (parts ▸ among)
        rw [digits.isIdentifier] at identifier
        cases identifier
  rw [parseSimpleType, if_neg (by simp [numeral.isIdentifier]), dotted,
    quotedContent_eq_none numeral.unquoted]
  exact if_pos numeral.isNumber

/-! ## Reading what was printed -/

/-- The text is what the node is printed as, and it is read as the node. -/
structure SpellsType (text : Text) (node : Node) : Prop where
  bare : Printer.standard.bare node = .ok text
  uncommented : node.leadingComment = []
  ungrouped : Printer.needsGroup node text = false
  written : text ≠ []
  visible : ∀ c, AtEdge c text → Text.isBlank c = false
  read : parseTypeWithin text.length text = node

theorem SpellsType.withComment {text : Text} {node : Node} (spells : SpellsType text node) :
    node.withComment text = text := by
  rw [Node.withComment, spells.uncommented]
  rfl

theorem SpellsType.trim {text : Text} {node : Node} (spells : SpellsType text node) :
    Text.trim text = text :=
  Text.trim_of_visible (fun c first => spells.visible c (.inl first))
    fun c last => spells.visible c (.inr last)

theorem SpellsType.simple {text : Text} {node : Node} (bare : Printer.standard.bare node = .ok text)
    (uncommented : node.leadingComment = []) (ungrouped : Printer.needsGroup node text = false)
    (written : text ≠ []) (found : parseSimpleType text = some node) : SpellsType text node := by
  refine ⟨bare, uncommented, ungrouped, written,
    fun c edge => isBlank_of_isEdge (isEdge_of_parseSimpleType found edge), ?_⟩
  obtain ⟨c, rest, rfl⟩ := List.exists_cons_of_ne_nil written
  rw [List.length_cons, parseTypeWithin, found]

/-- Brackets behind a text are read as an array of what the text is read as. -/
theorem SpellsType.array {text : Text} {node : Node} (spells : SpellsType text node) :
    SpellsType (text ++ ['[', ']']) (.arrayType node) := by
  refine ⟨?_, rfl, rfl, by simp, fun c edge => ?_, ?_⟩
  · refine (bind_ok spells.bare).trans ?_
    rw [spells.withComment, Printer.grouped, spells.ungrouped]
    rfl
  · rcases edge with first | last
    · rw [List.head?_append_of_ne_nil _ spells.written] at first
      exact spells.visible c (.inl first)
    · rw [List.getLast?_append] at last
      cases last
      rfl
  · have length : (text ++ ['[', ']']).length = text.length + 1 + 1 := by simp
    have some : ¬text.isEmpty = true := by simpa using spells.written
    rw [length, parseTypeWithin, parseSimpleType_brackets, arrayElement_brackets, spells.trim,
      if_neg some]
    change Node.arrayType (parseTypeWithin (text.length + 1) text) = _
    rw [parseTypeWithin_eq _ _ (Nat.le_succ _), spells.read]

theorem Structured.exists_spells {node : Node} (structured : Structured node) :
    ∃ text, SpellsType text node := by
  induction structured with
  | name identifier other =>
      refine ⟨_, .simple ?_ rfl rfl ?_ (parseSimpleType_name identifier other)⟩
      · exact congrArg Except.ok ((List.append_nil _).trans List.intercalate_singleton)
      · rintro rfl
        cases identifier
  | dotted identifiers =>
      refine ⟨_, .simple ?_ rfl rfl ?_ (parseSimpleType_dotted identifiers)⟩
      · exact congrArg Except.ok (List.append_nil _)
      · exact List.ne_nil_of_mem (dot_mem_nameText _ _)
  | truth one =>
      refine ⟨_, .simple rfl rfl rfl ?_ (parseSimpleType_truth one)⟩
      rintro rfl
      exact absurd one (by decide)
  | quoted plain =>
      refine ⟨_, .simple ?_ rfl rfl (List.cons_ne_nil _ _) (parseSimpleType_quoted plain)⟩
      exact congrArg Except.ok (Text.guard_of_plain _ plain)
  | number numeral =>
      refine ⟨_, .simple rfl rfl rfl ?_ (parseSimpleType_number numeral)⟩
      rintro rfl
      cases numeral.isNumber
  | array inner ih =>
      obtain ⟨text, spells⟩ := ih
      exact ⟨_, spells.array⟩

/-- A type without verbatim parts is printed, and its text is read as this type. -/
theorem parseType_print {node : Node} (structured : Structured node) :
    ∃ text, node.print = .ok text ∧ parseType text = node := by
  obtain ⟨text, spells⟩ := structured.exists_spells
  have printed : node.print = .ok text :=
    (bind_ok spells.bare).trans (congrArg Except.ok spells.withComment)
  refine ⟨text, printed, ?_⟩
  unfold parseType
  dsimp only
  rw [spells.trim, spells.read]

/-- A literal whose content looks like an array of arrays, under two layers of brackets. -/
theorem parseType_print_bracketed :
    Structured (.arrayType (.arrayType (.literalType (.stringLiteral "A.b[][]".toList)))) ∧
      ∃ text, Node.print (.arrayType (.arrayType (.literalType
          (.stringLiteral "A.b[][]".toList)))) = .ok text ∧
        parseType text = .arrayType (.arrayType (.literalType (.stringLiteral "A.b[][]".toList))) := by
  have structured : Structured
      (.arrayType (.arrayType (.literalType (.stringLiteral "A.b[][]".toList)))) :=
    .array (.array (.quoted (by decide)))
  exact ⟨structured, parseType_print structured⟩

end Syntax

end TypeScriptGen
