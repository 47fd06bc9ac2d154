import TypeScriptGen.Proofs.Statement.Shown
import TypeScriptGen.Syntax.Parse

/-!
# Parsed text shows its names

The node that a text is parsed to shows its names wherever it is moved to:
names and literals are cut out of the text, and anything else stays verbatim.
-/

namespace TypeScriptGen.Syntax

open Node (Movable)

theorem dottedName_parts {text : Text} {name : Name} (found : dottedName text = some name) :
    name.parts = Text.splitOn '.' text ∧ ∀ part ∈ name.parts, Text.isIdentifier part = true := by
  unfold dottedName at found
  split at found
  · next first second rest same =>
      split at found
      · next all =>
          cases found
          have parts : ((Name.identifier first).extend (second :: rest)).parts =
              first :: second :: rest := Name.parts_extend _ _
          rw [parts, same]
          exact ⟨rfl, List.all_eq_true.mp all⟩
      · cases found
  · cases found

/-- The kinds of types that have nodes of their own. -/
theorem parseSimpleType_cases {text : Text} {node : Node}
    (found : parseSimpleType text = some node) :
    (Text.isIdentifier text = true ∧ isReserved text = true ∧
      node = .literalType (.raw text [])) ∨
    (Text.isIdentifier text = true ∧ node = .typeReference (.identifier text) []) ∨
    (∃ name, dottedName text = some name ∧ node = .typeReference name []) ∨
    (∃ content, quotedContent text = some content ∧
      node = .literalType (.stringLiteral content)) ∨
    (isNumber text = true ∧ node = .literalType (.numericLiteral text)) := by
  unfold parseSimpleType at found
  split at found
  · next identifier =>
      split at found
      · next truth =>
          cases found
          refine Or.inl ⟨identifier, ?_, rfl⟩
          simp only [Bool.or_eq_true, decide_eq_true_eq] at truth
          rcases truth with rfl | rfl <;> decide
      · cases found
        exact Or.inr (Or.inl ⟨identifier, rfl⟩)
  · split at found
    · next name dotted =>
        cases found
        exact Or.inr (Or.inr (Or.inl ⟨name, dotted, rfl⟩))
    · split at found
      · next content quoted =>
          cases found
          exact Or.inr (Or.inr (Or.inr (Or.inl ⟨content, quoted, rfl⟩)))
      · split at found
        · next number =>
            cases found
            exact Or.inr (Or.inr (Or.inr (Or.inr ⟨number, rfl⟩)))
        · cases found

theorem movable_verbatim (text : Text) : Movable (.raw text []) := by
  have known : ∀ name ∈ Usage.namesIn (.raw text []), name <:+: text ∧ Text.Solid name := by
    intro name member
    rcases Usage.mem_namesIn.mp member with own | ⟨child, among, _⟩
    · exact Usage.namesInCode_isInfix own
    · cases among
  exact .of_solid ⟨rfl, text, rfl, fun name member => (known name member).1⟩
    fun name member => (known name member).2

theorem movable_parseSimpleType {text : Text} {node : Node}
    (found : parseSimpleType text = some node) : Movable node := by
  rcases parseSimpleType_cases found with ⟨_, _, rfl⟩ | ⟨identifier, rfl⟩ | ⟨name, dotted, rfl⟩ |
    ⟨content, _, rfl⟩ | ⟨_, rfl⟩
  · exact .literalType (movable_verbatim text)
  · refine .typeReference fun part member => ?_
    rw [List.mem_singleton.mp member]
    exact Text.solid_of_isIdentifier identifier
  · exact .typeReference fun part member =>
      Text.solid_of_isIdentifier ((dottedName_parts dotted).2 part member)
  · exact .literalType (.stringLiteral content)
  · exact .literalType (.numericLiteral text)

theorem movable_parseTypeWithin (depth : Nat) (text : Text) :
    Movable (parseTypeWithin depth text) := by
  induction depth generalizing text with
  | zero =>
      rw [parseTypeWithin]
      cases simple : parseSimpleType text with
      | none => exact .raw true text
      | some node => exact movable_parseSimpleType simple
  | succ depth ih =>
      rw [parseTypeWithin]
      split
      · next node simple => exact movable_parseSimpleType simple
      · split
        · next element _ => exact .arrayType (ih element)
        · exact .raw true text

theorem movable_parseType (text : Text) : Movable (parseType text) :=
  movable_parseTypeWithin _ _

theorem movable_parseExpression (text : Text) : Movable (parseExpression text) := by
  unfold parseExpression
  dsimp only
  split
  · next plain =>
      rw [Bool.and_eq_true] at plain
      exact .identifier (Text.solid_of_isIdentifier plain.1)
  · exact .raw false _

theorem movable_parseStatement (text : Text) : Movable (parseStatement text) :=
  .expressionStatement (movable_parseExpression _)

/-! ## Printed expressions -/

theorem bare_parseExpression (printer : Printer) (text : Text) :
    Printer.bare printer (parseExpression text) = .ok (Text.trim text) := by
  unfold parseExpression
  dsimp only
  split
  · exact congrArg Except.ok List.intercalate_singleton
  · rfl

theorem withComment_parseExpression (text shown : Text) :
    (parseExpression text).withComment shown = shown := by
  unfold parseExpression
  dsimp only
  split <;> rfl

/-- An expression is printed as its text without the blanks around it. -/
theorem print_parseExpression (printer : Printer) (text : Text) :
    printer.print (parseExpression text) = .ok (Text.trim text) :=
  (bind_ok (bare_parseExpression printer text)).trans
    (congrArg Except.ok (withComment_parseExpression text _))

end TypeScriptGen.Syntax
