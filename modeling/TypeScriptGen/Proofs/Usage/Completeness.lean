import TypeScriptGen.Proofs.Usage.Mention

/-!
# The scan of parsed text is complete

However a text is parsed, a scan of its node finds every name that the text
mentions and that is no reserved word.
-/

namespace TypeScriptGen.Usage

open Syntax (InLiteral Mentioned)
open Text (Stands)

variable {text name : Text}

theorem mem_namesIn_of_child {node child : Node} (among : child ∈ node.children)
    (found : name ∈ namesIn child) : name ∈ namesIn node :=
  mem_namesIn.mpr (Or.inr ⟨child, among, found⟩)

theorem mem_namesIn_parseExpression (mentioned : Mentioned text name)
    (free : Syntax.isReserved name = false) : name ∈ namesIn (Syntax.parseExpression text) := by
  unfold Syntax.parseExpression
  dsimp only
  split
  · next plain =>
      rw [Bool.and_eq_true] at plain
      rw [mentioned.trim.eq_identifier plain.1, Node.identifier, mem_namesIn_named]
      exact List.mem_singleton.mpr rfl
  · exact mem_namesIn_raw_of_mentioned mentioned.trim free false

theorem mem_namesIn_parseStatement (mentioned : Mentioned text name)
    (free : Syntax.isReserved name = false) : name ∈ namesIn (Syntax.parseStatement text) := by
  unfold Syntax.parseStatement
  refine mem_namesIn_of_child List.mem_cons_self (mem_namesIn_parseExpression ?_ free)
  split
  · next ends => exact mentioned.trim.dropSemicolon ends
  · exact mentioned.trim

theorem mem_namesIn_parseSimpleType (mentioned : Mentioned text name)
    (free : Syntax.isReserved name = false) {node : Node}
    (found : Syntax.parseSimpleType text = some node) : name ∈ namesIn node := by
  rcases Syntax.parseSimpleType_cases found with ⟨identifier, reserved, _⟩ | ⟨identifier, rfl⟩ |
    ⟨full, dotted, rfl⟩ | ⟨content, quoted, rfl⟩ | ⟨number, _⟩
  · rw [mentioned.eq_identifier identifier, free] at reserved
    cases reserved
  · rw [mem_namesIn_typeReference, mentioned.eq_identifier identifier]
    exact List.mem_singleton.mpr rfl
  · exact mem_namesIn_typeReference.mpr (mentioned.mem_dottedName dotted)
  · obtain ⟨plain, inner, rest, rfl, stands⟩ := mentioned.exists_quoted quoted
    refine mem_namesIn_of_child List.mem_cons_self ?_
    rw [namesIn_stringLiteral]
    exact mem_namesInLiteral stands plain (not_mem_stopWords free)
  · rw [mentioned.not_isNumber] at number
    cases number

theorem mem_namesIn_parseTypeWithin (depth : Nat) (mentioned : Mentioned text name)
    (free : Syntax.isReserved name = false) :
    name ∈ namesIn (Syntax.parseTypeWithin depth text) := by
  induction depth generalizing text with
  | zero =>
      rw [Syntax.parseTypeWithin]
      cases simple : Syntax.parseSimpleType text with
      | none => exact mem_namesIn_raw_of_mentioned mentioned free true
      | some node => exact mem_namesIn_parseSimpleType mentioned free simple
  | succ depth ih =>
      rw [Syntax.parseTypeWithin]
      split
      · next node simple => exact mem_namesIn_parseSimpleType mentioned free simple
      · split
        · next element found =>
            exact mem_namesIn_of_child List.mem_cons_self (ih (mentioned.arrayElement found))
        · exact mem_namesIn_raw_of_mentioned mentioned free true

theorem exists_scan {node : Node} (complete : hasPlaceholder node = false)
    (found : name ∈ namesIn node) :
    ∃ tracker, Tracker.empty.scan (.node node) = (tracker, .ok ()) ∧
      tracker.isUsed name = true := by
  refine ⟨_, scan_node .empty rfl complete, ?_⟩
  exact List.contains_iff_mem.mpr ((mem_recordAll_empty _ _).mpr found)

/-- A name that stands whole in a text and is no reserved word is used by whatever the text is
parsed to: as long as no dot stands in front of it outside the literals, and it has no dollar sign
inside of them. -/
theorem isUsed_of_stands {before name after : Text} (stands : Stands before name after)
    (free : Syntax.isReserved name = false)
    (undotted : ¬InLiteral (before ++ (name ++ after)) before name → before.getLast? ≠ some '.')
    (plain : InLiteral (before ++ (name ++ after)) before name → '$' ∉ name) :
    ∀ parse ∈ [Syntax.parseExpression, Syntax.parseStatement, Syntax.parseType],
      ∃ tracker, Tracker.empty.scan (.node (parse (before ++ (name ++ after)))) =
          (tracker, .ok ()) ∧
        tracker.isUsed name = true := by
  have mentioned := Syntax.mentioned_of_stands stands undotted plain
  intro parse parser
  simp only [List.mem_cons, List.not_mem_nil, or_false] at parser
  rcases parser with rfl | rfl | rfl
  · exact exists_scan (Syntax.movable_parseExpression _).complete
      (mem_namesIn_parseExpression mentioned free)
  · exact exists_scan (Syntax.movable_parseStatement _).complete
      (mem_namesIn_parseStatement mentioned free)
  · exact exists_scan (Syntax.movable_parseType _).complete
      (mem_namesIn_parseTypeWithin _ mentioned.trim free)

/-- The element of an array behind a dot with blanks around it. -/
theorem isUsed_member_of_array :
    Stands "a . ".toList "Item".toList "[] | \"Kind\"".toList ∧
      ∃ tracker, Tracker.empty.scan
          (.node (Syntax.parseType "a . Item[] | \"Kind\"".toList)) = (tracker, .ok ()) ∧
        tracker.isUsed "Item".toList = true := by
  have stands : Stands "a . ".toList "Item".toList "[] | \"Kind\"".toList :=
    ⟨by decide, fun _ last => by cases last; decide, fun _ first => by cases first; decide⟩
  refine ⟨stands, ?_⟩
  exact isUsed_of_stands stands (by decide) (fun _ => by decide) (fun _ => by decide)
    Syntax.parseType (by simp)

end TypeScriptGen.Usage
