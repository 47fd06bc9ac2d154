import TypeScriptGen.Proofs.Declaration.Drafted
import TypeScriptGen.Proofs.Syntax.TypeLayers

/-!
# Aliases of arrays

An array of a type given as text is meant to be one of the whole text. It is where
the text gets parentheses or has its own, and this is decided by how the text
begins and ends: the main statement says when, for the texts with an operator
outside all brackets.
-/

namespace TypeScriptGen.AliasDraft

open Syntax

/-- An alias is printed with the texts of its parameters and of its type. -/
theorem print_node {draft : AliasDraft} {type : Node} {shown : Text} (sound : draft.Sound)
    (printed : type.print = .ok shown) :
    ∃ parameters, (draft.setType type).node.print = .ok
      (Template.aliasLayout (Comment.doc draft.comment) draft.exported draft.name parameters
        shown) := by
  obtain ⟨parameters, all, _⟩ := Node.printAll_ok sound.parameters
  obtain ⟨text, bare, same⟩ := exists_of_bind_ok printed
  cases same
  exact ⟨parameters, @print_of_parts (draft.setType type) parameters text all bare⟩

/-- An array of a type given as text has the text in parentheses as its element exactly if neither
a parenthesis opens the text nor brackets end it, where an operator stands in it outside all
brackets. Behind a parenthesis that opens the text no others are added, so that the array is only
the last member; brackets at the end are taken for those of an array of the rest. A text from a
parenthesis to a parenthesis, such as a single group, gets no second pair. -/
theorem array_grouped_iff (name : Text) (exported : Bool) (commands : List Command) {text : Text}
    (unquoted : ∀ c ∈ text, isQuote c = false) :
    let draft := (Outcome.run apply commands (start name exported)).state
    ∃ parameters type,
      (apply (.array text) draft).state.node.print = .ok
        (Template.aliasLayout (Comment.doc draft.comment) draft.exported draft.name parameters
          type) ∧
      (OperatorOutside text →
        (type = '(' :: (Text.trim text ++ [')', '[', ']']) ↔
          (Text.trim text).head? ≠ some '(' ∧ ¬['[', ']'] <:+ Text.trim text) ∧
        ((Text.trim text).head? = some '(' → OperatorOutside type) ∧
        ∃ stem count, Layered (Text.trim text) stem count ∧
          type = enclosed stem ++ pairs (count + 1)) ∧
      ∀ inside, Text.trim text = '(' :: (inside ++ [')']) →
        type = Text.trim text ++ ['[', ']'] := by
  intro draft
  obtain ⟨type, printed, compound, group⟩ := exists_print_array unquoted
  have sound : draft.Sound := sound_run commands (sound_start name exported)
  obtain ⟨parameters, whole⟩ := print_node sound printed
  refine ⟨parameters, type, whole, fun outside => ?_, group⟩
  obtain ⟨stem, count, layered, stays, rfl⟩ := compound outside
  refine ⟨layered.enclosed_iff, fun opened => ?_, stem, count, layered, rfl⟩
  rw [enclosed, if_pos (layered.head? opened)]
  exact stays.append _

/-- Generics, brackets in the middle and a group at the end are all inside the parentheses. -/
theorem array_grouped_generic :
    let text := " Map<A | B, C[]> | (D) ".toList
    (∀ c ∈ text, isQuote c = false) ∧ OperatorOutside text ∧
      (Text.trim text).head? ≠ some '(' ∧ ¬['[', ']'] <:+ Text.trim text ∧
      ∃ parameters type,
        (apply (.array text) (Outcome.run apply [.parameter ['T'] [] []]
            (start ['L'] true)).state).state.node.print =
          .ok (Template.aliasLayout [] true ['L'] parameters type) ∧
        type = "(Map<A | B, C[]> | (D))[]".toList := by
  intro text
  have unquoted : ∀ c ∈ text, isQuote c = false := isQuote_of_any rfl
  have outside : OperatorOutside text :=
    ⟨" Map<A | B, C[]> ".toList, '|', " (D) ".toList, rfl, rfl, by decide⟩
  have opened : (Text.trim text).head? ≠ some '(' := by decide
  have closed : ¬['[', ']'] <:+ Text.trim text := by decide
  obtain ⟨parameters, type, printed, compound, _⟩ :=
    array_grouped_iff ['L'] true [.parameter ['T'] [] []] unquoted
  exact ⟨unquoted, outside, opened, closed, parameters, type, printed,
    (compound outside).1.mpr ⟨opened, closed⟩⟩

/-- The brackets behind a union that begins with a group belong to its last member alone, and those
of its last member are counted with those of the array. -/
theorem array_not_grouped :
    (∀ c ∈ "(A) | B".toList, isQuote c = false) ∧ OperatorOutside "(A) | B".toList ∧
      (apply (.array "(A) | B".toList) (start ['L'] false)).state.node.print =
        .ok "type L = (A) | B[];".toList ∧
      "type L = (A) | B[];".toList ≠ "type L = ((A) | B)[];".toList ∧
      (∀ c ∈ "A | B[]".toList, isQuote c = false) ∧ OperatorOutside "A | B[]".toList ∧
      (apply (.array "A | B[]".toList) (start ['L'] false)).state.node.print =
        .ok "type L = (A | B)[][];".toList ∧
      "type L = (A | B)[][];".toList ≠ "type L = (A | B[])[];".toList := by
  have opened : OperatorOutside "(A) | B".toList :=
    ⟨"(A) ".toList, '|', " B".toList, rfl, rfl, by decide⟩
  have closed : OperatorOutside "A | B[]".toList :=
    ⟨"A ".toList, '|', " B[]".toList, rfl, rfl, by decide⟩
  exact ⟨isQuote_of_any rfl, opened, rfl, by decide, isQuote_of_any rfl, closed, rfl, by decide⟩

end TypeScriptGen.AliasDraft
