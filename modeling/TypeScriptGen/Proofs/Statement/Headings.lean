import TypeScriptGen.Proofs.Statement.Drafted
import TypeScriptGen.Proofs.Text.Squeeze

/-!
# Headings of statements

The headings of a statement are the expressions that it cannot be without: the
conditions of a conditional, a while or do loop, the expression of a switch and the
labels of its cases. In the node of a draft they are the parsed texts that the draft
holds for them, and they are printed as these texts without the blanks around them.
-/

namespace TypeScriptGen

open Syntax (parseExpression)

namespace Node

/-- The label of a clause, if it has one. -/
def labels : Node → List Node
  | .caseClause value _ => [value]
  | _ => []

mutual

def headings : Node → List Node
  | .conditional condition _ alternative _ => condition :: headingsBehind alternative
  | .switchStatement expression clauses _ => expression :: clauses.flatMap labels
  | .whileLoop condition _ _ => [condition]
  | .doLoop _ condition _ => [condition]
  | _ => []

/-- The conditions behind `else`; a block has none. -/
def headingsBehind : Option Node → List Node
  | none => []
  | some node => headings node

end

end Node

theorem ConditionalDraft.headingsBehind_chain {alternative : Option Node}
    (others : ∀ node ∈ alternative.toList, Node.IsBody node) (branches : List (Text × Node)) :
    Node.headingsBehind (chain alternative branches) =
      branches.map fun branch => parseExpression branch.1 := by
  induction branches with
  | nil =>
      cases alternative with
      | none => rfl
      | some node =>
          obtain ⟨statements, comment, rfl⟩ := others node List.mem_cons_self
          rfl
  | cons branch branches ih => exact congrArg (parseExpression branch.1 :: ·) ih

theorem SwitchDraft.labels_clauses (draft : SwitchDraft) :
    draft.clauses.flatMap Node.labels =
      draft.cases.map fun branch => parseExpression branch.1 := by
  have default : (draft.otherwise.toList.map Node.defaultClause).flatMap Node.labels = [] := by
    cases draft.otherwise <;> rfl
  rw [clauses, List.flatMap_append, default, List.append_nil, List.flatMap_map]
  exact List.map_eq_flatMap.symm

/-- Trimming leaves a heading visible or blank. -/
theorem visible_printed_iff (texts : List Text) :
    (∀ heading ∈ texts.map parseExpression,
        ∃ shown, heading.print = .ok shown ∧ Text.Visible shown) ↔
      ∀ given ∈ texts, Text.Visible given := by
  rw [List.forall_mem_map]
  refine forall_congr' fun given => imp_congr_right fun _ => ?_
  have printed : (parseExpression given).print = .ok (Text.trim given) :=
    Syntax.print_parseExpression .standard given
  simp only [printed, Except.ok.injEq, exists_eq_left', Text.visible_trim_iff]

end TypeScriptGen
