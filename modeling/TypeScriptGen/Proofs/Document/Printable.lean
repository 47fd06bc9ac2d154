import TypeScriptGen.Proofs.Document.ImportBlock
import TypeScriptGen.Proofs.Syntax.Placeholders

/-!
# Failing early or not at all

What cannot be part of a section is refused by the call that would add it. So once
its calls have returned, a section whose options are valid and can be read is
printed. Trees that are built by hand are printed as well, unless they expose a
placeholder.
-/

namespace TypeScriptGen.Section

theorem options_after {commands : List Command} (keep : commands.all Command.keepsOptions = true)
    (current : Section) : (after commands current).options = current.options :=
  List.foldlRecOn (motive := fun state : Section => state.options = current.options) commands _ rfl
    fun state same command among =>
      (options_apply (List.all_eq_true.mp keep command among) state).trans same

/-- Valid options that can be read are all that a section needs to be printed, whatever calls led
to it; of trees with blocks for bodies those are not printed that expose a placeholder, and they
fail for it and for nothing else. -/
theorem print_ok_and_node_stops_iff :
    (∀ (name : Text) (options : SectionOptions) (commands : List Command),
      options.validate = .ok () → options.isLegible = true →
      commands.all Command.keepsOptions = true →
        ∃ text, (after commands (start name options)).print.2 = .ok text) ∧
    ∀ (margin : Nat) (node : Node), node.Bodied →
      (∀ failure, Printer.print ⟨.standard, margin⟩ node = .error failure ↔
        node.Exposed ∧ failure = .unprintable "Node".toList) ∧
      (¬node.Exposed → ∃ text, Printer.print ⟨.standard, margin⟩ node = .ok text) := by
  constructor
  · intro name options commands valid legible keep
    have kept : (after commands (start name options)).options = options :=
      options_after keep (start name options)
    have sound := sound_after commands (sound_start name options)
    obtain ⟨gap, header, _, _, printed⟩ := print_legible sound
      (by rw [kept]; exact (SectionOptions.validate_eq_ok_iff options).mp valid)
      (by rw [kept]; exact legible)
    exact ⟨_, printed⟩
  · intro margin node bodied
    have stops := bodied.print_stops margin
    exact ⟨stops, stops.goes⟩

/-- A described section with tags. -/
private def describedOptions : SectionOptions :=
  { SectionOptions.standard with
    description := .list [.text "What is stored".toList, .text "and how".toList]
    metadata := .table [(.text "since".toList, .text "1.2".toList)] }

/-- A placeholder among the references of free text, and one in an array. -/
private def hiddenPlaceholder : Node := .unionType [.raw "Entry".toList [.placeholder]]

private def exposedPlaceholder : Node :=
  .unionType [.raw "Entry".toList [], .arrayType .placeholder]

theorem print_ok_and_node_stops_stored :
    (∃ text, (after [.type "Id".toList (.text "Key | null".toList) none .null,
        .conditional [.condition "ready".toList],
        .loop .whileLoop [.condition "busy()".toList, .body [.statement "wait()".toList]]]
      (start "Store".toList describedOptions)).print.2 = .ok text) ∧
    (∃ text, Printer.print ⟨.standard, 2⟩ hiddenPlaceholder = .ok text) ∧
    Printer.print ⟨.standard, 2⟩ exposedPlaceholder = .error (.unprintable "Node".toList) := by
  obtain ⟨printed, stops⟩ := print_ok_and_node_stops_iff
  refine ⟨printed _ _ _ rfl rfl rfl, ?_, ?_⟩
  · refine (stops 2 hiddenPlaceholder (by decide)).2 fun exposed => ?_
    obtain ⟨member, among, inner⟩ := (Node.exposed_iff rfl).mp exposed
    rw [List.mem_singleton.mp among] at inner
    exact Node.not_exposed_of_childless rfl rfl inner
  · have inner : Node.Exposed (.arrayType .placeholder) := .deeper (.head _) .here
    have exposed : exposedPlaceholder.Exposed := .deeper (.tail _ (.head _)) inner
    exact ((stops 2 exposedPlaceholder (by decide)).1 _).mpr ⟨exposed, rfl⟩

end TypeScriptGen.Section
