import TypeScriptGen.Proofs.Document.ImportBlock

/-!
# No import without a name in the content

A name that printing a section takes for used stands in the text of one of its
items. So whatever is imported without being asked for has its name somewhere in
the content.
-/

namespace TypeScriptGen

/-- The bindings that a registry writes. -/
def Registry.written (registry : Registry) : List Binding :=
  (registry.keptStar registry.includeUnused).toList ++
    (registry.keptDefault registry.includeUnused).toList ++
    registry.keptNamed registry.includeUnused

/-- Unless all bindings are asked for, only used ones are written. -/
theorem Registry.used_of_written {registry : Registry} (selective : registry.includeUnused = false)
    {binding : Binding} (written : binding ∈ registry.written) :
    binding ∈ registry.bindings ∧ binding.used = true := by
  unfold Registry.written keptDefault keptStar keptNamed at written
  unfold bindings
  rw [selective] at written
  simp only [List.mem_append, Option.mem_toList, List.mem_filter] at written ⊢
  rcases written with (star | default) | named
  · obtain ⟨held, used⟩ := Option.filter_eq_some_iff.mp star
    exact ⟨Or.inl (Or.inl held), used⟩
  · split at default
    · cases default
    · obtain ⟨held, used⟩ := Option.filter_eq_some_iff.mp default
      exact ⟨Or.inl (Or.inr held), used⟩
  · exact ⟨Or.inr named.1, named.2⟩

namespace Section

theorem registries_reconcile (current : Section) (isUsed : Text → Bool) :
    (current.reconcile isUsed).registries =
      current.registries.map fun registry => registry.reconcile isUsed := by
  unfold registries reconcile
  rw [List.filterMap_map, List.map_filterMap]
  refine congrArg (List.filterMap · current.items) (funext fun item => ?_)
  obtain ⟨kind, name, payload⟩ := item
  cases payload <;> rfl

/-- After a print, an unmarked binding that is written only because it is used has a name that the
content uses. -/
theorem mem_usedNames_of_written {current : Section} (sound : current.Sound) {registry : Registry}
    (member : registry ∈ current.print.1.registries) (selective : registry.includeUnused = false)
    {binding : Binding} (written : binding ∈ registry.written) (unmarked : binding.marked = false) :
    binding.localName ∈ current.usedNames := by
  rw [print_eq sound, registries_reconcile] at member
  obtain ⟨old, _, rfl⟩ := List.mem_map.mp member
  obtain ⟨among, used⟩ := Registry.used_of_written selective written
  rw [Registry.bindings_reconcile] at among
  obtain ⟨before, _, rfl⟩ := List.mem_map.mp among
  rw [Binding.reconcile_marked] at unmarked
  rw [Binding.reconcile_localName]
  rw [Binding.reconcile, unmarked] at used
  exact List.contains_iff_mem.mp used

/-- Every name that printing a section takes for used stands in the text of an item, and every
binding that is written although it is neither asked for nor marked has its local name in the
content. -/
theorem used_names_stand_in_content {current : Section} (reached : current.Reached) :
    ∃ tracker, printContent current.content .empty = .ok (current.contentTexts, tracker) ∧
      (∀ name ∈ tracker.names, ∃ item ∈ current.items,
        item.isImport = false ∧ item.print = .ok item.text ∧ name <:+: item.text) ∧
      ∀ registry ∈ current.print.1.registries, registry.includeUnused = false →
        ∀ binding ∈ registry.written, binding.marked = false →
          ∀ gap : Text, binding.localName <:+: gap.intercalate current.contentTexts := by
  obtain ⟨tracker, printed, found⟩ := printContent_content reached.sound
  refine ⟨tracker, printed, fun name member => ?_, ?_⟩
  · obtain ⟨item, among, shown, inside⟩ :=
      exists_item_of_used reached.sound ((found name).mp member)
    exact ⟨item, (mem_content.mp among).1, (mem_content.mp among).2, shown, inside⟩
  · intro registry member selective binding written unmarked gap
    have used := mem_usedNames_of_written reached.sound member selective written unmarked
    obtain ⟨item, among, _, inside⟩ := exists_item_of_used reached.sound used
    exact inside.trans (Text.infix_intercalate gap (List.mem_map_of_mem among))

/-- An imported type and an alias that mentions it. -/
theorem names_of_alias_stand_in_content :
    ∃ current : Section, current.Reached ∧ current.registries.length = 1 ∧
      current.contentInOrder.length = 1 ∧
      ∃ tracker, printContent current.content .empty = .ok (current.contentTexts, tracker) ∧
        ∀ name ∈ tracker.names, ∃ item ∈ current.items, name <:+: item.text := by
  have reached : (after [.imports "./models".toList [.named "Item".toList []] false false,
      .type "Items".toList (.text "Item[]".toList) none .null]
    (start "Types".toList .standard)).Reached := ⟨_, _, _, rfl⟩
  obtain ⟨tracker, printed, names, _⟩ := used_names_stand_in_content reached
  refine ⟨_, reached, rfl, rfl, tracker, printed, fun name member => ?_⟩
  obtain ⟨item, among, _, _, inside⟩ := names name member
  exact ⟨item, among, inside⟩

end Section

end TypeScriptGen
