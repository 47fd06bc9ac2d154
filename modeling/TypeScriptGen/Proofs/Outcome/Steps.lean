import TypeScriptGen.Failure

/-!
# Steps that may fail

What follows a step that succeeds, and what a result says about the steps to it.
-/

namespace TypeScriptGen

variable {ε α β : Type}

theorem bind_ok {first : Except ε α} {result : α} {next : α → Except ε β}
    (known : first = .ok result) : (first >>= next) = next result := by
  rw [known]
  rfl

theorem bind_error {first : Except ε α} {failure : ε} {next : α → Except ε β}
    (known : first = .error failure) : (first >>= next) = .error failure := by
  rw [known]
  rfl

theorem exists_of_bind_ok {first : Except ε α} {next : α → Except ε β}
    {result : β} (made : (first >>= next) = .ok result) :
    ∃ found, first = .ok found ∧ next found = .ok result := by
  cases first with
  | ok found => exact ⟨found, rfl, made⟩
  | error failure => cases made

/-- A failure comes from the first step, or from what follows it. -/
theorem exists_of_bind_error {first : Except ε α} {next : α → Except ε β} {failure : ε}
    (failed : (first >>= next) = .error failure) :
    first = .error failure ∨ ∃ found, first = .ok found ∧ next found = .error failure := by
  cases first with
  | ok found => exact .inr ⟨found, rfl, failed⟩
  | error earlier => exact .inl (congrArg Except.error (Except.error.inj failed))

theorem exists_of_map_ok {first : Except Failure α} {write : α → β} {result : β}
    (made : first.map write = .ok result) : ∃ found, first = .ok found ∧ write found = result := by
  cases first with
  | ok found => exact ⟨found, rfl, Except.ok.inj made⟩
  | error failure => cases made

/-- What comes of going through items comes of one of them. -/
theorem exists_of_mem_mapM {step : α → Except Failure β} {items : List α} {results : List β}
    (made : items.mapM step = .ok results) {result : β} (member : result ∈ results) :
    ∃ item ∈ items, step item = .ok result := by
  induction items generalizing results with
  | nil =>
      cases made
      cases member
  | cons item items ih =>
      rw [List.mapM_cons] at made
      obtain ⟨first, own, made⟩ := exists_of_bind_ok made
      obtain ⟨others, later, made⟩ := exists_of_bind_ok made
      cases made
      rcases List.mem_cons.mp member with rfl | behind
      · exact ⟨item, List.mem_cons_self, own⟩
      · obtain ⟨other, among, same⟩ := ih later behind
        exact ⟨other, List.mem_cons_of_mem item among, same⟩

end TypeScriptGen
