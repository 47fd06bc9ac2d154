import TypeScriptGen.Proofs.Import.Unambiguous

/-!
# Which printed statements are legal

A namespace binding stands alone in its statement, as the language demands. The
language also refuses a type-only statement with both a default binding and named
ones, and such a statement is printed: where a type-only registry keeps both, they
share one statement, and in no other case is a printed statement refused.
-/

namespace TypeScriptGen

/-- The language accepts the clause behind `import`, or behind `import type`. -/
def ImportClause.isLegal (typeOnly : Bool) : ImportClause → Bool
  | .star _ => true
  | .members default named => !(typeOnly && default.isSome && !named.isEmpty)

theorem ImportClause.isLegal_members_eq_false {typeOnly : Bool} {default : Option Text}
    {named : List (Text × Text)} :
    (ImportClause.members default named).isLegal typeOnly = false ↔
      typeOnly = true ∧ default.isSome = true ∧ named ≠ [] := by
  simp [isLegal, and_assoc]

namespace Registry

theorem mem_importClauses_members {registry : Registry} {all : Bool} {default : Option Text}
    {named : List (Text × Text)} :
    .members default named ∈ registry.importClauses all ↔
      default = (registry.keptDefault all).map Binding.localName ∧
        named = (registry.keptNamed all).map Binding.pair ∧
        ¬(default.isNone = true ∧ named.isEmpty = true) := by
  unfold importClauses
  simp only [List.mem_append, List.mem_map, reduceCtorEq, and_false, exists_false, false_or]
  split
  · next none =>
      constructor
      · nofun
      · rintro ⟨rfl, rfl, some⟩
        exact absurd (by simpa using none) some
  · next some =>
      constructor
      · intro among
        obtain ⟨rfl, rfl⟩ := ImportClause.members.inj (List.mem_singleton.mp among)
        exact ⟨rfl, rfl, by simpa using some⟩
      · rintro ⟨rfl, rfl, _⟩
        exact List.mem_singleton.mpr rfl

/-- After any run, each clause is printed as one statement, and the language accepts all of them
unless they are type-only and a default binding is kept with named ones. -/
theorem print_legal_iff (module : Text) (includeUnused typeOnly : Bool) (events : List Event)
    (everything typesOnly : Option Bool) :
    let registry := (start module includeUnused typeOnly).after events
    let all := everything.getD registry.includeUnused
    let types := typesOnly.getD registry.typeOnly
    registry.print everything typesOnly =
        .ok (importLines types registry.module (registry.importClauses all)) ∧
      ((∀ clause ∈ registry.importClauses all, clause.isLegal types = true) ↔
        ¬(types = true ∧ (registry.keptDefault all).isSome = true ∧
          registry.keptNamed all ≠ [])) := by
  intro registry all types
  have fitting : registry.Fitting := (fitting_start module includeUnused typeOnly).after events
  refine ⟨print_eq_statements fitting everything typesOnly, ?_⟩
  constructor
  · rintro legal ⟨typed, default, named⟩
    have among : .members ((registry.keptDefault all).map Binding.localName)
        ((registry.keptNamed all).map Binding.pair) ∈ registry.importClauses all := by
      rw [mem_importClauses_members]
      exact ⟨rfl, rfl, by simp [Option.isNone_iff_eq_none, Option.isSome_iff_ne_none.mp default]⟩
    have accepted := legal _ among
    rw [← Bool.not_eq_false, ImportClause.isLegal_members_eq_false] at accepted
    exact accepted ⟨typed, by simpa using default, by simpa using named⟩
  · intro fine clause among
    cases clause with
    | star localName => rfl
    | members default named =>
        obtain ⟨rfl, rfl, _⟩ := mem_importClauses_members.mp among
        by_contra refused
        obtain ⟨typed, default, named⟩ :=
          ImportClause.isLegal_members_eq_false.mp (Bool.eq_false_iff.mpr refused)
        exact fine ⟨typed, by simpa using default, by simpa using named⟩

/-- A default and a named binding share a type-only statement. -/
theorem print_refused_statement :
    let registry := (start "./types".toList true true).after
      [.call (.default "Lib".toList), .call (.named "User".toList [])]
    registry.print none none = .ok "import type Lib, \x7b User \x7d from \"./types\";".toList ∧
      ∃ clause ∈ registry.importClauses true, clause.isLegal true = false := by
  intro registry
  have clauses : registry.importClauses true =
      [.members (some "Lib".toList) [("User".toList, "User".toList)]] := by rfl
  rw [clauses]
  exact ⟨by rfl, _, List.mem_singleton_self _, by rfl⟩

end Registry

end TypeScriptGen
