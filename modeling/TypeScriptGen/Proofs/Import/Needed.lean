import TypeScriptGen.Proofs.Declaration.Drafted
import TypeScriptGen.Proofs.Import.Forgetting

/-!
# The bindings that are needed

A registry that was reconciled with some names writes a binding when all are
asked for, when the caller marked it, or when its local name is among the names.
What earlier reconciliations decided plays no part in it: a marked binding is
used from the mark on.
-/

namespace TypeScriptGen

namespace Binding

/-- The binding is to be written when code uses the given names. -/
def isNeeded (names : List Text) (all : Bool) (binding : Binding) : Bool :=
  all || binding.marked || names.contains binding.localName

/-- A marked binding is used. -/
def Counted (binding : Binding) : Prop := binding.marked = true → binding.used = true

theorem counted_declare (kind : BindingKind) (source localName : Text) :
    (declare kind source localName).Counted := nofun

theorem counted_mark (binding : Binding) : binding.mark.Counted := fun _ => rfl

theorem counted_reconcile {binding : Binding} (counted : binding.Counted)
    (isUsed : Text → Bool) : (binding.reconcile isUsed).Counted := by
  unfold reconcile
  split
  · exact counted
  · next unmarked => exact fun marked => absurd marked unmarked

theorem isKept_reconcile {binding : Binding} (counted : binding.Counted) (names : List Text)
    (all : Bool) :
    (binding.reconcile names.contains).isKept all = binding.isNeeded names all := by
  unfold isKept isNeeded reconcile
  split
  · next marked => simp [marked, counted marked]
  · next unmarked => simp [unmarked]

theorem clause_reconcile (isUsed : Text → Bool) (binding : Binding) :
    (binding.reconcile isUsed).clause = binding.clause := by
  unfold reconcile
  split <;> rfl

end Binding

namespace Registry

/-- Marked bindings are used. -/
structure Counted (registry : Registry) : Prop where
  named : ∀ binding ∈ registry.named, binding.Counted
  default : ∀ binding ∈ registry.default, binding.Counted
  star : ∀ binding ∈ registry.star, binding.Counted

/-! ## Marks along runs -/

section Marks

variable {registry : Registry}

theorem counted_start (module : Text) (includeUnused typeOnly : Bool) :
    (start module includeUnused typeOnly).Counted := ⟨nofun, nofun, nofun⟩

theorem Counted.addNamed (counted : registry.Counted) (name given : Text) :
    (registry.addNamed name given).Counted := by
  unfold Registry.addNamed
  generalize (if given.isEmpty then name else given) = localName
  dsimp only
  split
  · exact counted
  · exact ⟨forall_concat counted.named (Binding.counted_declare _ _ _), counted.default,
      counted.star⟩

theorem Counted.addAllNamed (counted : registry.Counted) (names : List Text) :
    (registry.addAllNamed names).Counted := by
  induction names generalizing registry with
  | nil => exact counted
  | cons name names ih => exact ih (counted.addNamed name [])

theorem counted_redeclare (kind : BindingKind) (name : Text) {old : Option Binding}
    (counted : ∀ binding ∈ old, binding.Counted) : (redeclare kind name old).1.Counted := by
  unfold redeclare
  split
  · exact Binding.counted_declare _ _ _
  · next binding =>
      split
      · exact counted binding rfl
      · exact Binding.counted_declare _ _ _

theorem counted_some {binding : Binding} (counted : binding.Counted) :
    ∀ found ∈ some binding, found.Counted := by
  intro found member
  rwa [← Option.some.inj member]

theorem counted_map {found : Option Binding} {change : Binding → Binding}
    (counted : ∀ binding ∈ found, (change binding).Counted) :
    ∀ binding ∈ found.map change, binding.Counted := by
  intro binding member
  obtain ⟨old, held, rfl⟩ := Option.map_eq_some_iff.mp member
  exact counted old held

theorem Counted.markNamed (counted : registry.Counted) (name : Text) :
    (registry.markNamed name).Counted := by
  refine ⟨fun binding member => ?_, counted.default, counted.star⟩
  obtain ⟨old, among, rfl⟩ := List.mem_map.mp member
  split
  · exact old.counted_mark
  · exact counted.named old among

theorem Counted.reconcile (counted : registry.Counted) (isUsed : Text → Bool) :
    (registry.reconcile isUsed).Counted := by
  refine ⟨fun binding member => ?_, counted_map ?_, counted_map ?_⟩
  · obtain ⟨old, among, rfl⟩ := List.mem_map.mp member
    exact Binding.counted_reconcile (counted.named old among) isUsed
  · exact fun old held => Binding.counted_reconcile (counted.default old held) isUsed
  · exact fun old held => Binding.counted_reconcile (counted.star old held) isUsed

/-- Every command keeps marked bindings used. -/
theorem Counted.apply (command : Command) (registry : Registry) (counted : registry.Counted) :
    (apply command registry).state.Counted := by
  cases command with
  | named name given => exact counted.addNamed name given
  | namedAll names => exact counted.addAllNamed names
  | default name =>
      exact ⟨counted.named, counted_some (counted_redeclare _ name counted.default), counted.star⟩
  | star name =>
      exact ⟨counted.named, counted.default, counted_some (counted_redeclare _ name counted.star)⟩
  | options includeUnused typeOnly => exact ⟨counted.named, counted.default, counted.star⟩
  | markNamed name => exact counted.markNamed name
  | markDefault =>
      exact ⟨counted.named, counted_map fun old _ => old.counted_mark, counted.star⟩
  | markStar => exact ⟨counted.named, counted.default, counted_map fun old _ => old.counted_mark⟩
  | reconcile fragments =>
      simp only [Registry.apply, reconcileWith]
      split
      · exact counted
      · exact counted.reconcile _
  | print includeUnused typeOnly => exact counted

theorem Counted.run (counted : registry.Counted) (commands : List Command) :
    (Outcome.run Registry.apply commands registry).state.Counted :=
  Outcome.run_state Counted.apply commands counted

end Marks

/-! ## What is written -/

section Needed

variable (registry : Registry) (names : List Text)

def neededStar : Option Binding :=
  registry.star.filter (Binding.isNeeded names registry.includeUnused)

/-- The default binding is written only where no namespace binding is. -/
def neededDefault : Option Binding :=
  if (registry.neededStar names).isSome then none
  else registry.default.filter (Binding.isNeeded names registry.includeUnused)

def neededNamed : List Binding :=
  registry.named.filter (Binding.isNeeded names registry.includeUnused)

/-- All bindings are asked for, this one is marked, or its local name is among the names. -/
def Needs (binding : Binding) : Prop :=
  registry.includeUnused = true ∨ binding.marked = true ∨ binding.localName ∈ names

/-- The statements of a registry for code that uses the given names, one a line: that of the
namespace binding, and that of the other bindings together. -/
def rendering : Text :=
  let first := (registry.neededStar names).toList.map Binding.clause
  let rest := (registry.neededDefault names).toList.map Binding.clause ++
    namedClause (registry.neededNamed names)
  let clauses := first ++ if rest.isEmpty then [] else [", ".toList.intercalate rest]
  ['\n'].intercalate (clauses.map fun clause =>
    Template.importLayout registry.typeOnly clause registry.module)

theorem isNeeded_iff (binding : Binding) :
    binding.isNeeded names registry.includeUnused = true ↔ registry.Needs names binding := by
  simp [Binding.isNeeded, Needs, or_assoc]

/-- Named and namespace bindings are written when they are needed, a default binding when it is
needed and no namespace binding is written. -/
theorem needed_iff (binding : Binding) :
    (binding ∈ registry.neededNamed names ↔
      binding ∈ registry.named ∧ registry.Needs names binding) ∧
    (registry.neededStar names = some binding ↔
      registry.star = some binding ∧ registry.Needs names binding) ∧
    (registry.neededDefault names = some binding ↔
      registry.default = some binding ∧ registry.Needs names binding ∧
        registry.neededStar names = none) := by
  refine ⟨?_, ?_, ?_⟩
  · rw [neededNamed, List.mem_filter, isNeeded_iff]
  · rw [neededStar, Option.filter_eq_some_iff, isNeeded_iff]
  · unfold neededDefault
    cases star : registry.neededStar names with
    | some other => simp
    | none => simp [Option.filter_eq_some_iff, isNeeded_iff]

variable {registry}

theorem filter_map_reconcile {found : Option Binding}
    (counted : ∀ binding ∈ found, binding.Counted) (all : Bool) :
    (found.map (Binding.reconcile names.contains)).filter (Binding.isKept all) =
      (found.filter (Binding.isNeeded names all)).map (Binding.reconcile names.contains) := by
  cases found with
  | none => rfl
  | some binding =>
      have kept := Binding.isKept_reconcile (counted binding rfl) names all
      simp only [Option.map_some, Option.filter_some, kept]
      split <;> rfl

theorem keptStar_reconcile (counted : registry.Counted) :
    (registry.reconcile names.contains).keptStar registry.includeUnused =
      (registry.neededStar names).map (Binding.reconcile names.contains) :=
  filter_map_reconcile names counted.star _

theorem keptDefault_reconcile (counted : registry.Counted) :
    (registry.reconcile names.contains).keptDefault registry.includeUnused =
      (registry.neededDefault names).map (Binding.reconcile names.contains) := by
  unfold keptDefault neededDefault
  rw [keptStar_reconcile names counted, Option.isSome_map]
  split
  · rfl
  · exact filter_map_reconcile names counted.default _

theorem keptNamed_reconcile (counted : registry.Counted) :
    (registry.reconcile names.contains).keptNamed registry.includeUnused =
      (registry.neededNamed names).map (Binding.reconcile names.contains) := by
  change (registry.named.map (Binding.reconcile names.contains)).filter _ = _
  rw [List.filter_map, neededNamed]
  refine congrArg _ (List.filter_congr fun binding member => ?_)
  exact Binding.isKept_reconcile (counted.named binding member) names _

theorem map_clause_reconcile (isUsed : Text → Bool) (found : List Binding) :
    (found.map (Binding.reconcile isUsed)).map Binding.clause = found.map Binding.clause := by
  rw [List.map_map]
  exact List.map_congr_left fun binding _ => binding.clause_reconcile isUsed

theorem namedClause_reconcile (isUsed : Text → Bool) (found : List Binding) :
    namedClause (found.map (Binding.reconcile isUsed)) = namedClause found := by
  unfold namedClause
  rw [map_clause_reconcile, List.isEmpty_map]

/-- A registry that was reconciled with some names writes the bindings that these names need. -/
theorem print_reconcile (counted : registry.Counted) :
    (registry.reconcile names.contains).print none none = .ok (registry.rendering names) := by
  rw [print_eq]
  change Except.ok (['\n'].intercalate
    (((registry.reconcile names.contains).clauses registry.includeUnused).map _)) = _
  unfold clauses rendering
  rw [keptStar_reconcile names counted, keptDefault_reconcile names counted,
    keptNamed_reconcile names counted, namedClause_reconcile, Option.toList_map, Option.toList_map,
    map_clause_reconcile, map_clause_reconcile]
  rfl

end Needed

end Registry

end TypeScriptGen
