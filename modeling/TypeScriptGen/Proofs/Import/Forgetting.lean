import TypeScriptGen.Import.Registry

/-!
# Registries up to reconciliation

A reconciliation decides anew on every unmarked binding, so what an earlier one
found never counts. `Registry.forget` takes that out of a registry: declarations,
marks and options stay, and unmarked bindings count as unused. Two registries
agree if nothing but the outcome of reconciliations tells them apart, and every
command keeps agreement.
-/

namespace TypeScriptGen

theorem Binding.reconcile_reconcile (earlier later : Text → Bool) (binding : Binding) :
    (binding.reconcile earlier).reconcile later = binding.reconcile later := by
  cases marked : binding.marked <;> simp [Binding.reconcile, marked]

theorem Binding.reconcile_marked (isUsed : Text → Bool) (binding : Binding) :
    (binding.reconcile isUsed).marked = binding.marked := by
  cases marked : binding.marked <;> simp [Binding.reconcile, marked]

theorem Binding.reconcile_localName (isUsed : Text → Bool) (binding : Binding) :
    (binding.reconcile isUsed).localName = binding.localName := by
  cases marked : binding.marked <;> simp [Binding.reconcile, marked]

theorem Binding.reconcile_source (isUsed : Text → Bool) (binding : Binding) :
    (binding.reconcile isUsed).source = binding.source := by
  cases marked : binding.marked <;> simp [Binding.reconcile, marked]

theorem Binding.reconcile_declare (kind : BindingKind) (source localName : Text) :
    (Binding.declare kind source localName).reconcile (fun _ => false) =
      Binding.declare kind source localName := rfl

/-- A mark settles a binding whatever was found before. -/
theorem Binding.mark_reconcile (isUsed : Text → Bool) (binding : Binding) :
    (binding.reconcile isUsed).mark = binding.mark.reconcile isUsed := by
  cases marked : binding.marked <;> simp [Binding.reconcile, Binding.mark, marked]

namespace Registry

/-- The registry without the outcome of any reconciliation. -/
def forget (registry : Registry) : Registry := registry.reconcile fun _ => false

/-- The registries differ at most in the use of unmarked bindings. -/
def Agree (first second : Registry) : Prop := first.forget = second.forget

/-- Only the last of two reconciliations counts. -/
theorem reconcile_reconcile (registry : Registry) (earlier later : Text → Bool) :
    (registry.reconcile earlier).reconcile later = registry.reconcile later := by
  simp [reconcile, Function.comp_def, Binding.reconcile_reconcile]

theorem forget_reconcile (registry : Registry) (isUsed : Text → Bool) :
    (registry.reconcile isUsed).forget = registry.forget :=
  registry.reconcile_reconcile isUsed _

theorem forget_forget (registry : Registry) : registry.forget.forget = registry.forget :=
  registry.forget_reconcile _

/-! ## Commands on what is forgotten -/

theorem forget_addNamed (registry : Registry) (name given : Text) :
    (registry.addNamed name given).forget = registry.forget.addNamed name given := by
  have same (localName : Text) :
      (registry.forget.named.any fun binding =>
          binding.source == name && binding.localName == localName) =
        registry.named.any fun binding =>
          binding.source == name && binding.localName == localName := by
    simp [forget, reconcile, List.any_map, Function.comp_def, Binding.reconcile_source,
      Binding.reconcile_localName]
  unfold addNamed
  dsimp only
  generalize (if given.isEmpty then name else given) = localName
  rw [same]
  split
  · rfl
  · simp only [forget, reconcile, List.map_append, List.map_cons, List.map_nil,
      Binding.reconcile_declare]

theorem forget_addAllNamed (registry : Registry) (names : List Text) :
    (registry.addAllNamed names).forget = registry.forget.addAllNamed names := by
  induction names generalizing registry with
  | nil => rfl
  | cons name names ih =>
      have step := ih (registry.addNamed name [])
      rw [forget_addNamed] at step
      exact step

theorem forget_redeclare (kind : BindingKind) (name : Text) (old : Option Binding) :
    redeclare kind name (old.map (Binding.reconcile fun _ => false)) =
      ((redeclare kind name old).1.reconcile (fun _ => false), (redeclare kind name old).2) := by
  cases old with
  | none => rfl
  | some binding =>
      simp only [Option.map_some, redeclare, Binding.reconcile_localName]
      split
      · rfl
      · rfl

theorem forget_setDefault (registry : Registry) (name : Text) :
    (registry.setDefault name).state.forget = (registry.forget.setDefault name).state := by
  simp [setDefault, forget, reconcile, forget_redeclare]

theorem forget_setStar (registry : Registry) (name : Text) :
    (registry.setStar name).state.forget = (registry.forget.setStar name).state := by
  simp [setStar, forget, reconcile, forget_redeclare]

theorem forget_setOptions (registry : Registry) (includeUnused typeOnly : Option Bool) :
    (registry.setOptions includeUnused typeOnly).forget =
      registry.forget.setOptions includeUnused typeOnly := rfl

/-- Marks by name and reconciliation commute: neither changes the names that the other reads. -/
theorem markNamed_reconcile (registry : Registry) (isUsed : Text → Bool) (name : Text) :
    (registry.reconcile isUsed).markNamed name = (registry.markNamed name).reconcile isUsed := by
  have same (binding : Binding) :
      (if (binding.reconcile isUsed).answersTo name then (binding.reconcile isUsed).mark
        else binding.reconcile isUsed) =
        (if binding.answersTo name then binding.mark else binding).reconcile isUsed := by
    have answers : (binding.reconcile isUsed).answersTo name = binding.answersTo name := by
      simp [Binding.answersTo, Binding.reconcile_source, Binding.reconcile_localName]
    rw [answers, Binding.mark_reconcile]
    split <;> rfl
  simp [markNamed, reconcile, Function.comp_def, same]

theorem markDefault_reconcile (registry : Registry) (isUsed : Text → Bool) :
    (registry.reconcile isUsed).markDefault = registry.markDefault.reconcile isUsed := by
  simp [markDefault, reconcile, Function.comp_def, Binding.mark_reconcile]

theorem markStar_reconcile (registry : Registry) (isUsed : Text → Bool) :
    (registry.reconcile isUsed).markStar = registry.markStar.reconcile isUsed := by
  simp [markStar, reconcile, Function.comp_def, Binding.mark_reconcile]

theorem forget_markNamed (registry : Registry) (name : Text) :
    (registry.markNamed name).forget = registry.forget.markNamed name :=
  (registry.markNamed_reconcile _ name).symm

theorem forget_markDefault (registry : Registry) :
    registry.markDefault.forget = registry.forget.markDefault :=
  (registry.markDefault_reconcile _).symm

theorem forget_markStar (registry : Registry) :
    registry.markStar.forget = registry.forget.markStar :=
  (registry.markStar_reconcile _).symm

theorem forget_reconcileWith (registry : Registry) (fragments : List Usage.Fragment) :
    (registry.reconcileWith fragments).state.forget = registry.forget := by
  unfold reconcileWith
  split
  · rfl
  · exact registry.forget_reconcile _

/-- What a command leaves, up to reconciliation, can be computed from the registry up to
reconciliation. -/
theorem forget_apply (command : Command) (registry : Registry) :
    (apply command registry).state.forget = (apply command registry.forget).state.forget := by
  cases command with
  | named name given =>
      change (registry.addNamed name given).forget = (registry.forget.addNamed name given).forget
      rw [forget_addNamed, forget_addNamed, forget_forget]
  | namedAll names =>
      change (registry.addAllNamed names).forget = (registry.forget.addAllNamed names).forget
      rw [forget_addAllNamed, forget_addAllNamed, forget_forget]
  | default name =>
      change (registry.setDefault name).state.forget =
        (registry.forget.setDefault name).state.forget
      rw [forget_setDefault, forget_setDefault, forget_forget]
  | star name =>
      change (registry.setStar name).state.forget = (registry.forget.setStar name).state.forget
      rw [forget_setStar, forget_setStar, forget_forget]
  | options includeUnused typeOnly =>
      change (registry.setOptions includeUnused typeOnly).forget =
        (registry.forget.setOptions includeUnused typeOnly).forget
      rw [forget_setOptions, forget_setOptions, forget_forget]
  | markNamed name =>
      change (registry.markNamed name).forget = (registry.forget.markNamed name).forget
      rw [forget_markNamed, forget_markNamed, forget_forget]
  | markDefault =>
      change registry.markDefault.forget = registry.forget.markDefault.forget
      rw [forget_markDefault, forget_markDefault, forget_forget]
  | markStar =>
      change registry.markStar.forget = registry.forget.markStar.forget
      rw [forget_markStar, forget_markStar, forget_forget]
  | reconcile fragments =>
      change (registry.reconcileWith fragments).state.forget =
        (registry.forget.reconcileWith fragments).state.forget
      rw [forget_reconcileWith, forget_reconcileWith, forget_forget]
  | print includeUnused typeOnly => exact registry.forget_forget.symm

/-! ## Agreement along runs -/

/-- The command succeeds, whatever its answer. -/
def succeeds (outcome : Outcome Registry) : Bool := outcome.result.toBool

theorem mapM_statement (typeOnly : Bool) (module : Text) (clauses : List Text) :
    clauses.mapM (statement typeOnly module) =
      .ok (clauses.map fun clause => Template.importLayout typeOnly clause module) := by
  induction clauses with
  | nil => rfl
  | cons clause clauses ih => simp only [List.mapM_cons, ih, statement_eq]; rfl

/-- Printing never fails: one statement for each clause. -/
theorem print_eq (registry : Registry) (includeUnused typeOnly : Option Bool) :
    registry.print includeUnused typeOnly =
      .ok (['\n'].intercalate
        ((registry.clauses (includeUnused.getD registry.includeUnused)).map fun clause =>
          Template.importLayout (typeOnly.getD registry.typeOnly) clause registry.module)) := by
  unfold print
  dsimp only
  rw [mapM_statement]
  rfl

/-- Whether a command succeeds does not depend on the registry. -/
theorem succeeds_apply (command : Command) (first second : Registry) :
    succeeds (apply command first) = succeeds (apply command second) := by
  cases command with
  | reconcile fragments =>
      simp only [apply, reconcileWith]
      split <;> rfl
  | print includeUnused typeOnly =>
      simp only [apply, print_eq]
      rfl
  | _ => rfl

theorem Agree.apply {first second : Registry} (agree : Agree first second) (command : Command) :
    Agree (apply command first).state (apply command second).state := by
  have same : first.forget = second.forget := agree
  unfold Agree
  rw [forget_apply command first, same, ← forget_apply command second]

/-- Commands keep agreement, and fail on both registries or on neither. -/
theorem Agree.run {first second : Registry} (agree : Agree first second)
    (commands : List Command) :
    Agree (Outcome.run Registry.apply commands first).state
        (Outcome.run Registry.apply commands second).state ∧
      succeeds (Outcome.run Registry.apply commands first) =
        succeeds (Outcome.run Registry.apply commands second) := by
  induction commands generalizing first second with
  | nil => exact ⟨agree, rfl⟩
  | cons command commands ih =>
      have next := agree.apply command
      have both := succeeds_apply command first second
      simp only [Outcome.run]
      cases one : (Registry.apply command first).result with
      | error failure =>
          cases other : (Registry.apply command second).result with
          | error failure => exact ⟨next, rfl⟩
          | ok text => simp [succeeds, one, other, Except.toBool] at both
      | ok text =>
          cases other : (Registry.apply command second).result with
          | error failure => simp [succeeds, one, other, Except.toBool] at both
          | ok text => exact ih next

end Registry

end TypeScriptGen
