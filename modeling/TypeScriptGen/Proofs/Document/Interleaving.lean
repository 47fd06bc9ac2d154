import TypeScriptGen.Proofs.Document.ImportBlock

/-!
# Imports and content in any order

Callers hold on to the registries that they declare, whatever else is added in
between. So a run is a list of calls in which a registry is known by its place
among the registries. The calls on registries and those on content act on separate
parts of a section: the registries depend on the former alone, and the names
that are used on the latter alone, in whatever order.
-/

namespace TypeScriptGen.Section

/-- A call that adds content, declares a registry, or goes on with the registry that was declared
as the given one in order. -/
inductive Call
  | content (command : Command) (adds : command.isContent = true)
  | imports (module : Text) (commands : List Registry.Command) (includeUnused typeOnly : Bool)
  | registry (ordinal : Nat) (commands : List Registry.Command)

namespace Call

/-- The place of a registry among the items; the place behind all items when there is none. -/
def placeOf : Nat → List Item → Nat
  | _, [] => 0
  | 0, item :: items => if item.isImport then 0 else placeOf 0 items + 1
  | ordinal + 1, item :: items =>
      placeOf (if item.isImport then ordinal else ordinal + 1) items + 1

/-- The call as it reaches the section. -/
def command (call : Call) (current : Section) : Command :=
  match call with
  | .content command _ => command
  | .imports module commands includeUnused typeOnly =>
      .imports module commands includeUnused typeOnly
  | .registry ordinal commands => .registry (placeOf ordinal current.items) commands

/-- What a call makes of the registries. -/
def change (registries : List Registry) : Call → List Registry
  | .content _ _ => registries
  | .imports module commands includeUnused typeOnly =>
      let part := Outcome.run Registry.apply commands (.start module includeUnused typeOnly)
      match part.result with
      | .ok _ => registries ++ [part.state]
      | .error _ => registries
  | .registry ordinal commands =>
      match registries[ordinal]? with
      | some held => registries.set ordinal (Outcome.run Registry.apply commands held).state
      | none => registries

end Call

/-- The section that calls leave, whether they fail or not. -/
def perform (calls : List Call) (current : Section) : Section :=
  calls.foldl (fun current call => (current.apply (call.command current)).state) current

/-- Such a run reaches what a run of commands reaches. -/
theorem Reached.perform {current : Section} (reached : current.Reached) (calls : List Call) :
    (perform calls current).Reached := by
  induction calls generalizing current with
  | nil => exact reached
  | cons call calls ih => exact ih (reached.apply (call.command current))

/-! ## Where a registry stands -/

section Places

variable {items : List Item} {ordinal : Nat}

end Places

/-! ## What one call does -/

end TypeScriptGen.Section
