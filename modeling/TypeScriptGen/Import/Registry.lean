import TypeScriptGen.Outcome
import TypeScriptGen.Template
import TypeScriptGen.Usage.Tracker

/-!
# Import registries

A registry collects the bindings wanted from one module: named ones, at most one
default and at most one namespace binding. A binding is used when the caller
marked it or when reconciliation found its local name among the names that code
uses; marks are never taken back, while each reconciliation decides anew on the
unmarked bindings. Only used bindings are written, unless all are asked for. A
namespace binding stands alone in its statement and displaces the default one.
-/

namespace TypeScriptGen

inductive BindingKind
  | named
  | default
  | star
deriving DecidableEq

structure Binding where
  kind : BindingKind
  source : Text
  localName : Text
  used : Bool
  /-- The caller marked the binding. -/
  marked : Bool
deriving DecidableEq

namespace Binding

def declare (kind : BindingKind) (source localName : Text) : Binding :=
  ⟨kind, source, localName, false, false⟩

def mark (binding : Binding) : Binding := { binding with used := true, marked := true }

theorem mark_mark (binding : Binding) : binding.mark.mark = binding.mark := rfl

/-- Decides on an unmarked binding by the names that are used. -/
def reconcile (isUsed : Text → Bool) (binding : Binding) : Binding :=
  if binding.marked then binding else { binding with used := isUsed binding.localName }

def answersTo (binding : Binding) (name : Text) : Bool :=
  name == binding.source || name == binding.localName

def clause (binding : Binding) : Text :=
  match binding.kind with
  | .star => "* as ".toList ++ binding.localName
  | _ =>
      if binding.source = binding.localName then binding.localName
      else binding.source ++ " as ".toList ++ binding.localName

def isKept (includeUnused : Bool) (binding : Binding) : Bool := includeUnused || binding.used

end Binding

structure Registry where
  module : Text
  includeUnused : Bool
  typeOnly : Bool
  named : List Binding
  default : Option Binding
  star : Option Binding

namespace Registry

def start (module : Text) (includeUnused typeOnly : Bool) : Registry :=
  ⟨module, includeUnused, typeOnly, [], none, none⟩

inductive Command
  | named (name given : Text)
  | namedAll (names : List Text)
  | default (name : Text)
  | star (name : Text)
  | options (includeUnused typeOnly : Option Bool)
  | markNamed (name : Text)
  | markDefault
  | markStar
  | reconcile (fragments : List Usage.Fragment)
  | print (includeUnused typeOnly : Option Bool)

/-- The namespace binding, the default binding and the named ones. -/
def bindings (registry : Registry) : List Binding :=
  registry.star.toList ++ registry.default.toList ++ registry.named

/-- Declares a named binding; an empty given name is none, and a declared pair is not repeated. -/
def addNamed (registry : Registry) (name given : Text) : Registry :=
  let localName := if given.isEmpty then name else given
  if registry.named.any fun binding => binding.source == name && binding.localName == localName then
    registry
  else
    { registry with named := registry.named ++ [Binding.declare .named name localName] }

def addAllNamed (registry : Registry) (names : List Text) : Registry :=
  names.foldl (fun registry name => registry.addNamed name []) registry

/-- The binding that a declaration leaves in a place for one, with the name that it replaces. -/
def redeclare (kind : BindingKind) (name : Text) : Option Binding → Binding × Option Text
  | none => (Binding.declare kind name name, none)
  | some old =>
      if old.localName = name then (old, none)
      else (Binding.declare kind name name, some old.localName)

def setDefault (registry : Registry) (name : Text) : Outcome Registry :=
  let (binding, replaced) := redeclare .default name registry.default
  ⟨{ registry with default := some binding },
    replaced.toList.map fun old => .replacedDefault old registry.module name, .ok none⟩

def setStar (registry : Registry) (name : Text) : Outcome Registry :=
  let (binding, replaced) := redeclare .star name registry.star
  ⟨{ registry with star := some binding },
    replaced.toList.map fun old => .replacedNamespace old registry.module name, .ok none⟩

/-- Sets the options that are given. -/
def setOptions (registry : Registry) (includeUnused typeOnly : Option Bool) : Registry :=
  { registry with
    includeUnused := includeUnused.getD registry.includeUnused
    typeOnly := typeOnly.getD registry.typeOnly }

/-- Marks every named binding with the given source or local name. -/
def markNamed (registry : Registry) (name : Text) : Registry :=
  { registry with
    named := registry.named.map fun binding =>
      if binding.answersTo name then binding.mark else binding }

def markDefault (registry : Registry) : Registry :=
  { registry with default := registry.default.map Binding.mark }

def markStar (registry : Registry) : Registry :=
  { registry with star := registry.star.map Binding.mark }

def reconcile (registry : Registry) (isUsed : Text → Bool) : Registry :=
  { registry with
    named := registry.named.map (Binding.reconcile isUsed)
    default := registry.default.map (Binding.reconcile isUsed)
    star := registry.star.map (Binding.reconcile isUsed) }

theorem bindings_reconcile (registry : Registry) (isUsed : Text → Bool) :
    (registry.reconcile isUsed).bindings = registry.bindings.map (Binding.reconcile isUsed) := by
  cases registry with
  | mk module includeUnused typeOnly named default star =>
      cases default <;> cases star <;> simp [reconcile, bindings]

def keptStar (registry : Registry) (includeUnused : Bool) : Option Binding :=
  registry.star.filter (Binding.isKept includeUnused)

/-- The default binding is kept only where no namespace binding is. -/
def keptDefault (registry : Registry) (includeUnused : Bool) : Option Binding :=
  if (registry.keptStar includeUnused).isSome then none
  else registry.default.filter (Binding.isKept includeUnused)

def keptNamed (registry : Registry) (includeUnused : Bool) : List Binding :=
  registry.named.filter (Binding.isKept includeUnused)

/-- Named bindings between braces; none make nothing. -/
def namedClause (kept : List Binding) : List Text :=
  if kept.isEmpty then []
  else
    [['\x7b', ' '] ++ ", ".toList.intercalate (kept.map Binding.clause) ++ [' ', '\x7d']]

/-- The clauses of the statements that are written: the namespace binding's, and that of the
others together. -/
def clauses (registry : Registry) (includeUnused : Bool) : List Text :=
  let first := (registry.keptStar includeUnused).toList.map Binding.clause
  let rest :=
    (registry.keptDefault includeUnused).toList.map Binding.clause ++
      namedClause (registry.keptNamed includeUnused)
  first ++ (if rest.isEmpty then [] else [", ".toList.intercalate rest])

def statement (typeOnly : Bool) (module clause : Text) : Except Failure Text :=
  Engine.standard.render Template.importName
    [("type_only".toList, .bool typeOnly), ("clause".toList, .text clause),
      ("module".toList, .text module)]

theorem statement_eq (typeOnly : Bool) (module clause : Text) :
    statement typeOnly module clause = .ok (Template.importLayout typeOnly clause module) := rfl

/-- The import statements, one a line; options that are not given are the registry's own. -/
def print (registry : Registry) (includeUnused typeOnly : Option Bool) : Except Failure Text := do
  let clauses := registry.clauses (includeUnused.getD registry.includeUnused)
  let lines ← clauses.mapM (statement (typeOnly.getD registry.typeOnly) registry.module)
  pure (['\n'].intercalate lines)

/-- Reconciles with the names of some fragments of code. -/
def reconcileWith (registry : Registry) (fragments : List Usage.Fragment) : Outcome Registry :=
  match Usage.Tracker.scanAll .empty fragments with
  | (_, .error failure) => .failed registry failure
  | (tracker, .ok ()) => .done (registry.reconcile tracker.isUsed)

def apply (command : Command) (registry : Registry) : Outcome Registry :=
  match command with
  | .named name given => .done (registry.addNamed name given)
  | .namedAll names => .done (registry.addAllNamed names)
  | .default name => registry.setDefault name
  | .star name => registry.setStar name
  | .options includeUnused typeOnly => .done (registry.setOptions includeUnused typeOnly)
  | .markNamed name => .done (registry.markNamed name)
  | .markDefault => .done registry.markDefault
  | .markStar => .done registry.markStar
  | .reconcile fragments => registry.reconcileWith fragments
  | .print includeUnused typeOnly => .answered registry (registry.print includeUnused typeOnly)

end Registry

end TypeScriptGen
