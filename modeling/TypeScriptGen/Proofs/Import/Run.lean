import Mathlib.Data.List.Induction
import TypeScriptGen.Proofs.Import.Needed

/-!
# Registries along runs

Declarations, marks, options and reconciliations reach a registry in any order.
The named bindings are at any time the declared pairs of names, each at the place
of its first declaration, and a mark holds for good: only a default or namespace
binding can lose it, to a declaration under another name. A repeated event finds
nothing left to do, and it does not matter whether a mark or a reconciliation
comes first.
-/

namespace TypeScriptGen

namespace Binding

/-- The binding is marked and counts as used, so that nothing is left to decide about it. -/
structure Settled (binding : Binding) : Prop where
  marked : binding.marked = true
  used : binding.used = true

theorem Settled.mark_eq {binding : Binding} (settled : binding.Settled) :
    binding.mark = binding := by
  obtain ⟨kind, source, localName, used, marked⟩ := binding
  cases settled.marked
  cases settled.used
  rfl

theorem Settled.reconcile_eq {binding : Binding} (settled : binding.Settled)
    (isUsed : Text → Bool) : binding.reconcile isUsed = binding := by
  rw [reconcile, if_pos settled.marked]

theorem answersTo_mark (binding : Binding) (name : Text) :
    binding.mark.answersTo name = binding.answersTo name := rfl

/-- The source and local name. -/
def pair (binding : Binding) : Text × Text := (binding.source, binding.localName)

theorem pair_mark (binding : Binding) : binding.mark.pair = binding.pair := rfl

theorem pair_reconcile (isUsed : Text → Bool) (binding : Binding) :
    (binding.reconcile isUsed).pair = binding.pair := by
  rw [pair, reconcile_source, reconcile_localName, pair]

end Binding

namespace Registry

/-- What happens to a registry: one of its commands, or a reconciliation with whatever names count
as used, as when a section prints. -/
inductive Event
  | call (command : Command)
  | reconcile (isUsed : Text → Bool)

namespace Event

/-- The registry that an event leaves, also when it fails. -/
def change (event : Event) (registry : Registry) : Registry :=
  match event with
  | .call command => (apply command registry).state
  | .reconcile isUsed => registry.reconcile isUsed

/-- The pairs of source and local name that an event declares. -/
def declares : Event → List (Text × Text)
  | .call (.named name given) => [(name, if given.isEmpty then name else given)]
  | .call (.namedAll names) => names.map fun name => (name, name)
  | _ => []

def isMark : Event → Bool
  | .call (.markNamed _) => true
  | .call .markDefault => true
  | .call .markStar => true
  | _ => false

def isReconciliation : Event → Bool
  | .call (.reconcile _) => true
  | .reconcile _ => true
  | _ => false

end Event

/-- Where a registry holds a binding. -/
inductive Place
  | named (index : Nat)
  | default
  | star

def Place.find (place : Place) (registry : Registry) : Option Binding :=
  match place with
  | .named index => registry.named[index]?
  | .default => registry.default
  | .star => registry.star

def Place.kind : Place → BindingKind
  | .named _ => .named
  | .default => .default
  | .star => .star

/-- The event declares a binding with another local name for a place that only holds one. -/
def Event.replaces (event : Event) (place : Place) (localName : Text) : Bool :=
  match place, event with
  | .default, .call (.default name) => name != localName
  | .star, .call (.star name) => name != localName
  | _, _ => false

/-- The registry that events leave. -/
def after (registry : Registry) (events : List Event) : Registry :=
  events.foldl (fun registry event => event.change registry) registry

def pairs (registry : Registry) : List (Text × Text) := registry.named.map Binding.pair

theorem after_cons (registry : Registry) (event : Event) (events : List Event) :
    registry.after (event :: events) = (event.change registry).after events := rfl

/-- A reconciliation that fails does nothing; any other decides by some names. -/
theorem reconcileWith_cases (fragments : List Usage.Fragment) :
    (∀ registry : Registry, (registry.reconcileWith fragments).state = registry) ∨
      ∃ isUsed, ∀ registry : Registry,
        (registry.reconcileWith fragments).state = registry.reconcile isUsed := by
  unfold reconcileWith
  split
  · exact .inl fun registry => rfl
  · next tracker scanned => exact .inr ⟨tracker.isUsed, fun registry => rfl⟩

/-! ## Declared pairs -/

section Pairs

variable {registry : Registry}

theorem eraseDups_concat (declared : List (Text × Text)) (pair : Text × Text) :
    (declared ++ [pair]).eraseDups =
      if pair ∈ declared then declared.eraseDups else declared.eraseDups ++ [pair] := by
  rw [List.eraseDups_append]
  by_cases known : pair ∈ declared
  · simp [List.removeAll, known]
  · simp [List.removeAll, known, List.eraseDups_cons]

theorem nodup_eraseDups (declared : List (Text × Text)) : declared.eraseDups.Nodup := by
  induction declared using List.reverseRecOn with
  | nil => exact List.nodup_nil
  | append_singleton declared pair ih =>
      rw [eraseDups_concat]
      split
      · exact ih
      · next new =>
          have absent : pair ∉ declared.eraseDups := fun known => new (List.mem_eraseDups.mp known)
          rw [List.nodup_append]
          refine ⟨ih, List.pairwise_singleton _ pair, ?_⟩
          rintro known among other last rfl
          rw [List.mem_singleton.mp last] at among
          exact absent among

/-- The local name under which a name is declared. -/
def givenName (name given : Text) : Text := if given.isEmpty then name else given

theorem any_named_iff (registry : Registry) (name localName : Text) :
    (registry.named.any fun binding => binding.source == name && binding.localName == localName) =
      decide ((name, localName) ∈ registry.pairs) := by
  rw [Bool.eq_iff_iff, List.any_eq_true, decide_eq_true_eq, pairs, List.mem_map]
  simp [Binding.pair]

theorem addNamed_of_mem {name given : Text}
    (known : (name, givenName name given) ∈ registry.pairs) :
    registry.addNamed name given = registry := by
  unfold givenName at known
  unfold addNamed
  dsimp only
  rw [any_named_iff, if_pos (decide_eq_true known)]

theorem pairs_addNamed (registry : Registry) (name given : Text) :
    (registry.addNamed name given).pairs =
      if (name, givenName name given) ∈ registry.pairs then registry.pairs
      else registry.pairs ++ [(name, givenName name given)] := by
  split
  · next known => rw [addNamed_of_mem known]
  · next new =>
      unfold givenName at new ⊢
      unfold addNamed
      dsimp only
      rw [any_named_iff, if_neg (by simpa using new)]
      simp [pairs, Binding.pair, Binding.declare]

theorem mem_pairs_addNamed (registry : Registry) (name given : Text) :
    (name, givenName name given) ∈ (registry.addNamed name given).pairs := by
  rw [pairs_addNamed]
  split
  · assumption
  · exact List.mem_append_right _ List.mem_cons_self

theorem mem_addNamed {pair : Text × Text} (known : pair ∈ registry.pairs) (name given : Text) :
    pair ∈ (registry.addNamed name given).pairs := by
  rw [pairs_addNamed]
  split
  · exact known
  · exact List.mem_append_left _ known

theorem addNamed_declared {declared : List (Text × Text)}
    (held : registry.pairs = declared.eraseDups) (name given : Text) :
    (registry.addNamed name given).pairs =
      (declared ++ [(name, givenName name given)]).eraseDups := by
  rw [pairs_addNamed, held, eraseDups_concat]
  simp only [List.mem_eraseDups]

theorem addAllNamed_declared {declared : List (Text × Text)}
    (held : registry.pairs = declared.eraseDups) (names : List Text) :
    (registry.addAllNamed names).pairs =
      (declared ++ names.map fun name => (name, name)).eraseDups := by
  induction names generalizing registry declared with
  | nil => rwa [List.map_nil, List.append_nil]
  | cons name names ih =>
      have rest := ih (addNamed_declared held name [])
      rw [List.append_assoc] at rest
      exact rest

theorem pairs_markNamed (registry : Registry) (name : Text) :
    (registry.markNamed name).pairs = registry.pairs := by
  unfold pairs markNamed
  rw [List.map_map]
  refine List.map_congr_left fun binding _ => ?_
  rw [Function.comp_apply]
  split
  · exact binding.pair_mark
  · rfl

theorem pairs_reconcile (registry : Registry) (isUsed : Text → Bool) :
    (registry.reconcile isUsed).pairs = registry.pairs := by
  unfold pairs reconcile
  rw [List.map_map]
  exact List.map_congr_left fun binding _ => binding.pair_reconcile isUsed

/-- An event adds the pairs that it declares, unless they are there. -/
theorem pairs_change {declared : List (Text × Text)} (held : registry.pairs = declared.eraseDups)
    (event : Event) :
    (event.change registry).pairs = (declared ++ event.declares).eraseDups := by
  cases event with
  | reconcile isUsed =>
      change (registry.reconcile isUsed).pairs = (declared ++ []).eraseDups
      rw [pairs_reconcile, List.append_nil, held]
  | call command =>
      cases command with
      | named name given => exact addNamed_declared held name given
      | namedAll names => exact addAllNamed_declared held names
      | markNamed name =>
          change (registry.markNamed name).pairs = (declared ++ []).eraseDups
          rw [pairs_markNamed, List.append_nil, held]
      | reconcile fragments =>
          change (registry.reconcileWith fragments).state.pairs = (declared ++ []).eraseDups
          rw [List.append_nil, ← held]
          rcases reconcileWith_cases fragments with none | ⟨isUsed, same⟩
          · rw [none]
          · rw [same, pairs_reconcile]
      | _ =>
          change registry.pairs = (declared ++ []).eraseDups
          rw [List.append_nil, held]

theorem pairs_after {declared : List (Text × Text)} (held : registry.pairs = declared.eraseDups)
    (events : List Event) :
    (registry.after events).pairs = (declared ++ events.flatMap Event.declares).eraseDups := by
  induction events generalizing registry declared with
  | nil => rwa [List.flatMap_nil, List.append_nil]
  | cons event events ih =>
      rw [after_cons, ih (pairs_change held event), List.append_assoc, List.flatMap_cons]

end Pairs

/-! ## Marks -/

section Marks

variable {registry : Registry} {binding : Binding}

/-- A declared binding that nothing was decided about, with the local name of its source wherever a
place only holds one. -/
def Place.IsFresh (place : Place) (binding : Binding) : Prop :=
  ∃ source localName, binding = Binding.declare place.kind source localName ∧
    (place.kind ≠ .named → source = localName)

/-- A declaration of a named binding puts at most that binding behind the others. -/
theorem exists_addNamed (registry : Registry) (name given : Text) :
    ∃ fresh, registry.addNamed name given = { registry with named := registry.named ++ fresh } ∧
      ∀ binding ∈ fresh, ∀ index, (Place.named index).IsFresh binding := by
  unfold addNamed
  generalize (if given.isEmpty then name else given) = localName
  dsimp only
  split
  · exact ⟨[], by rw [List.append_nil], nofun⟩
  · refine ⟨_, rfl, ?_⟩
    intro binding member index
    rw [List.mem_singleton.mp member]
    exact ⟨name, localName, rfl, fun other => absurd rfl other⟩

theorem exists_addAllNamed (registry : Registry) (names : List Text) :
    ∃ fresh, registry.addAllNamed names = { registry with named := registry.named ++ fresh } ∧
      ∀ binding ∈ fresh, ∀ index, (Place.named index).IsFresh binding := by
  induction names generalizing registry with
  | nil => exact ⟨[], by rw [List.append_nil]; rfl, nofun⟩
  | cons name names ih =>
      obtain ⟨first, head, new⟩ := registry.exists_addNamed name []
      obtain ⟨more, tail, newer⟩ := ih (registry.addNamed name [])
      refine ⟨first ++ more, ?_, ?_⟩
      · change (registry.addNamed name []).addAllNamed names = _
        rw [tail, head, List.append_assoc]
      · intro binding member
        rcases List.mem_append.mp member with early | late
        · exact new binding early
        · exact newer binding late

theorem find_fresh {place : Place} (held : place.find registry = some binding)
    (fresh : List Binding) :
    place.find { registry with named := registry.named ++ fresh } = some binding := by
  cases place with
  | named index =>
      have held : registry.named[index]? = some binding := held
      obtain ⟨inside, _⟩ := List.getElem?_eq_some_iff.mp held
      change (registry.named ++ fresh)[index]? = some binding
      rw [List.getElem?_append_left inside, held]
  | default => exact held
  | star => exact held

theorem find_reconcile (place : Place) (registry : Registry) (isUsed : Text → Bool) :
    place.find (registry.reconcile isUsed) =
      (place.find registry).map (Binding.reconcile isUsed) := by
  cases place with
  | named index => exact List.getElem?_map
  | default => rfl
  | star => rfl

/-- No mark changes a settled binding. -/
theorem map_eq_of_settled (settled : binding.Settled) {found : Option Binding}
    (held : found = some binding) : found.map Binding.mark = some binding := by
  rw [held, Option.map_some, settled.mark_eq]

theorem redeclare_eq (kind : BindingKind) {name : Text} {found : Option Binding}
    (held : found = some binding) (same : (name != binding.localName) = false) :
    some (redeclare kind name found).1 = some binding := by
  rw [bne_eq_false_iff_eq] at same
  rw [held, redeclare, if_pos same.symm]

/-- An event leaves a settled binding where and as it is, unless it puts another in its place. -/
theorem find_change {place : Place} (settled : binding.Settled)
    (held : place.find registry = some binding) (event : Event)
    (unreplaced : event.replaces place binding.localName = false) :
    place.find (event.change registry) = some binding := by
  have reconciled (isUsed : Text → Bool) :
      place.find (registry.reconcile isUsed) = some binding := by
    rw [find_reconcile, held, Option.map_some, settled.reconcile_eq]
  cases event with
  | reconcile isUsed => exact reconciled isUsed
  | call command =>
      cases command with
      | named name given =>
          obtain ⟨fresh, grown, _⟩ := registry.exists_addNamed name given
          change place.find (registry.addNamed name given) = some binding
          rw [grown]
          exact find_fresh held fresh
      | namedAll names =>
          obtain ⟨fresh, grown, _⟩ := registry.exists_addAllNamed names
          change place.find (registry.addAllNamed names) = some binding
          rw [grown]
          exact find_fresh held fresh
      | default name =>
          cases place with
          | default => exact redeclare_eq .default held unreplaced
          | _ => exact held
      | star name =>
          cases place with
          | star => exact redeclare_eq .star held unreplaced
          | _ => exact held
      | markNamed name =>
          cases place with
          | named index =>
              have held : registry.named[index]? = some binding := held
              change (registry.named.map _)[index]? = some binding
              rw [List.getElem?_map, held, Option.map_some]
              split
              · rw [settled.mark_eq]
              · rfl
          | _ => exact held
      | markDefault =>
          cases place with
          | default => exact map_eq_of_settled settled held
          | _ => exact held
      | markStar =>
          cases place with
          | star => exact map_eq_of_settled settled held
          | _ => exact held
      | reconcile fragments =>
          change place.find (registry.reconcileWith fragments).state = some binding
          rcases reconcileWith_cases fragments with none | ⟨isUsed, same⟩
          · rwa [none]
          · rw [same]
            exact reconciled isUsed
      | options includeUnused typeOnly => cases place <;> exact held
      | print includeUnused typeOnly => exact held

theorem find_after {place : Place} (settled : binding.Settled)
    (held : place.find registry = some binding) (events : List Event)
    (unreplaced : ∀ event ∈ events, event.replaces place binding.localName = false) :
    place.find (registry.after events) = some binding := by
  induction events generalizing registry with
  | nil => exact held
  | cons event events ih =>
      have first := find_change settled held event (unreplaced event List.mem_cons_self)
      exact ih first fun other member => unreplaced other (List.mem_cons_of_mem event member)

theorem Counted.change (counted : registry.Counted) (event : Event) :
    (event.change registry).Counted := by
  cases event with
  | reconcile isUsed => exact counted.reconcile isUsed
  | call command => exact counted.apply command registry

theorem Counted.after (counted : registry.Counted) (events : List Event) :
    (registry.after events).Counted := by
  induction events generalizing registry with
  | nil => exact counted
  | cons event events ih => exact ih (counted.change event)

theorem Counted.find {place : Place} (counted : registry.Counted)
    (held : place.find registry = some binding) : binding.Counted := by
  cases place with
  | named index => exact counted.named binding (List.mem_of_getElem? held)
  | default => exact counted.default binding held
  | star => exact counted.star binding held

theorem mem_bindings_iff :
    binding ∈ registry.bindings ↔ ∃ place : Place, place.find registry = some binding := by
  unfold bindings
  rw [List.mem_append, List.mem_append, Option.mem_toList, Option.mem_toList]
  constructor
  · rintro ((held | held) | member)
    · exact ⟨.star, held⟩
    · exact ⟨.default, held⟩
    · obtain ⟨index, held⟩ := List.getElem?_of_mem member
      exact ⟨.named index, held⟩
  · rintro ⟨place, held⟩
    cases place with
    | named index => exact .inr (List.mem_of_getElem? held)
    | default => exact .inl (.inr held)
    | star => exact .inl (.inl held)

end Marks

/-! ## Where bindings come from -/

section Origins

variable {registry : Registry} {binding : Binding}

/-- What one event can do to a binding that stays where it is. -/
inductive Touched (old : Binding) : Binding → Prop
  | same : Touched old old
  | mark : Touched old old.mark
  | reconcile (isUsed : Text → Bool) : Touched old (old.reconcile isUsed)

/-- What stands at a place comes from what stood there, or was declared for it. -/
def Place.Yields (place : Place) (registry : Registry) (binding : Binding) : Prop :=
  (∃ old, place.find registry = some old ∧ Touched old binding) ∨ place.IsFresh binding

theorem yields_same {place : Place} (held : place.find registry = some binding) :
    place.Yields registry binding := .inl ⟨binding, held, .same⟩

theorem yields_reconcile {place : Place} {isUsed : Text → Bool}
    (held : place.find (registry.reconcile isUsed) = some binding) :
    place.Yields registry binding := by
  rw [find_reconcile] at held
  obtain ⟨old, found, rfl⟩ := Option.map_eq_some_iff.mp held
  exact .inl ⟨old, found, .reconcile isUsed⟩

theorem yields_fresh {place : Place} {fresh : List Binding}
    (new : ∀ binding ∈ fresh, ∀ index, (Place.named index).IsFresh binding)
    (held : place.find { registry with named := registry.named ++ fresh } = some binding) :
    place.Yields registry binding := by
  cases place with
  | named index =>
      have held : (registry.named ++ fresh)[index]? = some binding := held
      rw [List.getElem?_append] at held
      split at held
      · exact yields_same held
      · exact .inr (new binding (List.mem_of_getElem? held) index)
  | default => exact yields_same held
  | star => exact yields_same held

theorem redeclare_cases (kind : BindingKind) (name : Text) (old : Option Binding) :
    some (redeclare kind name old).1 = old ∨
      (redeclare kind name old).1 = Binding.declare kind name name := by
  cases old with
  | none => exact .inr rfl
  | some binding =>
      rw [redeclare]
      split
      · exact .inl rfl
      · exact .inr rfl

/-- Whatever an event leaves at a place comes from what stood there, or was declared for it. -/
theorem yields_change {place : Place} (event : Event)
    (held : place.find (event.change registry) = some binding) :
    place.Yields registry binding := by
  cases event with
  | reconcile isUsed => exact yields_reconcile held
  | call command =>
      cases command with
      | named name given =>
          obtain ⟨fresh, grown, new⟩ := registry.exists_addNamed name given
          change place.find (registry.addNamed name given) = some binding at held
          rw [grown] at held
          exact yields_fresh new held
      | namedAll names =>
          obtain ⟨fresh, grown, new⟩ := registry.exists_addAllNamed names
          change place.find (registry.addAllNamed names) = some binding at held
          rw [grown] at held
          exact yields_fresh new held
      | default name =>
          cases place with
          | default =>
              rcases redeclare_cases .default name registry.default with same | new
              · exact yields_same (same.symm.trans held)
              · exact .inr ⟨name, name, (Option.some.inj held).symm.trans new, fun _ => rfl⟩
          | _ => exact yields_same held
      | star name =>
          cases place with
          | star =>
              rcases redeclare_cases .star name registry.star with same | new
              · exact yields_same (same.symm.trans held)
              · exact .inr ⟨name, name, (Option.some.inj held).symm.trans new, fun _ => rfl⟩
          | _ => exact yields_same held
      | markNamed name =>
          cases place with
          | named index =>
              have held : (registry.named.map _)[index]? = some binding := held
              rw [List.getElem?_map] at held
              obtain ⟨old, found, rfl⟩ := Option.map_eq_some_iff.mp held
              split
              · exact .inl ⟨old, found, .mark⟩
              · exact yields_same found
          | _ => exact yields_same held
      | markDefault =>
          cases place with
          | default =>
              obtain ⟨old, found, rfl⟩ := Option.map_eq_some_iff.mp held
              exact .inl ⟨old, found, .mark⟩
          | _ => exact yields_same held
      | markStar =>
          cases place with
          | star =>
              obtain ⟨old, found, rfl⟩ := Option.map_eq_some_iff.mp held
              exact .inl ⟨old, found, .mark⟩
          | _ => exact yields_same held
      | reconcile fragments =>
          change place.find (registry.reconcileWith fragments).state = some binding at held
          rcases reconcileWith_cases fragments with none | ⟨isUsed, same⟩
          · rw [none] at held
            exact yields_same held
          · rw [same] at held
            exact yields_reconcile held
      | options includeUnused typeOnly => cases place <;> exact yields_same held
      | print includeUnused typeOnly => exact yields_same held

/-- The binding is of the kind that the place holds, and has an own local name only if it is a
named one. -/
structure Place.Fits (place : Place) (binding : Binding) : Prop where
  kind : binding.kind = place.kind
  plain : place.kind ≠ .named → binding.source = binding.localName

theorem Place.Fits.touched {place : Place} {old : Binding} (fits : place.Fits old)
    (touched : Touched old binding) : place.Fits binding := by
  cases touched with
  | same => exact fits
  | mark => exact ⟨fits.kind, fits.plain⟩
  | reconcile isUsed =>
      unfold Binding.reconcile
      split
      · exact fits
      · exact ⟨fits.kind, fits.plain⟩

theorem Place.IsFresh.fits {place : Place} (fresh : place.IsFresh binding) :
    place.Fits binding := by
  obtain ⟨source, localName, rfl, plain⟩ := fresh
  exact ⟨rfl, plain⟩

/-- Every binding fits its place. -/
def Fitting (registry : Registry) : Prop :=
  ∀ (place : Place) binding, place.find registry = some binding → place.Fits binding

theorem fitting_start (module : Text) (includeUnused typeOnly : Bool) :
    (start module includeUnused typeOnly).Fitting := by
  intro place binding held
  cases place <;> cases held

theorem Fitting.after (fitting : registry.Fitting) (events : List Event) :
    (registry.after events).Fitting := by
  induction events generalizing registry with
  | nil => exact fitting
  | cons event events ih =>
      refine ih ?_
      intro place binding held
      rcases yields_change event held with ⟨old, found, touched⟩ | fresh
      · exact (fitting place old found).touched touched
      · exact fresh.fits

end Origins

/-! ## Repeated events -/

section Repetition

variable (registry : Registry)

theorem addNamed_addNamed (name given : Text) :
    (registry.addNamed name given).addNamed name given = registry.addNamed name given :=
  addNamed_of_mem (registry.mem_pairs_addNamed name given)

theorem mem_addAllNamed {pair : Text × Text} (known : pair ∈ registry.pairs) (names : List Text) :
    pair ∈ (registry.addAllNamed names).pairs := by
  induction names generalizing registry with
  | nil => exact known
  | cons name names ih => exact ih _ (mem_addNamed known name [])

theorem mem_pairs_addAllNamed (names : List Text) :
    ∀ name ∈ names, (name, name) ∈ (registry.addAllNamed names).pairs := by
  induction names generalizing registry with
  | nil => intro name member; cases member
  | cons first names ih =>
      intro name member
      rcases List.mem_cons.mp member with rfl | later
      · exact mem_addAllNamed _ (registry.mem_pairs_addNamed name []) names
      · exact ih _ name later

theorem addAllNamed_of_mem {names : List Text}
    (known : ∀ name ∈ names, (name, name) ∈ registry.pairs) :
    registry.addAllNamed names = registry := by
  induction names with
  | nil => rfl
  | cons name names ih =>
      change (registry.addNamed name []).addAllNamed names = registry
      rw [addNamed_of_mem (known name List.mem_cons_self)]
      exact ih fun other member => known other (List.mem_cons_of_mem name member)

theorem addAllNamed_addAllNamed (names : List Text) :
    (registry.addAllNamed names).addAllNamed names = registry.addAllNamed names :=
  addAllNamed_of_mem _ (registry.mem_pairs_addAllNamed names)

theorem redeclare_redeclare (kind : BindingKind) (name : Text) (old : Option Binding) :
    (redeclare kind name (some (redeclare kind name old).1)).1 = (redeclare kind name old).1 := by
  cases old with
  | none => simp [redeclare, Binding.declare]
  | some binding =>
      by_cases same : binding.localName = name
      · simp [redeclare, same]
      · simp [redeclare, same, Binding.declare]

theorem setDefault_state (name : Text) :
    (registry.setDefault name).state =
      { registry with default := some (redeclare .default name registry.default).1 } := rfl

theorem setStar_state (name : Text) :
    (registry.setStar name).state =
      { registry with star := some (redeclare .star name registry.star).1 } := rfl

theorem setOptions_setOptions (includeUnused typeOnly : Option Bool) :
    (registry.setOptions includeUnused typeOnly).setOptions includeUnused typeOnly =
      registry.setOptions includeUnused typeOnly := by
  cases includeUnused <;> cases typeOnly <;> rfl

theorem markNamed_markNamed (name : Text) :
    (registry.markNamed name).markNamed name = registry.markNamed name := by
  have again (binding : Binding) :
      (fun binding : Binding => if binding.answersTo name then binding.mark else binding)
          (if binding.answersTo name then binding.mark else binding) =
        if binding.answersTo name then binding.mark else binding := by
    cases answers : binding.answersTo name <;>
      simp [answers, Binding.answersTo_mark, Binding.mark_mark]
  unfold markNamed
  simp only [List.map_map, Function.comp_def, again]

theorem mark_mark_option (held : Option Binding) :
    (held.map Binding.mark).map Binding.mark = held.map Binding.mark := by
  cases held <;> rfl

theorem markDefault_markDefault : registry.markDefault.markDefault = registry.markDefault := by
  unfold markDefault
  rw [mark_mark_option]

theorem markStar_markStar : registry.markStar.markStar = registry.markStar := by
  unfold markStar
  rw [mark_mark_option]

/-- An event that is repeated at once changes nothing more. -/
theorem change_change (event : Event) :
    event.change (event.change registry) = event.change registry := by
  cases event with
  | reconcile isUsed => exact registry.reconcile_reconcile isUsed isUsed
  | call command =>
      cases command with
      | named name given => exact registry.addNamed_addNamed name given
      | namedAll names => exact registry.addAllNamed_addAllNamed names
      | default name =>
          change ((registry.setDefault name).state.setDefault name).state =
            (registry.setDefault name).state
          rw [setDefault_state, setDefault_state, redeclare_redeclare]
      | star name =>
          change ((registry.setStar name).state.setStar name).state =
            (registry.setStar name).state
          rw [setStar_state, setStar_state, redeclare_redeclare]
      | options includeUnused typeOnly =>
          exact registry.setOptions_setOptions includeUnused typeOnly
      | markNamed name => exact registry.markNamed_markNamed name
      | markDefault => exact registry.markDefault_markDefault
      | markStar => exact registry.markStar_markStar
      | reconcile fragments =>
          change ((registry.reconcileWith fragments).state.reconcileWith fragments).state =
            (registry.reconcileWith fragments).state
          rcases reconcileWith_cases fragments with none | ⟨isUsed, same⟩
          · rw [none]
          · rw [same, same]
            exact registry.reconcile_reconcile isUsed isUsed
      | print includeUnused typeOnly => rfl

end Repetition

/-! ## Marks and reconciliations -/

theorem isReconciliation_cases {event : Event} (reconciles : event.isReconciliation = true) :
    (∀ registry, event.change registry = registry) ∨
      ∃ isUsed, ∀ registry, event.change registry = registry.reconcile isUsed := by
  cases event with
  | reconcile isUsed => exact .inr ⟨isUsed, fun registry => rfl⟩
  | call command =>
      cases command with
      | reconcile fragments => exact reconcileWith_cases fragments
      | _ => cases reconciles

/-- Marks and reconciliations commute. -/
theorem change_comm (registry : Registry) {mark reconciliation : Event}
    (marks : mark.isMark = true) (reconciles : reconciliation.isReconciliation = true) :
    mark.change (reconciliation.change registry) =
      reconciliation.change (mark.change registry) := by
  rcases isReconciliation_cases reconciles with none | ⟨isUsed, same⟩
  · rw [none, none]
  · rw [same, same]
    cases mark with
    | reconcile isUsed => cases marks
    | call command =>
        cases command with
        | markNamed name => exact registry.markNamed_reconcile isUsed name
        | markDefault => exact registry.markDefault_reconcile isUsed
        | markStar => exact registry.markStar_reconcile isUsed
        | _ => cases marks

/-! ## The laws of a run -/

/-- What holds of the registry that events leave behind a fresh one. -/
structure Lawful (events : List Event) (registry : Registry) : Prop where
  /-- The named bindings are those declared, each at the place of its first declaration. -/
  ordered : registry.pairs = (events.flatMap Event.declares).eraseDups
  distinct : registry.pairs.Nodup
  lasting : ∀ later, registry.pairs <+: (registry.after later).pairs
  counted : ∀ binding ∈ registry.bindings, binding.marked = true → binding.used = true
  /-- A marked binding stays marked and used, and where it is, unless it is replaced. -/
  settled : ∀ (place : Place) binding, place.find registry = some binding →
    binding.marked = true → ∀ later,
      (∀ event ∈ later, event.replaces place binding.localName = false) →
        place.find (registry.after later) = some binding
  repeatable : ∀ event : Event, event.change (event.change registry) = event.change registry
  commuting : ∀ mark reconciliation : Event, mark.isMark = true →
    reconciliation.isReconciliation = true →
      mark.change (reconciliation.change registry) = reconciliation.change (mark.change registry)

/-- Every run keeps the laws, whatever its events are and however they are mixed. -/
theorem lawful_after (module : Text) (includeUnused typeOnly : Bool) (events : List Event) :
    Lawful events ((start module includeUnused typeOnly).after events) := by
  have none : (start module includeUnused typeOnly).pairs = ([] : List (Text × Text)).eraseDups :=
    rfl
  have declared := pairs_after none events
  rw [List.nil_append] at declared
  have counted := (counted_start module includeUnused typeOnly).after events
  generalize (start module includeUnused typeOnly).after events = registry at declared counted
  constructor
  · exact declared
  · rw [declared]
    exact nodup_eraseDups _
  · intro later
    rw [pairs_after declared later, List.eraseDups_append, ← declared]
    exact List.prefix_append _ _
  · intro binding member marked
    obtain ⟨place, held⟩ := mem_bindings_iff.mp member
    exact counted.find held marked
  · intro place binding held marked later unreplaced
    exact find_after ⟨marked, counted.find held marked⟩ held later unreplaced
  · intro event
    exact registry.change_change event
  · intro mark reconciliation marks reconciles
    exact registry.change_comm marks reconciles

end Registry

end TypeScriptGen
