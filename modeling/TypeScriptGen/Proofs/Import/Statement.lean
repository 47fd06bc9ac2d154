import TypeScriptGen.Proofs.Import.Run
import TypeScriptGen.Proofs.Text.Delimited

/-!
# Import statements

A statement imports either the whole module under one name, or a default binding
and named ones, of which either may be missing. A registry prints at most one
statement of each form. From the printed text the statements can be told again:
names and quoted texts show where they end, and the words of the statement stand
where no name of a binding can be taken for them, also not the names `type`,
`from` and `as`.
-/

namespace TypeScriptGen

/-- What one statement imports, by the names that it spells. -/
inductive ImportClause
  | star (localName : Text)
  | members (default : Option Text) (named : List (Text × Text))

namespace ImportClause

/-- The local name behind the source name, where it is another one. -/
def aliasText (pair : Text × Text) : Text :=
  if pair.1 = pair.2 then [] else " as ".toList ++ pair.2

def pairText (pair : Text × Text) : Text := pair.1 ++ aliasText pair

def braced (named : List (Text × Text)) : List Text :=
  if named.isEmpty then []
  else [['\x7b', ' '] ++ ", ".toList.intercalate (named.map pairText) ++ [' ', '\x7d']]

def text : ImportClause → Text
  | .star localName => "* as ".toList ++ localName
  | .members default named => ", ".toList.intercalate (default.toList ++ braced named)

/-- The bindings of a clause by kind, source name and local name. -/
def names : ImportClause → List (BindingKind × Text × Text)
  | .star localName => [(.star, localName, localName)]
  | .members default named =>
      default.toList.map (fun name => (.default, name, name)) ++
        named.map fun pair => (.named, pair.1, pair.2)

/-- The clause imports something, and its names are identifiers. -/
def Proper : ImportClause → Prop
  | .star localName => Text.isIdentifier localName = true
  | .members default named =>
      (default.isSome = true ∨ named ≠ []) ∧ (∀ name ∈ default, Text.isIdentifier name = true) ∧
        ∀ pair ∈ named, Text.isIdentifier pair.1 = true ∧ Text.isIdentifier pair.2 = true

end ImportClause

namespace Registry

/-- The clauses of the statements that are printed. -/
def importClauses (registry : Registry) (includeUnused : Bool) : List ImportClause :=
  let default := (registry.keptDefault includeUnused).map Binding.localName
  let named := (registry.keptNamed includeUnused).map Binding.pair
  (registry.keptStar includeUnused).toList.map (fun binding => .star binding.localName) ++
    if default.isNone && named.isEmpty then [] else [.members default named]

/-- The bindings that are printed by kind, source name and local name: the namespace binding or else
the default one, and the named ones in order. -/
def survivors (registry : Registry) (includeUnused : Bool) : List (BindingKind × Text × Text) :=
  ((registry.keptStar includeUnused).toList ++ (registry.keptDefault includeUnused).toList ++
    registry.keptNamed includeUnused).map fun binding =>
      (binding.kind, binding.source, binding.localName)

/-- The names of all bindings are identifiers. -/
def Spelled (registry : Registry) : Prop :=
  ∀ binding ∈ registry.bindings,
    Text.isIdentifier binding.source = true ∧ Text.isIdentifier binding.localName = true

/-! ## What is printed -/

section Printing

variable {registry : Registry} {includeUnused : Bool}

theorem keptStar_find {binding : Binding} (kept : registry.keptStar includeUnused = some binding) :
    Place.star.find registry = some binding := (Option.filter_eq_some_iff.mp kept).1

theorem keptDefault_find {binding : Binding}
    (kept : registry.keptDefault includeUnused = some binding) :
    Place.default.find registry = some binding := by
  unfold keptDefault at kept
  split at kept
  · cases kept
  · exact (Option.filter_eq_some_iff.mp kept).1

theorem keptNamed_find {binding : Binding} (kept : binding ∈ registry.keptNamed includeUnused) :
    ∃ index, (Place.named index).find registry = some binding :=
  List.getElem?_of_mem (List.mem_filter.mp kept).1

theorem star_clause {binding : Binding} (fits : Place.star.Fits binding) :
    binding.clause = "* as ".toList ++ binding.localName := by
  have kind : binding.kind = .star := fits.kind
  simp only [Binding.clause, kind]

theorem default_clause {binding : Binding} (fits : Place.default.Fits binding) :
    binding.clause = binding.localName := by
  have kind : binding.kind = .default := fits.kind
  have plain := fits.plain nofun
  simp only [Binding.clause, kind, plain, if_true]

theorem named_clause {index : Nat} {binding : Binding} (fits : (Place.named index).Fits binding) :
    binding.clause = ImportClause.pairText binding.pair := by
  obtain ⟨kind, source, localName, used, marked⟩ := binding
  have kind : kind = .named := fits.kind
  subst kind
  change (if source = localName then localName else source ++ " as ".toList ++ localName) =
    source ++ if source = localName then [] else " as ".toList ++ localName
  split
  · next same => rw [List.append_nil, same]
  · rw [List.append_assoc]

theorem map_clause_named (fitting : registry.Fitting) :
    (registry.keptNamed includeUnused).map Binding.clause =
      ((registry.keptNamed includeUnused).map Binding.pair).map ImportClause.pairText := by
  rw [List.map_map]
  refine List.map_congr_left fun binding member => ?_
  obtain ⟨index, held⟩ := keptNamed_find member
  exact named_clause (fitting _ _ held)

theorem clauses_eq (fitting : registry.Fitting) :
    registry.clauses includeUnused =
      (registry.importClauses includeUnused).map ImportClause.text := by
  have stars : (registry.keptStar includeUnused).toList.map Binding.clause =
      ((registry.keptStar includeUnused).toList.map fun binding =>
        ImportClause.star binding.localName).map ImportClause.text := by
    rw [List.map_map]
    refine List.map_congr_left fun binding member => ?_
    exact star_clause (fitting _ _ (keptStar_find (Option.mem_toList.mp member)))
  have defaults : (registry.keptDefault includeUnused).toList.map Binding.clause =
      ((registry.keptDefault includeUnused).map Binding.localName).toList := by
    rw [Option.toList_map]
    refine List.map_congr_left fun binding member => ?_
    exact default_clause (fitting _ _ (keptDefault_find (Option.mem_toList.mp member)))
  have braces : namedClause (registry.keptNamed includeUnused) =
      ImportClause.braced ((registry.keptNamed includeUnused).map Binding.pair) := by
    unfold namedClause ImportClause.braced
    rw [map_clause_named fitting, List.isEmpty_map]
  unfold clauses importClauses
  dsimp only
  rw [stars, defaults, braces, List.map_append]
  refine congrArg _ ?_
  generalize (registry.keptDefault includeUnused).map Binding.localName = default
  generalize (registry.keptNamed includeUnused).map Binding.pair = named
  cases default <;> cases named <;> rfl

/-- One statement for each clause, each on a line of its own. -/
theorem print_eq_statements (fitting : registry.Fitting) (all typeOnly : Option Bool) :
    registry.print all typeOnly =
      .ok (['\n'].intercalate
        ((registry.importClauses (all.getD registry.includeUnused)).map fun clause =>
          Template.importLayout (typeOnly.getD registry.typeOnly) clause.text
            registry.module)) := by
  rw [print_eq, clauses_eq fitting, List.map_map]
  rfl

theorem survivors_eq (fitting : registry.Fitting) :
    registry.survivors includeUnused =
      (registry.importClauses includeUnused).flatMap ImportClause.names := by
  have stars : (registry.keptStar includeUnused).toList.map
      (fun binding => (binding.kind, binding.source, binding.localName)) =
        ((registry.keptStar includeUnused).toList.map fun binding =>
          ImportClause.star binding.localName).flatMap ImportClause.names := by
    rw [List.flatMap_map]
    cases kept : registry.keptStar includeUnused with
    | none => rfl
    | some binding =>
        have fits := fitting _ _ (keptStar_find kept)
        simp [ImportClause.names, fits.plain nofun, show binding.kind = .star from fits.kind]
  have defaults : (registry.keptDefault includeUnused).toList.map
      (fun binding => (binding.kind, binding.source, binding.localName)) =
        ((registry.keptDefault includeUnused).map Binding.localName).toList.map
          fun name => (.default, name, name) := by
    cases kept : registry.keptDefault includeUnused with
    | none => rfl
    | some binding =>
        have fits := fitting _ _ (keptDefault_find kept)
        simp [fits.plain nofun, show binding.kind = .default from fits.kind]
  have named : (registry.keptNamed includeUnused).map
      (fun binding => (binding.kind, binding.source, binding.localName)) =
        ((registry.keptNamed includeUnused).map Binding.pair).map
          fun pair => (.named, pair.1, pair.2) := by
    rw [List.map_map]
    refine List.map_congr_left fun binding member => ?_
    obtain ⟨index, held⟩ := keptNamed_find member
    have kind : binding.kind = .named := (fitting _ _ held).kind
    rw [kind]
    rfl
  unfold survivors importClauses
  rw [List.map_append, List.map_append, stars, defaults, named, List.append_assoc,
    List.flatMap_append]
  refine congrArg _ ?_
  generalize (registry.keptDefault includeUnused).map Binding.localName = default
  generalize (registry.keptNamed includeUnused).map Binding.pair = pairs
  cases default <;> cases pairs <;> simp [ImportClause.names]

theorem proper_importClauses (spelled : registry.Spelled) :
    ∀ clause ∈ registry.importClauses includeUnused, clause.Proper := by
  have placed {place : Place} {binding : Binding} (held : place.find registry = some binding) :
      Text.isIdentifier binding.source = true ∧ Text.isIdentifier binding.localName = true :=
    spelled binding (mem_bindings_iff.mpr ⟨place, held⟩)
  intro clause member
  unfold importClauses at member
  rcases List.mem_append.mp member with stars | rest
  · obtain ⟨binding, kept, rfl⟩ := List.mem_map.mp stars
    exact (placed (keptStar_find (Option.mem_toList.mp kept))).2
  · split at rest
    · cases rest
    · next some =>
        rw [List.mem_singleton.mp rest]
        refine ⟨?_, ?_, ?_⟩
        · simpa [or_iff_not_imp_left] using some
        · intro name given
          obtain ⟨binding, kept, rfl⟩ := Option.map_eq_some_iff.mp given
          exact (placed (keptDefault_find kept)).2
        · intro pair among
          obtain ⟨binding, kept, rfl⟩ := List.mem_map.mp among
          obtain ⟨index, held⟩ := keptNamed_find kept
          exact placed held

end Printing

end Registry

end TypeScriptGen
