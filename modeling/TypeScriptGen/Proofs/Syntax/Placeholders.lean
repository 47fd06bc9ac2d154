import TypeScriptGen.Proofs.Syntax.OnePass

/-!
# Trees that are not printed

Printing goes to every child of a node but the references of free text, which
stands for itself. So a tree whose bodies are blocks fails to be printed with the
built-in layouts exactly if a placeholder stands where printing comes to it, and
whatever the placeholder stands in, the failure is that of the placeholder.
-/

namespace TypeScriptGen

namespace Node

variable {node body : Node} {nodes : List Node}

/-! ## Exposed placeholders -/

/-- The children that are printed with the node. -/
def printedChildren : Node → List Node
  | .raw _ _ => []
  | node => node.children

/-- Printing comes to a placeholder in the tree. -/
inductive Exposed : Node → Prop
  | here : Exposed .placeholder
  | deeper {outer child : Node} (among : child ∈ outer.printedChildren) (exposed : Exposed child) :
      Exposed outer

/-- Printing comes to a placeholder in one of the nodes. -/
def AnyExposed (nodes : List Node) : Prop := ∃ node ∈ nodes, node.Exposed

@[simp] theorem anyExposed_nil : ¬AnyExposed [] := fun ⟨_, among, _⟩ => List.not_mem_nil among

@[simp] theorem anyExposed_cons : AnyExposed (node :: nodes) ↔ node.Exposed ∨ AnyExposed nodes :=
  List.exists_mem_cons_iff ..

@[simp] theorem anyExposed_append {first second : List Node} :
    AnyExposed (first ++ second) ↔ AnyExposed first ∨ AnyExposed second := by
  simp only [AnyExposed, List.mem_append, or_and_right, exists_or]

theorem exposed_iff (known : node.isPlaceholder = false) :
    node.Exposed ↔ AnyExposed node.printedChildren := by
  constructor
  · intro exposed
    cases exposed with
    | here => cases known
    | deeper among exposed => exact ⟨_, among, exposed⟩
  · rintro ⟨child, among, exposed⟩
    exact .deeper among exposed

theorem not_exposed_of_childless (known : node.isPlaceholder = false)
    (childless : node.printedChildren = []) : ¬node.Exposed := by
  rw [exposed_iff known, childless]
  exact anyExposed_nil

/-- Names are known throughout. -/
@[simp] theorem not_exposed_named (name : Name) : ¬Exposed (.named name) := by
  induction name with
  | identifier text => exact not_exposed_of_childless rfl rfl
  | qualified left right ih =>
      intro exposed
      rcases anyExposed_cons.mp ((exposed_iff rfl).mp exposed) with first | ⟨other, last, second⟩
      · exact ih first
      · rw [List.mem_singleton.mp last] at second
        exact not_exposed_of_childless rfl rfl second

@[simp] theorem not_exposed_identifier (text : Text) : ¬Exposed (identifier text) :=
  not_exposed_named (.identifier text)

/-! ## Where printing stops -/

/-- The failure of a placeholder. -/
def unknownKind : Failure := .unprintable "Node".toList

/-- There is no result exactly if the condition holds, and then for want of a known node. -/
def StopsIff {α : Type} (condition : Prop) (outcome : Except Failure α) : Prop :=
  ∀ failure, outcome = .error failure ↔ condition ∧ failure = unknownKind

section Stopping

variable {α β : Type} {first second : Prop} {outcome : Except Failure α}

theorem stopsIff_ok (never : ¬first) (result : α) :
    StopsIff first (.ok result : Except Failure α) :=
  fun _ => ⟨nofun, fun stopped => absurd stopped.1 never⟩

theorem stopsIff_error (holds : first) :
    StopsIff first (.error unknownKind : Except Failure α) := by
  intro failure
  constructor
  · intro same
    exact ⟨holds, (Except.error.inj same).symm⟩
  · rintro ⟨_, rfl⟩
    rfl

theorem StopsIff.goes (stops : StopsIff first outcome) (never : ¬first) :
    ∃ result, outcome = .ok result := by
  cases outcome with
  | ok result => exact ⟨result, rfl⟩
  | error failure => exact absurd ((stops failure).mp rfl).1 never

theorem StopsIff.congr (stops : StopsIff first outcome) (same : second ↔ first) :
    StopsIff second outcome := fun failure => (stops failure).trans (and_congr_left' same.symm)

/-- Two steps come to their end unless one of them stops. -/
theorem StopsIff.bind (stops : StopsIff first outcome) {next : α → Except Failure β}
    (later : ∀ result, StopsIff second (next result)) :
    StopsIff (first ∨ second) (outcome >>= next) := by
  cases outcome with
  | ok result =>
      have never : ¬first := fun holds => nomatch (stops unknownKind).mpr ⟨holds, rfl⟩
      exact (later result).congr (or_iff_right never)
  | error failure =>
      obtain ⟨holds, rfl⟩ := (stops failure).mp rfl
      exact stopsIff_error (.inl holds)

/-- A last step that always gives a result. -/
theorem StopsIff.last (stops : StopsIff first outcome) {next : α → Except Failure β}
    (done : ∀ result, ∃ text, next result = .ok text) : StopsIff first (outcome >>= next) := by
  have goes (result : α) : StopsIff False (next result) := by
    obtain ⟨text, made⟩ := done result
    rw [made]
    exact stopsIff_ok not_false text
  exact (stops.bind goes).congr (or_iff_left not_false).symm

theorem StopsIff.pure (stops : StopsIff first outcome) (write : α → β) :
    StopsIff first (outcome >>= fun result => Pure.pure (write result)) :=
  stops.last fun result => ⟨write result, rfl⟩

theorem StopsIff.map (stops : StopsIff first outcome) (write : α → β) :
    StopsIff first (outcome.map write) := by
  cases outcome with
  | ok result => exact stops.pure write
  | error failure => exact stops.pure write

end Stopping

/-! ## Parts of a node -/

/-- The printer stops at exposed placeholders, and at nothing else. -/
def StopsExposed (margin : Nat) (node : Node) : Prop :=
  StopsIff node.Exposed (Printer.bare ⟨.standard, margin⟩ node)

section Parts

variable {margin : Nat}

theorem stopsIff_all (each : ∀ node ∈ nodes, StopsExposed margin node) :
    StopsIff (AnyExposed nodes) (Printer.printAll ⟨.standard, margin⟩ nodes) := by
  induction nodes with
  | nil => exact stopsIff_ok anyExposed_nil []
  | cons node nodes ih =>
      have first := each node List.mem_cons_self
      have rest := ih fun other among => each other (List.mem_cons_of_mem node among)
      exact (first.bind fun text => rest.pure _).congr anyExposed_cons

theorem stopsIff_option {node : Option Node}
    (each : ∀ found ∈ node.toList, StopsExposed margin found) :
    StopsIff (AnyExposed node.toList) (Printer.printOption ⟨.standard, margin⟩ node) := by
  cases node with
  | none => exact stopsIff_ok anyExposed_nil none
  | some node =>
      refine ((each node List.mem_cons_self).pure _).congr ?_
      exact anyExposed_cons.trans (or_iff_left anyExposed_nil)

/-- A body is printed as the block that it is. -/
theorem stopsIff_body (isBody : IsBody body) (stops : StopsExposed margin body) :
    StopsIff body.Exposed (Printer.printBody ⟨.standard, margin⟩ body) := by
  obtain ⟨statements, comment, rfl⟩ := isBody
  exact stops

theorem stopsIff_alternative {alternative : Option Node}
    (kinds : ∀ node ∈ alternative.toList, node.isConditional = true ∨ IsBody node)
    (each : ∀ node ∈ alternative.toList, StopsExposed margin node) :
    StopsIff (AnyExposed alternative.toList)
      (Printer.printAlternative ⟨.standard, margin⟩ alternative) := by
  cases alternative with
  | none => exact stopsIff_ok anyExposed_nil none
  | some node =>
      have stops := each node List.mem_cons_self
      refine StopsIff.congr ?_ (anyExposed_cons.trans (or_iff_left anyExposed_nil))
      rw [Printer.printAlternative]
      split
      · exact stops.pure some
      · next other =>
          have isBody := (kinds node List.mem_cons_self).resolve_left other
          exact (stopsIff_body isBody stops).pure some

end Parts

/-! ## Whole trees -/

/-- The bodies in the tree are blocks. -/
def Bodied (root : Node) : Prop := ∀ node : Node, node.Within root → node.hasBodies = true

theorem bodied_iff {root : Node} : Bodied root ↔ root.walk.all hasBodies = true := by
  simp only [Bodied, List.all_eq_true, mem_walk_iff]

instance : DecidablePred Bodied := fun _ => decidable_of_iff _ bodied_iff.symm

theorem Bodied.child {root child : Node} (bodied : Bodied root) (among : child ∈ root.children) :
    Bodied child := fun node within => bodied node (.deeper among within)

/-- A node that is printed with all its children stops where the parts of its outcome stop. -/
theorem StopsIff.of_parts {condition : Prop} {outcome : Except Failure Text}
    (stops : StopsIff condition outcome) (known : node.isPlaceholder = false)
    (printed : node.printedChildren = node.children)
    (same : AnyExposed node.children ↔ condition) : StopsIff node.Exposed outcome :=
  stops.congr (by rw [exposed_iff known, printed, same])

theorem Bodied.stops (margin : Nat) {node : Node} (bodied : Bodied node) :
    StopsExposed margin node := by
  induction node using induction_on_children with
  | step node ih =>
      -- in each case the steps of the printer come in its order; the order of the children differs
      have part {child : Node} (among : child ∈ node.children) : StopsExposed margin child :=
        ih child among (bodied.child among)
      have bodies := bodied node .here
      cases node with
      | named name => exact stopsIff_ok (not_exposed_named name) _
      | stringLiteral content => exact stopsIff_ok (not_exposed_of_childless rfl rfl) _
      | numericLiteral number => exact stopsIff_ok (not_exposed_of_childless rfl rfl) _
      | raw code references => exact stopsIff_ok (not_exposed_of_childless rfl rfl) _
      | placeholder => exact stopsIff_error .here
      | typeReference name arguments =>
          refine ((stopsIff_all fun node among => part (.tail _ among)).pure _).of_parts rfl rfl ?_
          simp [children]
      | propertyAccess target member =>
          refine ((part (.head _)).pure _).of_parts rfl rfl ?_
          simp [children]
      | call callee arguments =>
          refine ((stopsIff_all fun node among => part (.tail _ among)).bind fun texts =>
            (part (.head _)).pure _).of_parts rfl rfl ?_
          simp [children, or_comm]
      | literalType literal =>
          refine ((part (.head _)).pure _).of_parts rfl rfl ?_
          simp [children]
      | arrayType element =>
          refine ((part (.head _)).pure _).of_parts rfl rfl ?_
          simp [children]
      | unionType members =>
          exact ((stopsIff_all fun node among => part among).pure _).of_parts rfl rfl .rfl
      | intersectionType members =>
          exact ((stopsIff_all fun node among => part among).pure _).of_parts rfl rfl .rfl
      | tupleType elements =>
          exact ((stopsIff_all fun node among => part among).pure _).of_parts rfl rfl .rfl
      | typeOperator operator operand =>
          refine ((part (.head _)).pure _).of_parts rfl rfl ?_
          simp [children]
      | typeQuery expression =>
          refine ((part (.head _)).pure _).of_parts rfl rfl ?_
          simp [children]
      | typeParameter name constraint default =>
          have bound := stopsIff_option fun node among =>
            part (List.mem_append_left _ (.tail _ among))
          have initial := stopsIff_option fun node among => part (List.mem_append_right _ among)
          refine (bound.bind fun text => initial.pure _).of_parts rfl rfl ?_
          simp [children]
      | property name type optional readonly comment =>
          refine ((part (.head _)).pure _).of_parts rfl rfl ?_
          simp [children]
      | interface name members heritage exported comment =>
          have parents := stopsIff_all fun node among => part (List.mem_append_right _ among)
          have inner := stopsIff_all fun node among =>
            part (List.mem_append_left _ (.tail _ among))
          refine (parents.bind fun texts => inner.last fun lines =>
            ⟨_, Template.render_interface comment exported name texts _⟩).of_parts rfl rfl ?_
          simp [children, or_comm]
      | typeAlias name type parameters exported comment =>
          have own := stopsIff_all fun node among => part (.tail _ (.tail _ among))
          refine (own.bind fun texts => (part (.tail _ (.head _))).last fun text =>
            ⟨_, Template.render_alias comment exported name texts _⟩).of_parts rfl rfl ?_
          simp [children, or_comm]
      | enumMember name value =>
          refine ((part (.head _)).pure _).of_parts rfl rfl ?_
          simp [children]
      | enumeration name members exported constant comment =>
          refine ((stopsIff_all fun node among => part (.tail _ among)).last fun lines =>
            ⟨_, Template.render_enum comment exported constant name _⟩).of_parts rfl rfl ?_
          simp [children]
      | block statements comment =>
          exact ((stopsIff_all fun node among => part among).map _).of_parts rfl rfl .rfl
      | expressionStatement expression =>
          refine ((part (.head _)).pure _).of_parts rfl rfl ?_
          simp [children]
      | returnStatement expression =>
          exact ((stopsIff_option fun node among => part among).pure _).of_parts rfl rfl .rfl
      | conditional condition body alternative comment =>
          obtain ⟨isBody, kinds⟩ := isBody_of_alternative bodies
          have inner := stopsIff_body isBody (part (.tail _ (.head _)))
          have rest := stopsIff_alternative kinds fun node among => part (.tail _ (.tail _ among))
          refine (((part (.head _)).bind fun test => inner.bind fun text =>
            rest.pure _)).of_parts rfl rfl ?_
          simp [children]
      | caseClause value statements =>
          have inner := stopsIff_all fun node among => part (.tail _ among)
          refine ((part (.head _)).bind fun text => inner.pure _).of_parts rfl rfl ?_
          simp [children]
      | defaultClause statements =>
          exact ((stopsIff_all fun node among => part among).pure _).of_parts rfl rfl .rfl
      | switchStatement expression clauses comment =>
          have inner := stopsIff_all fun node among => part (.tail _ among)
          refine ((part (.head _)).bind fun text => inner.pure _).of_parts rfl rfl ?_
          simp [children]
      | forLoop body start condition step comment =>
          have first := stopsIff_option fun node among =>
            part (List.mem_append_left _ (List.mem_append_left _ (.tail _ among)))
          have second := stopsIff_option fun node among =>
            part (List.mem_append_left _ (List.mem_append_right _ among))
          have third := stopsIff_option fun node among => part (List.mem_append_right _ among)
          have inner := stopsIff_body (isBody_of_isBlock bodies)
            (part (List.mem_append_left _ (List.mem_append_left _ (.head _))))
          refine (first.bind fun one => second.bind fun two => third.bind fun three =>
            inner.pure _).of_parts rfl rfl ?_
          simp [children, or_comm, or_assoc]
      | whileLoop condition body comment =>
          have inner := stopsIff_body (isBody_of_isBlock bodies) (part (.tail _ (.head _)))
          refine ((part (.head _)).bind fun test => inner.pure _).of_parts rfl rfl ?_
          simp [children]
      | doLoop body condition comment =>
          have inner := stopsIff_body (isBody_of_isBlock bodies) (part (.head _))
          refine (inner.bind fun text => (part (.tail _ (.head _))).pure _).of_parts rfl rfl ?_
          simp [children]

theorem Bodied.print_stops (margin : Nat) (bodied : Bodied node) :
    StopsIff node.Exposed (Printer.print ⟨.standard, margin⟩ node) :=
  (bodied.stops margin).pure _

end Node

end TypeScriptGen
