import TypeScriptGen.Document.Section

/-!
# Calls that add an item

A call that adds an item puts it behind the items that are there, or leaves the
section as it was. What it adds depends on the section only through the option
to export everything, so it can be read off a blank section.
-/

namespace TypeScriptGen.Section

/-- The call declares something or adds a statement. -/
def Command.isAddition : Command → Bool
  | .registry _ _ => false
  | .option _ _ => false
  | .printItem _ => false
  | .print => false
  | _ => true

/-- The call adds an item that is no import registry. -/
def Command.isContent : Command → Bool
  | .imports _ _ _ _ => false
  | command => command.isAddition

theorem isAddition_of_isContent {command : Command} (content : command.isContent = true) :
    command.isAddition = true := by
  cases command with
  | imports module commands includeUnused typeOnly => rfl
  | _ => exact content

def addAll (current : Section) (items : List Item) : Section :=
  { current with items := current.items ++ items }

/-- A section without items that exports everything or nothing. -/
def blank (exportAll : Bool) : Section :=
  start [] { SectionOptions.standard with exportAll := .bool exportAll }

theorem blank_exportsAll (exportAll : Bool) : (blank exportAll).exportsAll = exportAll := rfl

/-- What a call adds: one item, or nothing when it fails. -/
def added (exportAll : Bool) (command : Command) : List Item :=
  ((blank exportAll).apply command).state.items

theorem items_addAll_blank (exportAll : Bool) (items : List Item) :
    ((blank exportAll).addAll items).items = items := rfl

theorem addAll_nil (current : Section) : current.addAll [] = current := by
  simp [addAll]

/-- The item that a part becomes, unless its commands failed. -/
def itemOf {τ : Type} (kind : ItemKind) (name : Text) (payload : τ → Payload)
    (part : Outcome τ) : List Item :=
  match part.result with
  | .ok _ => [⟨kind, name, payload part.state⟩]
  | .error _ => []

theorem eq_of_mem_itemOf {τ : Type} {kind : ItemKind} {name : Text} {payload : τ → Payload}
    {part : Outcome τ} {item : Item} (member : item ∈ itemOf kind name payload part) :
    item = ⟨kind, name, payload part.state⟩ := by
  unfold itemOf at member
  split at member
  · exact List.mem_singleton.mp member
  · cases member

theorem eq_ok_of_mem {α : Type} {made : Except Failure α} {found : α}
    (member : found ∈ made.toOption.toList) : made = .ok found := by
  cases made with
  | ok value => rw [List.mem_singleton.mp member]
  | error failure => cases member

/-- What may fail to be made becomes at most one item. -/
theorem exists_of_mem_made {α : Type} {made : Except Failure α} {change : α → Item} {item : Item}
    (member : item ∈ made.toOption.toList.map change) :
    ∃ found, made = .ok found ∧ item = change found := by
  obtain ⟨found, among, same⟩ := List.mem_map.mp member
  exact ⟨found, eq_ok_of_mem among, same.symm⟩

theorem embed_add {τ : Type} (current : Section) (part : Outcome τ) (kind : ItemKind)
    (name : Text) (payload : τ → Payload) :
    (Outcome.embed current part fun made => .ok (current.add kind name (payload made))).state =
      current.addAll (itemOf kind name payload part) := by
  unfold Outcome.embed itemOf
  cases part.result with
  | ok text => rfl
  | error failure => exact (addAll_nil current).symm

theorem ofExcept_add {α : Type} (current : Section) (made : Except Failure α) (kind : ItemKind)
    (name : Text) (payload : α → Payload) :
    (Outcome.ofExcept current (made.map fun found =>
        (current.add kind name (payload found), none))).state =
      current.addAll (made.toOption.toList.map fun found => ⟨kind, name, payload found⟩) := by
  cases made with
  | ok found => rfl
  | error failure => exact (addAll_nil current).symm

theorem addInterface_state (current : Section) (name : Text)
    (commands : List InterfaceDraft.Command) :
    (current.addInterface name commands).state =
      current.addAll (itemOf .interface name (fun draft => .node draft.node)
        (Outcome.run InterfaceDraft.apply commands (.start name current.exportsAll))) :=
  embed_add current _ _ _ _

theorem addEnumeration_state (current : Section) (name : Text)
    (commands : List EnumDraft.Command) (constant : Bool) :
    (current.addEnumeration name commands constant).state =
      current.addAll (itemOf .enumeration name (fun draft => .node draft.node)
        (Outcome.run EnumDraft.apply commands (.start name current.exportsAll constant))) :=
  embed_add current _ _ _ _

theorem addImports_state (current : Section) (module : Text) (commands : List Registry.Command)
    (includeUnused typeOnly : Bool) :
    (current.addImports module commands includeUnused typeOnly).state =
      current.addAll (itemOf .registry module .registry
        (Outcome.run Registry.apply commands (.start module includeUnused typeOnly))) :=
  embed_add current _ _ _ _

theorem addStatement_state (current : Section) (kind : ItemKind) (node : Except Failure Node) :
    (current.addStatement kind node).state =
      current.addAll (node.toOption.toList.map fun node => ⟨kind, kind.name, .node node⟩) :=
  ofExcept_add current _ _ _ _

/-- The node of an alias that is given by its text. -/
def writtenAlias (name type : Text) (exported : Bool) (comment : Value) : Except Failure Node :=
  (Comment.linesOf comment).map fun lines =>
    .typeAlias name (Syntax.parseType type) [] exported lines

theorem addType_text_state (current : Section) (name type : Text) (exported : Option Bool)
    (comment : Value) :
    (current.addType name (.text type) exported comment).state =
      current.addAll
        ((writtenAlias name type (current.isExported exported) comment).toOption.toList.map
          fun node => ⟨.type, name, .node node⟩) := by
  unfold addType writtenAlias
  cases Comment.linesOf comment with
  | ok lines => rfl
  | error failure => exact (addAll_nil current).symm

theorem addType_commands_state (current : Section) (name : Text)
    (commands : List AliasDraft.Command) (exported : Option Bool) (comment : Value) :
    (current.addType name (.commands commands) exported comment).state =
      current.addAll
        ((commented comment AliasDraft.setComment
            (.start name (current.isExported exported))).toOption.toList.flatMap fun draft =>
          itemOf .type name (fun draft => .node draft.node)
            (Outcome.run AliasDraft.apply commands draft)) := by
  unfold addType
  cases commented comment AliasDraft.setComment (.start name (current.isExported exported)) with
  | ok draft =>
      exact (embed_add current _ _ _ _).trans
        (congrArg current.addAll (List.append_nil _).symm)
  | error failure => exact (addAll_nil current).symm

/-- The text of an object that is drafted by commands. -/
def draftedObject (name : Text) (exported constant : Bool) (comment : Value)
    (commands : List ObjectDraft.Command) : Except Failure Text := do
  let draft ← commented comment ObjectDraft.setComment (.start name exported constant)
  let draft ← draft.steps commands
  draft.print

theorem addObject_state (current : Section) (commands : List ObjectDraft.Command) (name : Text)
    (exported : Option Bool) (constant : Bool) (comment : Value) :
    (current.addObject commands name exported constant comment).state =
      current.addAll
        ((draftedObject name (current.isExported exported) constant comment
            commands).toOption.toList.map fun text => ⟨.object, objectName name, .text text⟩) := by
  rw [← ofExcept_add current _ _ _ _]
  unfold addObject draftedObject
  dsimp only
  cases commented comment ObjectDraft.setComment
      (.start name (current.isExported exported) constant) with
  | error failure => rfl
  | ok draft =>
      change (Outcome.ofExcept current (draft.steps commands >>= _)).state =
        (Outcome.ofExcept current ((draft.steps commands >>= _).map _)).state
      cases draft.steps commands with
      | error failure => rfl
      | ok next =>
          change (Outcome.ofExcept current (next.print >>= _)).state =
            (Outcome.ofExcept current (next.print.map _)).state
          cases next.print <;> rfl

/-- A call that adds an item does nothing else. -/
theorem apply_addition (current : Section) (command : Command)
    (adds : command.isAddition = true) :
    (current.apply command).state = current.addAll (added current.exportsAll command) := by
  cases command with
  | interface name commands =>
      simp only [added, apply, addInterface_state, blank_exportsAll]
      rfl
  | type name source exported comment =>
      cases source with
      | text type =>
          simp only [added, apply, addType_text_state, isExported, blank_exportsAll]
          rfl
      | commands commands =>
          simp only [added, apply, addType_commands_state, isExported, blank_exportsAll]
          rfl
  | enumeration name commands constant =>
      simp only [added, apply, addEnumeration_state, blank_exportsAll]
      rfl
  | object commands name exported constant comment =>
      simp only [added, apply, addObject_state, isExported, blank_exportsAll]
      rfl
  | imports module commands includeUnused typeOnly =>
      simp only [added, apply, addImports_state]
      rfl
  | conditional commands =>
      simp only [added, apply, addConditional, addStatement_state]
      rfl
  | switch commands =>
      simp only [added, apply, addSwitch, addStatement_state]
      rfl
  | forLoop commands =>
      simp only [added, apply, addForLoop, addStatement_state]
      rfl
  | loop kind commands =>
      simp only [added, apply, addLoop, addStatement_state]
      rfl
  | registry index commands => cases adds
  | option name value => cases adds
  | printItem index => cases adds
  | print => cases adds

end TypeScriptGen.Section
