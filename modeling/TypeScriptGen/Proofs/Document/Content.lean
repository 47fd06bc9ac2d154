import TypeScriptGen.Proofs.Document.Reprinting
import TypeScriptGen.Proofs.Import.Needed

/-!
# The content of a section

Every declaration and statement that calls can add shows its names. So the
content of a section is always printed, and what the section then takes for used
are exactly the names that scans of its items find, each of which stands in the
text of an item.
-/

namespace TypeScriptGen

namespace Item

/-- A node shows its names, and in a registry marked bindings are used. -/
def Sound (item : Item) : Prop :=
  match item.payload with
  | .node node => node.Shown
  | .text _ => True
  | .registry registry => registry.Counted

/-- The item is no registry and shows its names. -/
structure IsContent (item : Item) : Prop where
  sound : item.Sound
  content : item.isImport = false

/-- The text of an item, if it has one. -/
def text (item : Item) : Text := item.print.toOption.getD []

/-- The names that fresh scans find in the node of an item and in its text. -/
def usedNames (item : Item) : List Text :=
  (item.fragments item.text).flatMap fun fragment => (Usage.Tracker.empty.scan fragment).1.names

theorem Sound.reconcile {item : Item} (sound : item.Sound) (isUsed : Text → Bool) :
    (item.reconcile isUsed).Sound := by
  obtain ⟨kind, name, payload⟩ := item
  cases payload with
  | node node => exact sound
  | text text => exact trivial
  | registry registry => exact Registry.Counted.reconcile sound isUsed

theorem text_eq {item : Item} {text : Text} (printed : item.print = .ok text) :
    item.text = text := by
  unfold Item.text
  rw [printed]
  rfl

/-- What printing an item and scanning it into a tracker amounts to. -/
structure Scanned (item : Item) (text : Text) : Prop where
  printed : item.print = .ok text
  recorded : ∀ tracker : Usage.Tracker, tracker.frozen = false →
    ∃ names, tracker.scanAll (item.fragments text) = (tracker.recordAll names, .ok ()) ∧
      ∀ name, name ∈ names ↔ name ∈ item.usedNames
  shown : ∀ name ∈ item.usedNames, name <:+: text

/-- An item uses the names in its node and those in its text. -/
theorem mem_usedNames_node (kind : ItemKind) (label : Text) {node : Node} (shown : node.Shown)
    {name : Text} :
    name ∈ Item.usedNames ⟨kind, label, .node node⟩ ↔
      name ∈ Usage.namesIn node ++ Usage.namesInCode (Item.text ⟨kind, label, .node node⟩) := by
  change name ∈ (Usage.Tracker.empty.scan (.node node)).1.names ++
    ((Usage.Tracker.empty.scan (.code (Item.text ⟨kind, label, .node node⟩))).1.names ++ []) ↔ _
  rw [Usage.scan_node .empty rfl shown.complete, Usage.scan_code .empty rfl, List.append_nil,
    List.mem_append, List.mem_append, Usage.mem_recordAll_empty, Usage.mem_recordAll_empty]

theorem mem_usedNames_text (kind : ItemKind) (label text : Text) {name : Text} :
    name ∈ Item.usedNames ⟨kind, label, .text text⟩ ↔ name ∈ Usage.namesInCode text := by
  change name ∈ (Usage.Tracker.empty.scan (.code text)).1.names ++ [] ↔ _
  rw [Usage.scan_code .empty rfl, List.append_nil, Usage.mem_recordAll_empty]

theorem scanned_node (kind : ItemKind) (name : Text) {node : Node} (shown : node.Shown) :
    ∃ text, Scanned ⟨kind, name, .node node⟩ text := by
  obtain ⟨bare, printed, names⟩ := shown.printed
  have whole : Item.print ⟨kind, name, .node node⟩ = .ok (node.withComment bare) := bind_ok printed
  have used (used : Text) : used ∈ Item.usedNames ⟨kind, name, .node node⟩ ↔
      used ∈ Usage.namesIn node ++ Usage.namesInCode (node.withComment bare) := by
    rw [mem_usedNames_node kind name shown, text_eq whole]
  refine ⟨node.withComment bare, whole, fun tracker thawed => ?_, fun found member => ?_⟩
  · refine ⟨Usage.namesIn node ++ Usage.namesInCode (node.withComment bare), ?_,
      fun found => (used found).symm⟩
    have next := tracker.recordAll_frozen (Usage.namesIn node)
    rw [thawed] at next
    change Usage.Tracker.scanAll tracker [.node node, .code (node.withComment bare)] = _
    rw [Usage.recordAll_append]
    simp only [Usage.Tracker.scanAll, Usage.scan_node tracker thawed shown.complete,
      Usage.scan_code _ next]
  · rcases List.mem_append.mp ((used found).mp member) with own | written
    · exact Node.infix_withComment (names found own)
    · exact (Usage.namesInCode_isInfix written).1

theorem scanned_text (kind : ItemKind) (name text : Text) :
    Scanned ⟨kind, name, .text text⟩ text := by
  refine ⟨rfl, fun tracker thawed => ?_, fun found member => ?_⟩
  · refine ⟨Usage.namesInCode text, ?_, fun found => (mem_usedNames_text kind name text).symm⟩
    change Usage.Tracker.scanAll tracker [.code text] = _
    simp only [Usage.Tracker.scanAll, Usage.scan_code tracker thawed]
  · exact (Usage.namesInCode_isInfix ((mem_usedNames_text kind name text).mp member)).1

/-- An item that shows its names is printed and scanned. -/
theorem IsContent.scanned {item : Item} (shown : item.IsContent) : Scanned item item.text := by
  obtain ⟨kind, name, payload⟩ := item
  cases payload with
  | node node =>
      obtain ⟨text, scanned⟩ := scanned_node kind name shown.sound
      rwa [text_eq scanned.printed]
  | text text => exact scanned_text kind name text
  | registry registry => cases shown.content

end Item

namespace Section

/-- The names that any declaration or statement of a section uses. -/
def usedNames (current : Section) : List Text := current.contentInOrder.flatMap Item.usedNames

/-- Printing content that shows its names succeeds and finds the names of all items. -/
theorem printContent_ok {items : List Item} (shown : ∀ item ∈ items, item.IsContent)
    (tracker : Usage.Tracker) (thawed : tracker.frozen = false) :
    ∃ next, printContent items tracker = .ok (items.map Item.text, next) ∧
      ∀ name, name ∈ next.names ↔
        name ∈ tracker.names ∨ name ∈ items.flatMap Item.usedNames := by
  induction items generalizing tracker with
  | nil => exact ⟨tracker, rfl, by simp⟩
  | cons item items ih =>
      have scanned := (shown item List.mem_cons_self).scanned
      have rest (other : Item) (member : other ∈ items) : other.IsContent :=
        shown other (List.mem_cons_of_mem item member)
      obtain ⟨names, recorded, used⟩ := scanned.recorded tracker thawed
      obtain ⟨next, printed, found⟩ := ih rest (tracker.recordAll names)
        (by rw [Usage.Tracker.recordAll_frozen, thawed])
      refine ⟨next, ?_, fun name => ?_⟩
      · refine (bind_ok scanned.printed).trans ?_
        rw [recorded]
        exact bind_ok printed
      · rw [found, Usage.Tracker.mem_recordAll, used, List.flatMap_cons, List.mem_append]
        exact or_assoc.trans (or_left_comm.trans Iff.rfl)

/-! ## Calls -/

/-- Every item shows its names or keeps marked bindings used. -/
def Sound (current : Section) : Prop := ∀ item ∈ current.items, item.Sound

theorem Sound.addAll {current : Section} (sound : current.Sound) {items : List Item}
    (all : ∀ item ∈ items, item.Sound) : (current.addAll items).Sound := by
  intro item member
  exact (List.mem_append.mp member).elim (sound item) (all item)

theorem Sound.reconcile {current : Section} (sound : current.Sound) (isUsed : Text → Bool) :
    (current.reconcile isUsed).Sound := by
  intro item member
  obtain ⟨old, among, rfl⟩ := List.mem_map.mp member
  exact (sound old among).reconcile isUsed

theorem content_of_statement {exportAll : Bool} {kind : ItemKind} {made : Except Failure Node}
    (movable : ∀ node, made = .ok node → node.Movable) :
    ∀ item ∈ ((blank exportAll).addStatement kind made).state.items, item.IsContent := by
  intro item member
  rw [addStatement_state, items_addAll_blank] at member
  obtain ⟨node, made, rfl⟩ := exists_of_mem_made member
  exact ⟨(movable node made).toShown, rfl⟩

/-- The alias that the commands of a call start from. -/
theorem sound_commented {name : Text} {exported : Bool} {comment : Value} {draft : AliasDraft}
    (made : commented comment AliasDraft.setComment (.start name exported) = .ok draft) :
    draft.Sound := by
  have start := AliasDraft.sound_start name exported
  unfold commented at made
  split at made
  · exact start.setComment made
  · cases made
    exact start

theorem content_of_type {exportAll : Bool} {name : Text} {source : AliasSource}
    {exported : Option Bool} {comment : Value} :
    ∀ item ∈ ((blank exportAll).addType name source exported comment).state.items,
      item.IsContent := by
  intro item member
  cases source with
  | text type =>
      rw [addType_text_state, items_addAll_blank] at member
      obtain ⟨node, made, rfl⟩ := exists_of_mem_made member
      obtain ⟨lines, _, rfl⟩ := exists_of_map_ok made
      exact ⟨.typeAlias name _ lines (Syntax.movable_parseType type).toShown nofun, rfl⟩
  | commands commands =>
      rw [addType_commands_state, items_addAll_blank] at member
      obtain ⟨draft, among, member⟩ := List.mem_flatMap.mp member
      rw [eq_of_mem_itemOf member]
      exact ⟨(AliasDraft.sound_run commands (sound_commented (eq_ok_of_mem among))).node, rfl⟩

/-- Calls that declare something or add a statement add content. -/
theorem content_of_added (exportAll : Bool) {command : Command} (adds : command.isContent = true) :
    ∀ item ∈ added exportAll command, item.IsContent := by
  intro item member
  cases command with
  | interface name commands =>
      change item ∈ ((blank exportAll).addInterface name commands).state.items at member
      rw [addInterface_state, items_addAll_blank] at member
      rw [eq_of_mem_itemOf member]
      exact ⟨(InterfaceDraft.sound_run commands (InterfaceDraft.sound_start _ _)).node, rfl⟩
  | type name source exported comment => exact content_of_type item member
  | enumeration name commands constant =>
      change item ∈ ((blank exportAll).addEnumeration name commands constant).state.items at member
      rw [addEnumeration_state, items_addAll_blank] at member
      rw [eq_of_mem_itemOf member]
      exact ⟨(EnumDraft.sound_run commands (EnumDraft.sound_start _ _ _)).node, rfl⟩
  | object commands name exported constant comment =>
      change item ∈ ((blank exportAll).addObject commands name exported constant
        comment).state.items at member
      rw [addObject_state, items_addAll_blank] at member
      obtain ⟨text, _, rfl⟩ := exists_of_mem_made member
      exact ⟨trivial, rfl⟩
  | conditional commands =>
      refine content_of_statement (fun node made => ?_) item member
      obtain ⟨draft, ran, made⟩ := exists_of_bind_ok made
      exact (ConditionalDraft.sound_steps ConditionalDraft.sound_empty commands ran).node made
  | switch commands =>
      refine content_of_statement (fun node made => ?_) item member
      obtain ⟨draft, ran, made⟩ := exists_of_bind_ok made
      exact (SwitchDraft.sound_steps SwitchDraft.sound_empty commands ran).node made
  | forLoop commands =>
      refine content_of_statement (fun node made => ?_) item member
      obtain ⟨draft, ran, made⟩ := exists_of_bind_ok made
      exact (ForDraft.sound_steps ForDraft.sound_empty commands ran).node made
  | loop kind commands =>
      refine content_of_statement (fun node made => ?_) item member
      obtain ⟨draft, ran, made⟩ := exists_of_bind_ok made
      exact (LoopDraft.sound_steps LoopDraft.sound_empty commands ran).node made
  | imports module commands includeUnused typeOnly => cases adds
  | registry index commands => cases adds
  | option name value => cases adds
  | printItem index => cases adds
  | print => cases adds

theorem mem_of_item? {current : Section} {index : Int} {found : Nat} {item : Item}
    (present : current.item? index = some (found, item)) : item ∈ current.items := by
  obtain ⟨place, _, present⟩ := Option.bind_eq_some_iff.mp present
  obtain ⟨held, there, same⟩ := Option.bind_eq_some_iff.mp present
  cases same
  exact List.mem_of_getElem? there

theorem Sound.onRegistry {current : Section} (sound : current.Sound) (index : Int)
    (commands : List Registry.Command) : (current.onRegistry index commands).state.Sound := by
  cases present : current.item? index with
  | none => rwa [onRegistry_none commands present]
  | some found =>
      obtain ⟨place, kind, name, payload⟩ := found
      cases payload with
      | node node => rwa [onRegistry_content commands present rfl]
      | text text => rwa [onRegistry_content commands present rfl]
      | registry registry =>
          rw [onRegistry_registry commands present]
          intro item member
          rcases List.mem_or_eq_of_mem_set member with there | rfl
          · exact sound item there
          · have counted : registry.Counted := sound _ (mem_of_item? present)
            exact counted.run commands

theorem Sound.addImports {current : Section} (sound : current.Sound) (module : Text)
    (commands : List Registry.Command) (includeUnused typeOnly : Bool) :
    (current.addImports module commands includeUnused typeOnly).state.Sound := by
  rw [addImports_state]
  refine sound.addAll fun item member => ?_
  rw [eq_of_mem_itemOf member]
  exact (Registry.counted_start module includeUnused typeOnly).run commands

theorem Sound.print {current : Section} (sound : current.Sound) : current.print.1.Sound := by
  cases printed : printContent current.content .empty with
  | error failure => rwa [print_error printed]
  | ok found =>
      rw [print_ok printed]
      exact sound.reconcile _

/-- Every call keeps the items so. -/
theorem Sound.apply {current : Section} (sound : current.Sound) (command : Command) :
    (current.apply command).state.Sound := by
  cases content : command.isContent with
  | true =>
      rw [apply_addition current command (isAddition_of_isContent content)]
      exact sound.addAll fun item member => (content_of_added _ content item member).sound
  | false =>
      cases command with
      | imports module commands includeUnused typeOnly =>
          exact sound.addImports module commands includeUnused typeOnly
      | registry index commands => exact sound.onRegistry index commands
      | option name value => exact sound
      | printItem index => exact sound
      | print => exact sound.print
      | _ => cases content

/-- The section that calls leave, whether they fail or not. -/
def after (commands : List Command) (current : Section) : Section :=
  commands.foldl (fun current command => (current.apply command).state) current

theorem sound_after (commands : List Command) {current : Section} (sound : current.Sound) :
    (after commands current).Sound := by
  induction commands generalizing current with
  | nil => exact sound
  | cons command commands ih => exact ih (sound.apply command)

theorem sound_start (name : Text) (options : SectionOptions) : (start name options).Sound :=
  fun _ member => absurd member List.not_mem_nil

/-- Calls lead to the section from one without items. -/
def Reached (current : Section) : Prop :=
  ∃ name options commands, current = after commands (start name options)

theorem Reached.sound {current : Section} (reached : current.Reached) : current.Sound := by
  obtain ⟨name, options, commands, rfl⟩ := reached
  exact sound_after commands (sound_start name options)

theorem Reached.apply {current : Section} (reached : current.Reached) (command : Command) :
    (current.apply command).state.Reached := by
  obtain ⟨name, options, commands, rfl⟩ := reached
  refine ⟨name, options, commands ++ [command], ?_⟩
  unfold after
  rw [List.foldl_append]
  rfl

/-! ## The content -/

theorem perm_content (current : Section) : current.content.Perm current.contentInOrder := by
  unfold content
  split
  · exact List.mergeSort_perm _ _
  · exact .rfl

theorem mem_content {current : Section} {item : Item} :
    item ∈ current.content ↔ item ∈ current.items ∧ item.isImport = false := by
  rw [current.perm_content.mem_iff, contentInOrder, List.mem_filter, Bool.not_eq_true']

theorem Sound.content {current : Section} (sound : current.Sound) :
    ∀ item ∈ current.content, item.IsContent := by
  intro item member
  obtain ⟨among, content⟩ := mem_content.mp member
  exact ⟨sound item among, content⟩

/-- What a section takes for used are the names of its items, in whatever order they are written. -/
theorem printContent_content {current : Section} (sound : current.Sound) :
    ∃ tracker, printContent current.content .empty =
        .ok (current.content.map Item.text, tracker) ∧
      ∀ name, name ∈ tracker.names ↔ name ∈ current.usedNames := by
  obtain ⟨tracker, printed, found⟩ := printContent_ok sound.content .empty rfl
  refine ⟨tracker, printed, fun name => ?_⟩
  rw [found, usedNames, (current.perm_content.flatMap_right _).mem_iff]
  exact or_iff_right List.not_mem_nil

/-- A name that a section uses stands in the text of one of its items. -/
theorem exists_item_of_used {current : Section} (sound : current.Sound) {name : Text}
    (used : name ∈ current.usedNames) :
    ∃ item ∈ current.content, item.print = .ok item.text ∧ name <:+: item.text := by
  obtain ⟨item, member, found⟩ := List.mem_flatMap.mp used
  have among : item ∈ current.content := current.perm_content.mem_iff.mpr member
  have scanned := (sound.content item among).scanned
  exact ⟨item, among, scanned.printed, scanned.shown name found⟩

end Section

end TypeScriptGen
