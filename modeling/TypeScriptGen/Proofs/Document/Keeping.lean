import TypeScriptGen.Proofs.Document.ImportBlock
import TypeScriptGen.Proofs.Usage.Completeness

/-!
# Imports that the content keeps

Whatever an item of a section holds, the names found in it are used by the
section: those in a node anywhere below the node of the item, and those in the
text of the item. So every print of the section imports what its registries
declare under such a name.
-/

namespace TypeScriptGen

/-- A node has the names of the nodes in it. -/
theorem Usage.mem_namesIn_of_within {inner outer : Node} {name : Text} (within : inner.Within outer)
    (found : name ∈ namesIn inner) : name ∈ namesIn outer := by
  induction within with
  | here => exact found
  | deeper among _ ih => exact mem_namesIn_of_child among ih

namespace Registry

/-- The clause of an import statement for some named bindings, behind that of a default binding
if there is one. -/
def listing (lead clauses : List Text) : Text :=
  ", ".toList.intercalate
    (lead ++ [['\x7b', ' '] ++ ", ".toList.intercalate clauses ++ [' ', '\x7d']])

/-- The text holds an import statement from the module of the registry with a clause. -/
def States (registry : Registry) (text clause : Text) : Prop :=
  Template.importLayout registry.typeOnly clause registry.module <:+: text

variable {registry : Registry} {names : List Text} {binding : Binding}

theorem states_star (needed : registry.neededStar names = some binding) :
    registry.States (registry.rendering names) binding.clause := by
  refine Text.infix_intercalate _ (List.mem_map_of_mem (List.mem_append_left _ ?_))
  rw [needed]
  exact List.mem_singleton_self _

/-- The default binding and the named ones share a statement. -/
theorem states_rest (lead listed : List Text)
    (first : (registry.neededDefault names).toList.map Binding.clause = lead)
    (second : namedClause (registry.neededNamed names) = listed) (some : lead ++ listed ≠ []) :
    registry.States (registry.rendering names) (", ".toList.intercalate (lead ++ listed)) := by
  refine Text.infix_intercalate _ (List.mem_map_of_mem (List.mem_append_right _ ?_))
  rw [first, second, if_neg (by simpa using some)]
  exact List.mem_singleton_self _

theorem states_default (needed : registry.neededDefault names = some binding) :
    ∃ listed, registry.States (registry.rendering names)
      (", ".toList.intercalate (binding.clause :: listed)) := by
  refine ⟨_, states_rest [binding.clause] _ ?_ rfl (List.cons_ne_nil _ _)⟩
  rw [needed]
  rfl

theorem states_named (needed : binding ∈ registry.neededNamed names) :
    ∃ lead clauses, binding.clause ∈ clauses ∧
      registry.States (registry.rendering names) (listing lead clauses) := by
  refine ⟨_, (registry.neededNamed names).map Binding.clause, List.mem_map_of_mem needed,
    states_rest _ _ rfl ?_ (by simp)⟩
  have some : (registry.neededNamed names).isEmpty = false :=
    List.isEmpty_eq_false_iff.mpr (List.ne_nil_of_mem needed)
  rw [namedClause, some]
  rfl

end Registry

namespace Section

variable {current : Section} {name : Text}

/-- The section can be printed unless its options are to blame, its import block is part of every
text it is printed as, and the block imports what the registries declare under the name. A default
binding gives way to a namespace binding that is written. -/
structure Keeps (current : Section) (name : Text) : Prop where
  printed : current.options.isValid = true → current.options.isTextual = true →
    ∃ text, current.print.2 = .ok text
  block : ∀ text, current.print.2 = .ok text → current.importBlock <:+: text
  named : ∀ registry ∈ current.registries, ∀ binding ∈ registry.named, binding.localName = name →
    ∃ lead clauses, binding.clause ∈ clauses ∧
      registry.States current.importBlock (Registry.listing lead clauses)
  star : ∀ registry ∈ current.registries, ∀ binding ∈ registry.star, binding.localName = name →
    registry.States current.importBlock binding.clause
  default : ∀ registry ∈ current.registries, ∀ binding ∈ registry.default,
    binding.localName = name → registry.neededStar current.usedNames = none →
      ∃ listed, registry.States current.importBlock
        (", ".toList.intercalate (binding.clause :: listed))

/-- The import block and the joined content are both part of the page. -/
theorem block_isInfix {gap block : Text} (header : Text)
    (among : block ∈ [current.importBlock, gap.intercalate current.contentTexts]) :
    block <:+: current.page gap header := by
  by_cases empty : block = []
  · rw [empty]
    exact List.nil_infix
  have kept : block ∈ [current.importBlock,
      gap.intercalate current.contentTexts].filter fun block => !block.isEmpty :=
    List.mem_filter.mpr ⟨among, by simpa using empty⟩
  have some := List.isEmpty_eq_false_iff.mpr (List.ne_nil_of_mem kept)
  unfold page
  dsimp only
  rw [some]
  exact (Text.infix_intercalate ['\n', '\n'] kept).trans
    (Text.infix_intercalate ['\n'] (by simp))

theorem exists_page_of_print (sound : current.Sound) {text : Text}
    (printed : current.print.2 = .ok text) : ∃ gap header, text = current.page gap header := by
  rw [print_eq sound] at printed
  obtain ⟨gap, _, printed⟩ := exists_of_bind_ok printed
  obtain ⟨header, _, printed⟩ := exists_of_bind_ok printed
  cases printed
  exact ⟨gap, header, rfl⟩

theorem importBlock_of_print (sound : current.Sound) {text : Text}
    (printed : current.print.2 = .ok text) : current.importBlock <:+: text := by
  obtain ⟨gap, header, rfl⟩ := exists_page_of_print sound printed
  exact block_isInfix header List.mem_cons_self

/-- Every item that is no import stands in a printed section as it is printed by itself. -/
theorem item_isInfix_of_print (sound : current.Sound) {text : Text}
    (printed : current.print.2 = .ok text) {item : Item} (member : item ∈ current.items)
    (content : item.isImport = false) : item.text <:+: text := by
  obtain ⟨gap, header, rfl⟩ := exists_page_of_print sound printed
  have among : item.text ∈ current.contentTexts :=
    List.mem_map_of_mem (mem_content.mpr ⟨member, content⟩)
  exact (Text.infix_intercalate gap among).trans
    (block_isInfix header (List.mem_cons_of_mem _ List.mem_cons_self))

/-- The import block holds the statements of all registries. -/
theorem rendering_isInfix {registry : Registry} (member : registry ∈ current.registries) :
    registry.rendering current.usedNames <:+: current.importBlock := by
  by_cases empty : registry.rendering current.usedNames = []
  · rw [empty]
    exact List.nil_infix
  · exact Text.infix_intercalate _
      (List.mem_filter.mpr ⟨List.mem_map_of_mem member, by simpa using empty⟩)

/-- A section imports the names that it uses. -/
theorem keeps_of_used (sound : current.Sound) (used : name ∈ current.usedNames) :
    current.Keeps name := by
  have needs (registry : Registry) (binding : Binding) (local' : binding.localName = name) :
      registry.Needs current.usedNames binding := Or.inr (Or.inr (local' ▸ used))
  constructor
  · intro valid textual
    obtain ⟨gap, header, _, _, printed⟩ := print_eq_page sound valid textual
    exact ⟨_, printed⟩
  · intro text printed
    exact importBlock_of_print sound printed
  · intro registry member binding among local'
    have needed := (registry.needed_iff current.usedNames binding).1.mpr
      ⟨among, needs registry binding local'⟩
    obtain ⟨lead, clauses, listed, states⟩ := Registry.states_named needed
    exact ⟨lead, clauses, listed, states.trans (rendering_isInfix member)⟩
  · intro registry member binding among local'
    have needed := (registry.needed_iff current.usedNames binding).2.1.mpr
      ⟨among, needs registry binding local'⟩
    exact (Registry.states_star needed).trans (rendering_isInfix member)
  · intro registry member binding among local' alone
    have needed := (registry.needed_iff current.usedNames binding).2.2.mpr
      ⟨among, needs registry binding local', alone⟩
    obtain ⟨listed, states⟩ := Registry.states_default needed
    exact ⟨listed, states.trans (rendering_isInfix member)⟩

theorem mem_usedNames {item : Item} (member : item ∈ current.items)
    (content : item.isImport = false) (used : name ∈ item.usedNames) :
    name ∈ current.usedNames := by
  refine List.mem_flatMap.mpr ⟨item, List.mem_filter.mpr ⟨member, ?_⟩, used⟩
  rw [content]
  rfl

/-- The names of a node are kept wherever the node lies in an item. -/
theorem keeps_of_node (sound : current.Sound) {kind : ItemKind} {label : Text} {outer inner : Node}
    (member : ⟨kind, label, .node outer⟩ ∈ current.items) (within : inner.Within outer)
    (found : name ∈ Usage.namesIn inner) : current.Keeps name := by
  refine keeps_of_used sound (mem_usedNames member rfl ?_)
  exact (Item.mem_usedNames_node kind label (sound _ member)).mpr
    (List.mem_append_left _ (Usage.mem_namesIn_of_within within found))

/-- The names of free text are kept. -/
theorem keeps_of_text (sound : current.Sound) {kind : ItemKind} {label text : Text}
    (member : ⟨kind, label, .text text⟩ ∈ current.items) (found : name ∈ Usage.namesInCode text) :
    current.Keeps name :=
  keeps_of_used sound (mem_usedNames member rfl ((Item.mem_usedNames_text kind label text).mpr found))

/-- Nothing is imported where the only registry declares a named binding that is not needed. -/
theorem importBlock_eq_nil {registry : Registry} (only : current.registries = [registry])
    (unneeded : registry.neededNamed current.usedNames = []) (star : registry.star = none)
    (default : registry.default = none) : current.importBlock = [] := by
  have nothing : registry.rendering current.usedNames = [] := by
    unfold Registry.rendering Registry.neededDefault Registry.neededStar
    rw [unneeded, star, default]
    rfl
  unfold importBlock importTexts
  rw [only, List.map_singleton, nothing]
  rfl

/-! ## A statement under a condition -/

/-- A section that imports a name and runs a statement under a condition. -/
def guarded (module name statement : Text) : Section :=
  after [.imports module [.named name []] false false,
    .conditional [.condition "ready".toList, .body [.statement statement]]]
    (start "Calls".toList .standard)

def guardedNode (statement : Text) : Node :=
  .conditional (Syntax.parseExpression "ready".toList)
    (.block [Syntax.parseStatement statement] []) none []

theorem reached_guarded (module name statement : Text) : (guarded module name statement).Reached :=
  ⟨_, _, _, rfl⟩

theorem guardedNode_mem (module name statement : Text) :
    ⟨.conditional, "if".toList, .node (guardedNode statement)⟩ ∈
      (guarded module name statement).items :=
  List.mem_cons_of_mem _ List.mem_cons_self

theorem within_guardedNode (statement : Text) :
    (Syntax.parseStatement statement).Within (guardedNode statement) :=
  .deeper (List.mem_cons_of_mem _ List.mem_cons_self) (.deeper List.mem_cons_self .here)

end Section

end TypeScriptGen
