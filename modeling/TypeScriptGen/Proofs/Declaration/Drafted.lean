import TypeScriptGen.Declaration.Alias
import TypeScriptGen.Declaration.Enumeration
import TypeScriptGen.Declaration.Interface
import TypeScriptGen.Proofs.Statement.Drafted

/-!
# Drafted declarations show their names

The members of an interface or enumeration are indented, the type and the
parameters of an alias are not. Whatever the commands of a draft do, also up to
one that fails, the declaration that is made shows its names.
-/

namespace TypeScriptGen

open Node (Movable Shown)

namespace Outcome

variable {σ κ : Type}

variable {property : σ → Prop} {apply : κ → σ → Outcome σ}

/-- What each of the commands keeps, a run of them keeps, wherever it stops. -/
theorem run_state_of_mem {commands : List κ}
    (keeps : ∀ command ∈ commands, ∀ state, property state →
      property (apply command state).state)
    {start : σ} (holds : property start) : property (run apply commands start).state := by
  induction commands generalizing start with
  | nil => exact holds
  | cons command commands ih =>
      have first := keeps command List.mem_cons_self start holds
      rw [run]
      split
      · exact first
      · exact ih (fun other among => keeps other (List.mem_cons_of_mem command among)) first

theorem run_state (keeps : ∀ command state, property state → property (apply command state).state)
    (commands : List κ) {start : σ} (holds : property start) :
    property (run apply commands start).state :=
  run_state_of_mem (fun command _ => keeps command) holds

theorem ofExcept_state {old : σ}
    {result : Except Failure (σ × Option Text)} (holds : property old)
    (made : ∀ next text, result = .ok (next, text) → property next) :
    property (ofExcept old result).state := by
  cases result with
  | ok pair => exact made pair.1 pair.2 rfl
  | error failure => exact holds

end Outcome

/-! ## Interfaces -/

namespace InterfaceDraft

def Sound (draft : InterfaceDraft) : Prop := ∀ node ∈ draft.properties, Movable node

theorem Sound.node {draft : InterfaceDraft} (sound : draft.Sound) : Shown draft.node := by
  refine .interface draft.name draft.exported draft.comment (fun node member => ?_) sound
  obtain ⟨parent, _, rfl⟩ := List.mem_map.mp member
  exact (Syntax.movable_parseType parent).toShown

theorem sound_apply (command : Command) (draft : InterfaceDraft) (sound : draft.Sound) :
    (apply command draft).state.Sound := by
  cases command with
  | comment comment =>
      refine Outcome.ofExcept_state sound fun next text made => ?_
      obtain ⟨lines, rfl⟩ := exists_of_commented made
      exact sound
  | print => exact sound
  | property name type optional readonly comment =>
      refine Outcome.ofExcept_state sound fun next text made => ?_
      obtain ⟨lines, rfl⟩ := exists_of_commented made
      exact forall_concat sound
        (.property name optional readonly lines (Syntax.movable_parseType type))
  | parents names => exact sound

theorem sound_run (commands : List Command) {draft : InterfaceDraft} (sound : draft.Sound) :
    (Outcome.run apply commands draft).state.Sound :=
  Outcome.run_state sound_apply commands sound

theorem sound_start (name : Text) (exported : Bool) : (start name exported).Sound := nofun

end InterfaceDraft

/-! ## Enumerations -/

namespace EnumDraft

def Sound (draft : EnumDraft) : Prop := ∀ node ∈ draft.members, Movable node

theorem Sound.node {draft : EnumDraft} (sound : draft.Sound) : Shown draft.node :=
  .enumeration draft.name draft.exported draft.constant draft.comment sound

/-- What setting the comment, asking for a key and adding a member keep. All commands of an
enumeration are made of these steps. -/
structure Keeps (kept : EnumDraft → Prop) : Prop where
  comment (draft : EnumDraft) (lines : List Text) : kept draft → kept { draft with comment := lines }
  sanitizer (draft : EnumDraft) (text : Text) : kept draft → kept { draft with
    sanitizer := (draft.sanitizer.sanitize text .pascal Naming.Sanitizer.defaultSuffix).1 }
  member {value : Value} {initial : Node} (draft : EnumDraft) (name : Text) :
    initializer value = .ok initial → kept draft →
      kept { draft with members := draft.members ++ [.enumMember name initial] }

namespace Keeps

variable {kept : EnumDraft → Prop} {draft next : EnumDraft}

theorem addMember (keeps : Keeps kept) {key : Text} {value : Value}
    (made : draft.addMember key value = .ok next) (held : kept draft) : kept next := by
  obtain ⟨initial, initialized, made⟩ := exists_of_bind_ok made
  cases made
  exact keeps.member draft _ initialized held

theorem addValue (keeps : Keeps kept) {value : Value} (made : draft.addValue value = .ok next)
    (held : kept draft) : kept next := by
  obtain ⟨text, _, made⟩ := exists_of_bind_ok made
  exact keeps.addMember made (keeps.sanitizer draft text held)

/-- The values before a faulty one are added, and the rest is left. -/
theorem addValues (keeps : Keeps kept) (values : List Value) (held : kept draft) :
    kept (addValues values draft).state := by
  induction values generalizing draft with
  | nil => exact held
  | cons value values ih =>
      rw [EnumDraft.addValues]
      split
      · exact held
      · next made => exact ih (keeps.addValue made held)

theorem apply (keeps : Keeps kept) (command : Command) (draft : EnumDraft) (held : kept draft) :
    kept (apply command draft).state := by
  cases command with
  | comment comment =>
      refine Outcome.ofExcept_state held fun next text made => ?_
      obtain ⟨lines, rfl⟩ := exists_of_commented made
      exact keeps.comment draft lines held
  | print => exact held
  | member key value =>
      refine Outcome.ofExcept_state held fun next text made => ?_
      obtain ⟨changed, set, same⟩ := exists_of_map_ok made
      cases same
      exact keeps.addMember set held
  | values values => exact keeps.addValues values held

end Keeps

theorem movable_initializer {value : Value} {node : Node} (made : initializer value = .ok node) :
    Movable node := by
  obtain ⟨text, _, made⟩ := exists_of_bind_ok made
  split at made <;> cases made
  · exact .numericLiteral text
  · exact .numericLiteral text
  · exact .stringLiteral text

theorem keeps_sound : Keeps Sound where
  comment _ _ sound := sound
  sanitizer _ _ sound := sound
  member _ _ initialized sound :=
    forall_concat sound (.enumMember _ (movable_initializer initialized))

theorem sound_apply (command : Command) (draft : EnumDraft) (sound : draft.Sound) :
    (apply command draft).state.Sound :=
  keeps_sound.apply command draft sound

theorem sound_run (commands : List Command) {draft : EnumDraft} (sound : draft.Sound) :
    (Outcome.run apply commands draft).state.Sound :=
  Outcome.run_state sound_apply commands sound

theorem sound_start (name : Text) (exported constant : Bool) :
    (start name exported constant).Sound := nofun

end EnumDraft

/-! ## Type aliases -/

namespace AliasDraft

structure Sound (draft : AliasDraft) : Prop where
  type : ∀ node ∈ draft.type.toList, Shown node
  parameters : ∀ node ∈ draft.parameters, Shown node

theorem Sound.node {draft : AliasDraft} (sound : draft.Sound) : Shown draft.node := by
  refine .typeAlias draft.name draft.exported draft.comment ?_ sound.parameters
  cases held : draft.type with
  | none => exact .typeReference _
  | some type => exact sound.type type (by simp [held])

/-- An alias is printed around its parameters and its type. -/
theorem print_of_parts {draft : AliasDraft} {texts : List Text} {type : Text}
    (parameters : Printer.printAll .standard draft.parameters = .ok texts)
    (shown : Printer.standard.bare (draft.type.getD anyType) = .ok type) :
    draft.node.print = .ok (Template.aliasLayout (Comment.doc draft.comment) draft.exported
      draft.name texts ((draft.type.getD anyType).withComment type)) :=
  bind_ok ((bind_ok parameters).trans ((bind_ok shown).trans
    (Template.render_alias draft.comment draft.exported draft.name texts _)))

theorem Sound.setType {draft : AliasDraft} (sound : draft.Sound) {type : Node}
    (shown : Shown type) : (draft.setType type).Sound :=
  ⟨forall_some shown, sound.parameters⟩

theorem shown_optionalType (text : Text) : ∀ node ∈ (optionalType text).toList, Shown node := by
  intro node member
  unfold optionalType at member
  split at member
  · cases member
  · rw [List.mem_singleton.mp member]
    exact (Syntax.movable_parseType text).toShown

theorem Sound.addParameter {draft : AliasDraft} (sound : draft.Sound)
    (name constraint default : Text) : (draft.addParameter name constraint default).Sound :=
  ⟨sound.type, forall_concat sound.parameters
    (.typeParameter name (shown_optionalType constraint) (shown_optionalType default))⟩

theorem Sound.addTable {draft next : AliasDraft} (sound : draft.Sound) {table : Table}
    (made : draft.addTable table = .ok next) : next.Sound := by
  unfold AliasDraft.addTable at made
  split at made
  · cases made
  · next name _ =>
      obtain ⟨constraint, _, made⟩ := exists_of_bind_ok made
      dsimp only at made
      split at made
      · obtain ⟨default, _, made⟩ := exists_of_bind_ok made
        cases made
        exact sound.addParameter name constraint default
      · obtain ⟨default, _, made⟩ := exists_of_bind_ok made
        cases made
        exact sound.addParameter name constraint default
  · cases made

theorem Sound.addEntries {draft : AliasDraft} (sound : draft.Sound) (entries : List Value) :
    (addEntries entries draft).state.Sound := by
  induction entries generalizing draft with
  | nil => exact sound
  | cons entry entries ih =>
      rw [AliasDraft.addEntries]
      split
      · exact sound
      · next made =>
          refine ih ?_
          unfold addEntry at made
          split at made
          · exact sound.addTable made
          · cases made

theorem movable_types (types : List Text) : ∀ node ∈ types.map Syntax.parseType, Movable node := by
  intro node member
  obtain ⟨type, _, rfl⟩ := List.mem_map.mp member
  exact Syntax.movable_parseType type

theorem sound_apply (command : Command) (draft : AliasDraft) (sound : draft.Sound) :
    (apply command draft).state.Sound := by
  cases command with
  | comment comment =>
      refine Outcome.ofExcept_state sound fun next text made => ?_
      obtain ⟨lines, rfl⟩ := exists_of_commented made
      exact ⟨sound.type, sound.parameters⟩
  | print => exact sound
  | reference type => exact sound.setType (Syntax.movable_parseType type).toShown
  | union types => exact sound.setType (Movable.unionType (movable_types types)).toShown
  | intersection types =>
      exact sound.setType (Movable.intersectionType (movable_types types)).toShown
  | array element =>
      exact sound.setType (Movable.arrayType (Syntax.movable_parseType element)).toShown
  | tuple elements => exact sound.setType (Movable.tupleType (movable_types elements)).toShown
  | keyOf type =>
      exact sound.setType (Movable.typeOperator _ (Syntax.movable_parseType type)).toShown
  | typeOf value => exact sound.setType (.typeQuery (.named _))
  | parameter name constraint default => exact sound.addParameter name constraint default
  | parameters entries => exact sound.addEntries entries

theorem sound_run (commands : List Command) {draft : AliasDraft} (sound : draft.Sound) :
    (Outcome.run apply commands draft).state.Sound :=
  Outcome.run_state sound_apply commands sound

theorem sound_start (name : Text) (exported : Bool) : (start name exported).Sound :=
  ⟨nofun, nofun⟩

theorem Sound.setComment {draft next : AliasDraft} (sound : draft.Sound) {comment : Value}
    (made : draft.setComment comment = .ok next) : next.Sound := by
  obtain ⟨lines, _, made⟩ := exists_of_bind_ok made
  cases made
  exact ⟨sound.type, sound.parameters⟩

end AliasDraft

end TypeScriptGen
