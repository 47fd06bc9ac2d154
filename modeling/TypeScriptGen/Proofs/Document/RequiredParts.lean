import TypeScriptGen.Proofs.Declaration.Drafted
import TypeScriptGen.Proofs.Document.Atomicity
import TypeScriptGen.Proofs.Statement.Headings

/-!
# Required parts

A draft is refused if its first text is empty or its body is missing, and in no
other case: the texts behind it are not looked at, and none is trimmed before it is.
So a statement that is made shows all its headings exactly if no text that was given
for them is blank, and a text of blanks is given as well as any other.
-/

namespace TypeScriptGen

namespace StatementForm

/-- The texts that a draft holds for the headings of its statement. -/
def texts : (form : StatementForm) → form.Draft → List Text
  | .conditional, draft =>
      ConditionalDraft.condition draft :: (ConditionalDraft.branches draft).map Prod.fst
  | .switch, draft => SwitchDraft.expression draft :: (SwitchDraft.cases draft).map Prod.fst
  | .forLoop, _ => []
  | .loop _, draft => [LoopDraft.condition draft]

/-- The text that a command gives for a heading. -/
def given? : (form : StatementForm) → form.Command → Option Text
  | .conditional, .condition text => some text
  | .conditional, .branch condition _ => some condition
  | .switch, .expression text => some text
  | .switch, .branch label _ => some label
  | .loop _, .condition text => some text
  | _, _ => none

/-- The part for which a draft is refused: a text that is empty, or else the body. -/
def missing? : (form : StatementForm) → form.Draft → Option MissingPart
  | .conditional, draft =>
      if (ConditionalDraft.condition draft).isEmpty then some .ifCondition
      else if (ConditionalDraft.body draft).isNone then some .ifBody
      else none
  | .switch, draft =>
      if (SwitchDraft.expression draft).isEmpty then some .switchExpression else none
  | .forLoop, draft => if (ForDraft.body draft).isNone then some .loopBody else none
  | .loop kind, draft =>
      if (LoopDraft.condition draft).isEmpty then some kind.missingCondition
      else if (LoopDraft.body draft).isNone then some .loopBody
      else none

end StatementForm

/-! ## Drafts of each form -/

section Drafts

open StatementForm (given? texts)

variable {known : List Text} {node : Node} {text : Option Text}

/-- All texts are known; the first may still be the empty one of a fresh draft. -/
structure ConditionalDraft.Traced (known : List Text) (draft : ConditionalDraft) : Prop where
  condition : draft.condition ∈ [] :: known
  branches : ∀ branch ∈ draft.branches, branch.1 ∈ known

structure SwitchDraft.Traced (known : List Text) (draft : SwitchDraft) : Prop where
  expression : draft.expression ∈ [] :: known
  cases : ∀ branch ∈ draft.cases, branch.1 ∈ known

def LoopDraft.Traced (known : List Text) (draft : LoopDraft) : Prop :=
  draft.condition ∈ [] :: known

/-- The headings of the node are the texts of the draft. -/
theorem ConditionalDraft.Sound.headings {draft : ConditionalDraft} (sound : draft.Sound)
    (made : draft.node = .ok node) :
    node.headings = (texts .conditional draft).map Syntax.parseExpression := by
  have behind := ConditionalDraft.headingsBehind_chain
    (fun node among => (sound.alternative node among).2) draft.branches
  obtain ⟨body, _, _, rfl⟩ := exists_of_node made
  rw [texts, List.map_cons, List.map_map]
  exact congrArg (Syntax.parseExpression draft.condition :: ·) behind

theorem SwitchDraft.headings_node {draft : SwitchDraft} (made : draft.node = .ok node) :
    node.headings = (texts .switch draft).map Syntax.parseExpression := by
  unfold SwitchDraft.node at made
  split at made
  · cases made
  · cases made
    rw [texts, List.map_cons, List.map_map]
    exact congrArg (Syntax.parseExpression draft.expression :: ·) draft.labels_clauses

theorem ForDraft.headings_node {draft : ForDraft} (made : draft.node = .ok node) :
    node.headings = [] := by
  unfold ForDraft.node at made
  split at made
  · cases made
  · cases made
    rfl

theorem LoopDraft.headings_node {draft : LoopDraft} {kind : LoopKind}
    (made : draft.node kind = .ok node) :
    node.headings = [Syntax.parseExpression draft.condition] := by
  unfold LoopDraft.node at made
  split at made
  · cases made
  · split at made
    · cases made
    · cases made
      cases kind <;> rfl

/-- A command changes the texts by the one that it gives, if any. -/
theorem ConditionalDraft.Traced.step {draft next : ConditionalDraft} (traced : draft.Traced known) :
    ∀ command : ConditionalCommand,
      (∀ own, given? .conditional command = some own → own ∈ known) →
      ConditionalDraft.step draft command = .ok (next, text) → next.Traced known
  | .comment _, _, made => by
      obtain ⟨lines, rfl⟩ := exists_of_commented made
      exact ⟨traced.condition, traced.branches⟩
  | .print, _, made => by
      rw [eq_of_printedDraft made]
      exact traced
  | .condition own, given, made => by
      cases made
      exact ⟨List.mem_cons_of_mem _ (given own rfl), traced.branches⟩
  | .body _, _, made => by
      obtain ⟨inner, _, made⟩ := exists_of_bind_ok made
      cases made
      exact ⟨traced.condition, traced.branches⟩
  | .branch own _, given, made => by
      obtain ⟨inner, _, made⟩ := exists_of_bind_ok made
      cases made
      exact ⟨traced.condition, forall_concat traced.branches (given own rfl)⟩
  | .alternative _, _, made => by
      obtain ⟨inner, _, made⟩ := exists_of_bind_ok made
      cases made
      exact ⟨traced.condition, traced.branches⟩

theorem SwitchDraft.Traced.step {draft next : SwitchDraft} (traced : draft.Traced known) :
    ∀ command : SwitchCommand, (∀ own, given? .switch command = some own → own ∈ known) →
      SwitchDraft.step draft command = .ok (next, text) → next.Traced known
  | .comment _, _, made => by
      obtain ⟨lines, rfl⟩ := exists_of_commented made
      exact ⟨traced.expression, traced.cases⟩
  | .print, _, made => by
      rw [eq_of_printedDraft made]
      exact traced
  | .expression own, given, made => by
      cases made
      exact ⟨List.mem_cons_of_mem _ (given own rfl), traced.cases⟩
  | .branch own _, given, made => by
      obtain ⟨inner, _, made⟩ := exists_of_bind_ok made
      cases made
      exact ⟨traced.expression, forall_concat traced.cases (given own rfl)⟩
  | .otherwise _, _, made => by
      obtain ⟨inner, _, made⟩ := exists_of_bind_ok made
      cases made
      exact ⟨traced.expression, traced.cases⟩

theorem LoopDraft.Traced.step {kind : LoopKind} {draft next : LoopDraft}
    (traced : draft.Traced known) :
    ∀ command : LoopCommand, (∀ own, given? (.loop kind) command = some own → own ∈ known) →
      LoopDraft.step kind draft command = .ok (next, text) → next.Traced known
  | .comment _, _, made => by
      obtain ⟨lines, rfl⟩ := exists_of_commented made
      exact traced
  | .print, _, made => by
      rw [eq_of_printedDraft made]
      exact traced
  | .condition own, given, made => by
      cases made
      exact List.mem_cons_of_mem _ (given own rfl)
  | .body _, _, made => by
      obtain ⟨inner, _, made⟩ := exists_of_bind_ok made
      cases made
      exact traced

end Drafts

namespace StatementForm

/-! ## Drafts of any form -/

def Sound : (form : StatementForm) → form.Draft → Prop
  | .conditional, draft => ConditionalDraft.Sound draft
  | .switch, draft => SwitchDraft.Sound draft
  | .forLoop, draft => ForDraft.Sound draft
  | .loop _, draft => LoopDraft.Sound draft

def Traced (known : List Text) : (form : StatementForm) → form.Draft → Prop
  | .conditional, draft => ConditionalDraft.Traced known draft
  | .switch, draft => SwitchDraft.Traced known draft
  | .forLoop, _ => True
  | .loop _, draft => LoopDraft.Traced known draft

variable {form : StatementForm} {draft : form.Draft} {known : List Text}

theorem sound_empty (form : StatementForm) : form.Sound form.empty := by
  cases form with
  | conditional => exact ConditionalDraft.sound_empty
  | switch => exact SwitchDraft.sound_empty
  | forLoop => exact ForDraft.sound_empty
  | loop kind => exact LoopDraft.sound_empty

theorem traced_empty (known : List Text) (form : StatementForm) :
    form.Traced known form.empty := by
  cases form with
  | conditional => exact ⟨List.mem_cons_self, nofun⟩
  | switch => exact ⟨List.mem_cons_self, nofun⟩
  | forLoop => trivial
  | loop kind => exact List.mem_cons_self

/-! ## The node of a draft -/

/-- A draft is refused for the part that is missing, and otherwise gives a node. -/
theorem node_cases (form : StatementForm) (draft : form.Draft) :
    (∃ part, form.missing? draft = some part ∧ form.node draft = .error (.builder part)) ∨
      form.missing? draft = none ∧ ∃ node, form.node draft = .ok node := by
  cases form with
  | conditional =>
      obtain ⟨condition, body, branches, alternative, comment⟩ := draft
      cases condition with
      | nil => exact .inl ⟨_, rfl, rfl⟩
      | cons c rest =>
          cases body with
          | none => exact .inl ⟨_, rfl, rfl⟩
          | some body => exact .inr ⟨rfl, _, rfl⟩
  | switch =>
      obtain ⟨expression, cases', otherwise, comment⟩ := draft
      cases expression with
      | nil => exact .inl ⟨_, rfl, rfl⟩
      | cons c rest => exact .inr ⟨rfl, _, rfl⟩
  | forLoop =>
      obtain ⟨start, condition, increment, body, comment⟩ := draft
      cases body with
      | none => exact .inl ⟨_, rfl, rfl⟩
      | some body => exact .inr ⟨rfl, _, rfl⟩
  | loop kind =>
      obtain ⟨condition, body, comment⟩ := draft
      cases condition with
      | nil => exact .inl ⟨_, rfl, rfl⟩
      | cons c rest =>
          cases body with
          | none => exact .inl ⟨_, rfl, rfl⟩
          | some body => exact .inr ⟨rfl, _, rfl⟩

theorem Sound.node (sound : form.Sound draft) {node : Node} (made : form.node draft = .ok node) :
    node.Movable := by
  cases form with
  | conditional => exact ConditionalDraft.Sound.node sound made
  | switch => exact SwitchDraft.Sound.node sound made
  | forLoop => exact ForDraft.Sound.node sound made
  | loop kind => exact LoopDraft.Sound.node sound made

theorem Sound.headings (sound : form.Sound draft) {node : Node}
    (made : form.node draft = .ok node) :
    node.headings = (form.texts draft).map Syntax.parseExpression := by
  cases form with
  | conditional => exact ConditionalDraft.Sound.headings sound made
  | switch => exact SwitchDraft.headings_node made
  | forLoop => exact ForDraft.headings_node made
  | loop kind => exact LoopDraft.headings_node made

/-- A first text for which nothing is refused is not that of a fresh draft. -/
theorem mem_of_fine {first : Text} {part : MissingPart} {rest : Option MissingPart}
    (own : first ∈ [] :: known) (fine : (if first.isEmpty then some part else rest) = none) :
    first ∈ known := by
  rcases List.mem_cons.mp own with rfl | there
  · cases fine
  · exact there

/-- A draft that is not refused holds known texts only. -/
theorem Traced.mem_known (traced : form.Traced known draft) (fine : form.missing? draft = none) :
    ∀ text ∈ form.texts draft, text ∈ known := by
  cases form with
  | conditional =>
      exact List.forall_mem_cons.mpr
        ⟨mem_of_fine traced.condition fine, List.forall_mem_map.mpr traced.branches⟩
  | switch =>
      exact List.forall_mem_cons.mpr
        ⟨mem_of_fine traced.expression fine, List.forall_mem_map.mpr traced.cases⟩
  | forLoop => exact nofun
  | loop kind => exact List.forall_mem_singleton.mpr (mem_of_fine traced fine)

/-! ## Runs -/

theorem Sound.apply (sound : form.Sound draft) (command : form.Command) :
    form.Sound (form.apply command draft).state := by
  cases form with
  | conditional =>
      exact Outcome.ofExcept_state sound fun next text made =>
        ConditionalDraft.sound_step sound command made
  | switch =>
      exact Outcome.ofExcept_state sound fun next text made =>
        SwitchDraft.sound_step sound command made
  | forLoop =>
      exact Outcome.ofExcept_state sound fun next text made =>
        ForDraft.sound_step sound command made
  | loop kind =>
      exact Outcome.ofExcept_state sound fun next text made =>
        LoopDraft.sound_step sound command made

theorem Traced.apply (traced : form.Traced known draft) {command : form.Command}
    (given : ∀ text, form.given? command = some text → text ∈ known) :
    form.Traced known (form.apply command draft).state := by
  cases form with
  | conditional =>
      exact Outcome.ofExcept_state traced fun next text made =>
        ConditionalDraft.Traced.step traced command given made
  | switch =>
      exact Outcome.ofExcept_state traced fun next text made =>
        SwitchDraft.Traced.step traced command given made
  | forLoop => trivial
  | loop kind =>
      exact Outcome.ofExcept_state traced fun next text made =>
        LoopDraft.Traced.step traced command given made

end StatementForm

/-- What each of the commands keeps holds in the end, whether they fail or not. -/
theorem Receiver.persist_state (receiver : Receiver) (property : receiver.State → Prop)
    {commands : List receiver.Command}
    (keeps : ∀ command ∈ commands, ∀ state, property state →
      property (receiver.apply command state).state)
    {start : receiver.State} (holds : property start) :
    property (receiver.persist commands start) :=
  List.foldlRecOn commands _ holds fun state held command among =>
    keeps command among state held

namespace StatementForm

/-- What commands make of a fresh draft when the caller goes on behind those that fail. -/
def drafted (form : StatementForm) (commands : List form.Command) : form.Draft :=
  Receiver.persist (.statement form) commands form.empty

theorem sound_drafted (form : StatementForm) (commands : List form.Command) :
    form.Sound (form.drafted commands) :=
  Receiver.persist_state (.statement form) form.Sound
    (fun command _ _ sound => sound.apply command) form.sound_empty

theorem traced_drafted (form : StatementForm) (commands : List form.Command) :
    form.Traced (commands.filterMap form.given?) (form.drafted commands) :=
  Receiver.persist_state (.statement form) (form.Traced _)
    (fun command among _ traced => traced.apply fun _ given =>
      List.mem_filterMap.mpr ⟨command, among, given⟩) (traced_empty _ form)

/-- A statement is refused exactly if the first text is empty or the body is missing, always for
the part that is missing. In one that is made, the conditions, the expression and the labels are
texts that calls gave, without the blanks around them, so something is to be seen of each of them
exactly if no such text is blank. -/
theorem headings_visible_iff (form : StatementForm) (commands : List form.Command) :
    (∀ failure, Receiver.text (.statement form) (form.drafted commands) = .error failure ↔
      ∃ part, form.missing? (form.drafted commands) = some part ∧ failure = .builder part) ∧
    ∀ text, Receiver.text (.statement form) (form.drafted commands) = .ok text →
      ∃ node, form.node (form.drafted commands) = .ok node ∧ node.print = .ok text ∧
        node.headings.map Node.print =
          (form.texts (form.drafted commands)).map (fun given => .ok (Text.trim given)) ∧
        (∀ given ∈ form.texts (form.drafted commands),
          ∃ command ∈ commands, form.given? command = some given) ∧
        ((∀ heading ∈ node.headings, ∃ shown, heading.print = .ok shown ∧ Text.Visible shown) ↔
          ∀ given ∈ form.texts (form.drafted commands), Text.Visible given) := by
  have sound := form.sound_drafted commands
  have traced := form.traced_drafted commands
  -- asking for the text makes the node and prints it
  change (∀ failure, (form.node (form.drafted commands) >>= Node.print) = .error failure ↔ _) ∧
    ∀ text, (form.node (form.drafted commands) >>= Node.print) = .ok text → _
  rcases form.node_cases (form.drafted commands) with ⟨part, lacks, refused⟩ | ⟨fine, node, made⟩
  · rw [refused]
    refine ⟨fun failure => ⟨fun same => ⟨part, lacks, (Except.error.inj same).symm⟩, ?_⟩, nofun⟩
    rintro ⟨other, same, rfl⟩
    rw [Option.some.inj (lacks.symm.trans same)]
    rfl
  · -- a node that is made can be printed, so only the missing part stands in the way
    obtain ⟨bare, shown, _⟩ := (sound.node made).printed
    have printed : node.print = .ok (node.withComment bare) := bind_ok shown
    have headings := sound.headings made
    rw [bind_ok made, printed]
    refine ⟨fun failure => ⟨nofun, ?_⟩, fun text same => ⟨node, made, ?_, ?_, ?_, ?_⟩⟩
    · rintro ⟨part, lacks, _⟩
      cases fine.symm.trans lacks
    · rw [printed, ← same]
    · rw [headings, List.map_map]
      exact List.map_congr_left fun given _ => Syntax.print_parseExpression .standard given
    · intro given among
      exact List.mem_filterMap.mp (traced.mem_known fine given among)
    · rw [headings]
      exact visible_printed_iff _

/-- A conditional with a branch behind it. -/
theorem headings_visible_ready :
    ∃ node : Node, node.headings.map Node.print = [.ok "ready".toList, .ok "late()".toList] ∧
      ∀ heading ∈ node.headings, ∃ shown, heading.print = .ok shown ∧ Text.Visible shown := by
  obtain ⟨_, made⟩ := headings_visible_iff .conditional
    [.condition " ready".toList, .body [], .branch "late() ".toList []]
  obtain ⟨node, _, _, shown, _, visible⟩ :=
    made "if (ready) \x7b\n\x7d else if (late()) \x7b\n\x7d".toList rfl
  have ready : Text.Visible " ready".toList := ⟨'r', by decide, rfl⟩
  have late : Text.Visible "late() ".toList := ⟨'l', by decide, rfl⟩
  exact ⟨node, shown, visible.mpr (List.forall_mem_cons.mpr
    ⟨ready, List.forall_mem_singleton.mpr late⟩)⟩

/-- A condition of blanks, a branch without a condition, and a label of blanks. -/
theorem blank_headings_printed :
    Receiver.text (.statement .conditional)
        (StatementForm.drafted .conditional [.condition "  ".toList, .body []]) =
      .ok "if () \x7b\n\x7d".toList ∧
    Receiver.text (.statement .conditional)
        (StatementForm.drafted .conditional
          [.condition "ready".toList, .body [], .branch [] []]) =
      .ok "if (ready) \x7b\n\x7d else if () \x7b\n\x7d".toList ∧
    Receiver.text (.statement .switch)
        (StatementForm.drafted .switch
          [.expression "mode".toList, .branch " ".toList []]) =
      .ok "switch (mode) \x7b\n    case :\n\x7d".toList :=
  ⟨rfl, rfl, rfl⟩

end StatementForm

end TypeScriptGen
