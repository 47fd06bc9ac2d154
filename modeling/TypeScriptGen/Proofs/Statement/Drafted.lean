import TypeScriptGen.Proofs.Syntax.Parsed
import TypeScriptGen.Statement.Draft

/-!
# Drafted statements show their names

A draft holds only nodes that show their names, and bodies only where bodies
belong. Commands keep it so, those for nested statements by going through the
draft of the nested statement, and the node that is made in the end shows its
names.
-/

namespace TypeScriptGen

open Node (IsBody Movable)

/-- A node that may stand as the body of a conditional or loop. -/
def MovableBody (node : Node) : Prop := Movable node ∧ IsBody node

def BlockDraft.Sound (draft : BlockDraft) : Prop := ∀ node ∈ draft.statements, Movable node

structure ConditionalDraft.Sound (draft : ConditionalDraft) : Prop where
  body : ∀ node ∈ draft.body.toList, MovableBody node
  branches : ∀ branch ∈ draft.branches, MovableBody branch.2
  alternative : ∀ node ∈ draft.alternative.toList, MovableBody node

structure SwitchDraft.Sound (draft : SwitchDraft) : Prop where
  cases : ∀ branch ∈ draft.cases, ∀ node ∈ branch.2, Movable node
  otherwise : ∀ statements ∈ draft.otherwise.toList, ∀ node ∈ statements, Movable node

def ForDraft.Sound (draft : ForDraft) : Prop := ∀ node ∈ draft.body.toList, MovableBody node

def LoopDraft.Sound (draft : LoopDraft) : Prop := ∀ node ∈ draft.body.toList, MovableBody node

/-! ## The node of a draft -/

theorem movable_optionalExpression (text : Text) :
    ∀ node ∈ (Syntax.optionalExpression text).toList, Movable node := by
  intro node member
  unfold Syntax.optionalExpression at member
  split at member
  · cases member
  · rw [List.mem_singleton.mp member]
    exact Syntax.movable_parseExpression text

theorem BlockDraft.Sound.node {draft : BlockDraft} (sound : draft.Sound) :
    MovableBody draft.node :=
  ⟨.block draft.comment sound, _, _, rfl⟩

theorem BlockDraft.Sound.add {draft : BlockDraft} (sound : draft.Sound) {statement : Node}
    (movable : Movable statement) : (draft.add statement).Sound := by
  intro node member
  rcases List.mem_append.mp member with there | new
  · exact sound node there
  · rwa [List.mem_singleton.mp new]

/-- The further branches make a conditional inside the last one's alternative. -/
theorem ConditionalDraft.movable_chain {alternative : Option Node} {branches : List (Text × Node)}
    (others : ∀ node ∈ alternative.toList, MovableBody node)
    (bodies : ∀ branch ∈ branches, MovableBody branch.2) :
    ∀ node ∈ (chain alternative branches).toList,
      Movable node ∧ (node.isConditional = true ∨ IsBody node) := by
  induction branches with
  | nil => exact fun node member => ⟨(others node member).1, Or.inr (others node member).2⟩
  | cons branch branches ih =>
      have rest := ih fun other member => bodies other (List.mem_cons_of_mem branch member)
      have body := bodies branch List.mem_cons_self
      intro node member
      rw [chain] at member
      rw [List.mem_singleton.mp member]
      exact ⟨.conditional [] (Syntax.movable_parseExpression branch.1) body.1 body.2
        (fun node member => (rest node member).1) (fun node member => (rest node member).2),
        Or.inl rfl⟩

/-- A conditional is made of a condition and a body. -/
theorem ConditionalDraft.exists_of_node {draft : ConditionalDraft} {node : Node}
    (made : draft.node = .ok node) :
    ∃ body, draft.condition ≠ [] ∧ draft.body = some body ∧
      node = .conditional (Syntax.parseExpression draft.condition) body
        (chain draft.alternative draft.branches) draft.comment := by
  unfold ConditionalDraft.node at made
  split at made
  · cases made
  · next given =>
      split at made
      · cases made
      · next body held =>
          cases made
          exact ⟨body, fun none => given (List.isEmpty_iff.mpr none), held, rfl⟩

theorem ConditionalDraft.Sound.node {draft : ConditionalDraft} (sound : draft.Sound) {node : Node}
    (made : draft.node = .ok node) : Movable node := by
  obtain ⟨body, _, held, rfl⟩ := exists_of_node made
  have movable := sound.body body (by simp [held])
  have rest := movable_chain sound.alternative sound.branches
  exact .conditional draft.comment (Syntax.movable_parseExpression _) movable.1 movable.2
    (fun node member => (rest node member).1) fun node member => (rest node member).2

theorem SwitchDraft.Sound.node {draft : SwitchDraft} (sound : draft.Sound) {node : Node}
    (made : draft.node = .ok node) : Movable node := by
  unfold SwitchDraft.node at made
  split at made
  · cases made
  · cases made
    refine .switchStatement draft.comment (Syntax.movable_parseExpression _) fun clause member => ?_
    rcases List.mem_append.mp member with labelled | last
    · obtain ⟨branch, among, rfl⟩ := List.mem_map.mp labelled
      exact .caseClause (Syntax.movable_parseExpression _) (sound.cases branch among)
    · obtain ⟨statements, among, rfl⟩ := List.mem_map.mp last
      exact .defaultClause (sound.otherwise statements among)

theorem ForDraft.Sound.node {draft : ForDraft} (sound : draft.Sound) {node : Node}
    (made : draft.node = .ok node) : Movable node := by
  unfold ForDraft.node at made
  split at made
  · cases made
  · next body held =>
      cases made
      have movable := sound body (by simp [held])
      exact .forLoop draft.comment movable.1 movable.2 (movable_optionalExpression _)
        (movable_optionalExpression _) (movable_optionalExpression _)

theorem LoopDraft.Sound.node {draft : LoopDraft} (sound : draft.Sound) {kind : LoopKind}
    {node : Node} (made : draft.node kind = .ok node) : Movable node := by
  unfold LoopDraft.node at made
  split at made
  · cases made
  · split at made
    · cases made
    · next body held =>
        cases made
        have movable := sound body (by simp [held])
        cases kind with
        | whileLoop =>
            exact .whileLoop draft.comment (Syntax.movable_parseExpression _) movable.1 movable.2
        | doLoop =>
            exact .doLoop draft.comment movable.1 movable.2 (Syntax.movable_parseExpression _)

/-! ## Commands -/

theorem eq_of_printedDraft {σ : Type} {draft next : σ} {node : Except Failure Node}
    {text : Option Text} (made : printedDraft draft node = .ok (next, text)) : next = draft := by
  obtain ⟨found, _, made⟩ := exists_of_bind_ok made
  obtain ⟨printed, _, made⟩ := exists_of_bind_ok made
  cases made
  rfl

theorem exists_of_commented {σ : Type} {comment : Value} {set : List Text → σ} {next : σ}
    {text : Option Text}
    (made : ((do
      let lines ← Comment.linesOf comment
      pure (set lines)).map (·, none)) = (.ok (next, text) : Except Failure (σ × Option Text))) :
    ∃ lines, next = set lines := by
  obtain ⟨changed, commented, same⟩ := exists_of_map_ok made
  obtain ⟨lines, _, commented⟩ := exists_of_bind_ok commented
  cases same
  cases commented
  exact ⟨lines, rfl⟩

theorem forall_some {property : Node → Prop} {node : Node} (holds : property node) :
    ∀ found ∈ (some node).toList, property found := by
  intro found member
  rwa [List.mem_singleton.mp member]

theorem forall_concat {α : Type} {property : α → Prop} {items : List α} {last : α}
    (all : ∀ item ∈ items, property item) (holds : property last) :
    ∀ item ∈ items ++ [last], property item := by
  intro item member
  rcases List.mem_append.mp member with there | new
  · exact all item there
  · rwa [List.mem_singleton.mp new]

theorem BlockDraft.sound_empty : BlockDraft.empty.Sound := nofun

theorem ConditionalDraft.sound_empty : ConditionalDraft.empty.Sound := ⟨nofun, nofun, nofun⟩

theorem SwitchDraft.sound_empty : SwitchDraft.empty.Sound := ⟨nofun, nofun⟩

theorem ForDraft.sound_empty : ForDraft.empty.Sound := nofun

theorem LoopDraft.sound_empty : LoopDraft.empty.Sound := nofun

mutual

theorem BlockDraft.sound_step {draft next : BlockDraft} {text : Option Text}
    (sound : draft.Sound) :
    ∀ command, BlockDraft.step draft command = .ok (next, text) → next.Sound
  | .comment _, made => by
      obtain ⟨lines, rfl⟩ := exists_of_commented made
      exact sound
  | .print, made => by
      rw [eq_of_printedDraft made]
      exact sound
  | .statement content, made => by
      cases made
      exact sound.add (Syntax.movable_parseStatement content)
  | .returns expression, made => by
      cases made
      exact sound.add (.returnStatement (movable_optionalExpression expression))
  | .conditional commands, made => by
      obtain ⟨inner, ran, made⟩ := exists_of_bind_ok made
      obtain ⟨node, drafted, made⟩ := exists_of_bind_ok made
      cases made
      exact sound.add
        ((ConditionalDraft.sound_steps ConditionalDraft.sound_empty commands ran).node drafted)
  | .switch commands, made => by
      obtain ⟨inner, ran, made⟩ := exists_of_bind_ok made
      obtain ⟨node, drafted, made⟩ := exists_of_bind_ok made
      cases made
      exact sound.add ((SwitchDraft.sound_steps SwitchDraft.sound_empty commands ran).node drafted)
  | .forLoop commands, made => by
      obtain ⟨inner, ran, made⟩ := exists_of_bind_ok made
      obtain ⟨node, drafted, made⟩ := exists_of_bind_ok made
      cases made
      exact sound.add ((ForDraft.sound_steps ForDraft.sound_empty commands ran).node drafted)
  | .loop kind commands, made => by
      obtain ⟨inner, ran, made⟩ := exists_of_bind_ok made
      obtain ⟨node, drafted, made⟩ := exists_of_bind_ok made
      cases made
      exact sound.add ((LoopDraft.sound_steps LoopDraft.sound_empty commands ran).node drafted)

theorem BlockDraft.sound_steps {draft next : BlockDraft} (sound : draft.Sound) :
    ∀ commands, BlockDraft.steps draft commands = .ok next → next.Sound
  | [], made => by
      cases made
      exact sound
  | command :: commands, made => by
      obtain ⟨⟨middle, text⟩, stepped, made⟩ := exists_of_bind_ok made
      exact BlockDraft.sound_steps (BlockDraft.sound_step sound command stepped) commands made

theorem ConditionalDraft.sound_step {draft next : ConditionalDraft} {text : Option Text}
    (sound : draft.Sound) :
    ∀ command, ConditionalDraft.step draft command = .ok (next, text) → next.Sound
  | .comment _, made => by
      obtain ⟨lines, rfl⟩ := exists_of_commented made
      exact ⟨sound.body, sound.branches, sound.alternative⟩
  | .print, made => by
      rw [eq_of_printedDraft made]
      exact sound
  | .condition _, made => by
      cases made
      exact ⟨sound.body, sound.branches, sound.alternative⟩
  | .body commands, made => by
      obtain ⟨inner, ran, made⟩ := exists_of_bind_ok made
      cases made
      have body := (BlockDraft.sound_steps BlockDraft.sound_empty commands ran).node
      exact ⟨forall_some body, sound.branches, sound.alternative⟩
  | .branch _ commands, made => by
      obtain ⟨inner, ran, made⟩ := exists_of_bind_ok made
      cases made
      have body := (BlockDraft.sound_steps BlockDraft.sound_empty commands ran).node
      exact ⟨sound.body, forall_concat sound.branches body, sound.alternative⟩
  | .alternative commands, made => by
      obtain ⟨inner, ran, made⟩ := exists_of_bind_ok made
      cases made
      have body := (BlockDraft.sound_steps BlockDraft.sound_empty commands ran).node
      exact ⟨sound.body, sound.branches, forall_some body⟩

theorem ConditionalDraft.sound_steps {draft next : ConditionalDraft} (sound : draft.Sound) :
    ∀ commands, ConditionalDraft.steps draft commands = .ok next → next.Sound
  | [], made => by
      cases made
      exact sound
  | command :: commands, made => by
      obtain ⟨⟨middle, text⟩, stepped, made⟩ := exists_of_bind_ok made
      exact ConditionalDraft.sound_steps (ConditionalDraft.sound_step sound command stepped)
        commands made

theorem SwitchDraft.sound_step {draft next : SwitchDraft} {text : Option Text}
    (sound : draft.Sound) :
    ∀ command, SwitchDraft.step draft command = .ok (next, text) → next.Sound
  | .comment _, made => by
      obtain ⟨lines, rfl⟩ := exists_of_commented made
      exact ⟨sound.cases, sound.otherwise⟩
  | .print, made => by
      rw [eq_of_printedDraft made]
      exact sound
  | .expression _, made => by
      cases made
      exact ⟨sound.cases, sound.otherwise⟩
  | .branch _ commands, made => by
      obtain ⟨inner, ran, made⟩ := exists_of_bind_ok made
      cases made
      have statements := BlockDraft.sound_steps BlockDraft.sound_empty commands ran
      exact ⟨forall_concat sound.cases statements, sound.otherwise⟩
  | .otherwise commands, made => by
      obtain ⟨inner, ran, made⟩ := exists_of_bind_ok made
      cases made
      have statements := BlockDraft.sound_steps BlockDraft.sound_empty commands ran
      refine ⟨sound.cases, fun found member => ?_⟩
      rw [List.mem_singleton.mp member]
      exact statements

theorem SwitchDraft.sound_steps {draft next : SwitchDraft} (sound : draft.Sound) :
    ∀ commands, SwitchDraft.steps draft commands = .ok next → next.Sound
  | [], made => by
      cases made
      exact sound
  | command :: commands, made => by
      obtain ⟨⟨middle, text⟩, stepped, made⟩ := exists_of_bind_ok made
      exact SwitchDraft.sound_steps (SwitchDraft.sound_step sound command stepped) commands made

theorem ForDraft.sound_step {draft next : ForDraft} {text : Option Text} (sound : draft.Sound) :
    ∀ command, ForDraft.step draft command = .ok (next, text) → next.Sound
  | .comment _, made => by
      obtain ⟨lines, rfl⟩ := exists_of_commented made
      exact sound
  | .print, made => by
      rw [eq_of_printedDraft made]
      exact sound
  | .start _, made => by
      cases made
      exact sound
  | .condition _, made => by
      cases made
      exact sound
  | .increment _, made => by
      cases made
      exact sound
  | .body commands, made => by
      obtain ⟨inner, ran, made⟩ := exists_of_bind_ok made
      cases made
      exact forall_some (BlockDraft.sound_steps BlockDraft.sound_empty commands ran).node

theorem ForDraft.sound_steps {draft next : ForDraft} (sound : draft.Sound) :
    ∀ commands, ForDraft.steps draft commands = .ok next → next.Sound
  | [], made => by
      cases made
      exact sound
  | command :: commands, made => by
      obtain ⟨⟨middle, text⟩, stepped, made⟩ := exists_of_bind_ok made
      exact ForDraft.sound_steps (ForDraft.sound_step sound command stepped) commands made

theorem LoopDraft.sound_step {kind : LoopKind} {draft next : LoopDraft} {text : Option Text}
    (sound : draft.Sound) :
    ∀ command, LoopDraft.step kind draft command = .ok (next, text) → next.Sound
  | .comment _, made => by
      obtain ⟨lines, rfl⟩ := exists_of_commented made
      exact sound
  | .print, made => by
      rw [eq_of_printedDraft made]
      exact sound
  | .condition _, made => by
      cases made
      exact sound
  | .body commands, made => by
      obtain ⟨inner, ran, made⟩ := exists_of_bind_ok made
      cases made
      exact forall_some (BlockDraft.sound_steps BlockDraft.sound_empty commands ran).node

theorem LoopDraft.sound_steps {kind : LoopKind} {draft next : LoopDraft} (sound : draft.Sound) :
    ∀ commands, LoopDraft.steps kind draft commands = .ok next → next.Sound
  | [], made => by
      cases made
      exact sound
  | command :: commands, made => by
      obtain ⟨⟨middle, text⟩, stepped, made⟩ := exists_of_bind_ok made
      exact LoopDraft.sound_steps (LoopDraft.sound_step sound command stepped) commands made

end

end TypeScriptGen
