import TypeScriptGen.Usage.Tracker

/-!
# Walks

A walk takes the next node from a stack and puts the children of the node in its
place. What is ahead of it are the nodes of the stack with all their descendants,
so it comes to an end: every visit leaves one node less. It visits them in the
order of the recursive walk, up to the first placeholder.
-/

namespace TypeScriptGen

/-! ## Descendants -/

/-- The inner node is the outer one, or a child of it holds the inner node. -/
inductive Node.Within (inner : Node) : Node → Prop
  | here : Within inner inner
  | deeper {outer child : Node} (among : child ∈ outer.children) (within : Within inner child) :
      Within inner outer

namespace Node

variable {inner middle outer : Node}

theorem Within.trans (first : inner.Within middle) (second : middle.Within outer) :
    inner.Within outer := by
  induction second with
  | here => exact first
  | deeper among _ ih => exact .deeper among ih

theorem Within.child (among : inner ∈ outer.children) : inner.Within outer := .deeper among .here

theorem mem_walk_cases : inner ∈ outer.walk ↔
    inner = outer ∨ ∃ child ∈ outer.children, inner ∈ child.walk := by
  rw [walk_eq, List.mem_cons, List.mem_flatMap]
  simp only [List.mem_reverse]

theorem length_walk_child {child : Node} (among : child ∈ outer.children) :
    child.walk.length < outer.walk.length := by
  rw [walk_eq outer, List.length_cons, List.flatMap_def]
  exact Nat.lt_succ_of_le (List.sublist_flatten_of_mem
    (List.mem_map_of_mem (List.mem_reverse.mpr among))).length_le

/-- A property holds of every node when it holds of a node whose children have it. -/
theorem induction_on_children {property : Node → Prop}
    (step : ∀ node, (∀ child ∈ node.children, property child) → property node) (node : Node) :
    property node := by
  induction size : node.walk.length using Nat.strongRecOn generalizing node with
  | ind size ih =>
      refine step node fun child among => ih _ ?_ child rfl
      rw [← size]
      exact length_walk_child among

/-- Nothing within the node is a placeholder. -/
def IsComplete (root : Node) : Prop := ∀ node : Node, node.Within root → node.isPlaceholder = false

/-- The recursive walk goes through a node and all that is within it. -/
theorem mem_walk_iff : inner ∈ outer.walk ↔ inner.Within outer := by
  constructor
  · intro member
    -- `children` puts names into nodes, so a child need not be a part of its parent
    induction size : outer.walk.length using Nat.strongRecOn generalizing outer with
    | ind size ih =>
        rcases mem_walk_cases.mp member with rfl | ⟨child, among, inside⟩
        · exact .here
        · have smaller := length_walk_child among
          rw [size] at smaller
          exact .deeper among (ih _ smaller inside rfl)
  · intro within
    induction within with
    | here => exact mem_walk_cases.mpr (.inl rfl)
    | deeper among _ ih => exact mem_walk_cases.mpr (.inr ⟨_, among, ih⟩)

end Node

namespace Usage

/-! ## Visits -/

theorem recordAll_append (tracker : Tracker) (first second : List Text) :
    tracker.recordAll (first ++ second) = (tracker.recordAll first).recordAll second :=
  List.foldl_append

namespace Walk

/-- The nodes that a walk has still to visit, in their order. -/
def ahead (walk : Walk) : List Node := walk.stack.flatMap Node.walk

/-- A visit takes one node off what is ahead. -/
theorem ahead_cons (tracker next : Tracker) (node : Node) (stack : List Node) :
    ahead ⟨tracker, node :: stack⟩ = node :: ahead ⟨next, node.children.reverse ++ stack⟩ := by
  rw [ahead, ahead, List.flatMap_cons, Node.walk_eq, List.cons_append, List.flatMap_append]

/-- A visit records the names of the next node, and goes on with its children unless it is a
placeholder. -/
theorem run_cons (visits : Nat) (tracker : Tracker) (node : Node) (stack : List Node) :
    run (visits + 1) ⟨tracker, node :: stack⟩ =
      if node.isPlaceholder then (⟨tracker.recordAll (ownNames node), stack⟩, .error .wrongKind)
      else run visits ⟨tracker.recordAll (ownNames node), node.children.reverse ++ stack⟩ := by
  have next : node.children? = if node.isPlaceholder then none else some node.children := rfl
  cases placeholder : node.isPlaceholder with
  | true =>
      rw [placeholder, if_pos rfl] at next
      simp only [run, next, if_true]
  | false =>
      rw [placeholder, if_neg Bool.false_ne_true] at next
      simp only [run, next, Bool.false_eq_true, if_false]

/-- A walk with visits enough records the names of what is ahead, up to a placeholder; without a
placeholder no node is left in the end. -/
theorem run_eq {visits : Nat} {walk : Walk} (enough : walk.ahead.length ≤ visits) :
    ∃ rest, run visits walk =
        (⟨walk.tracker.recordAll
            ((walk.ahead.takeWhile fun visited => !visited.isPlaceholder).flatMap ownNames), rest⟩,
          if walk.ahead.any Node.isPlaceholder then .error .wrongKind else .ok ()) ∧
      (walk.ahead.any Node.isPlaceholder = false → rest = []) := by
  induction visits generalizing walk with
  | zero =>
      obtain ⟨tracker, stack⟩ := walk
      have none := List.eq_nil_of_length_eq_zero (Nat.le_zero.mp enough)
      refine ⟨stack, ?_, fun _ => ?_⟩
      · rw [none]
        rfl
      · cases stack with
        | nil => rfl
        | cons node stack =>
            rw [ahead_cons tracker tracker] at none
            cases none
  | succ visits ih =>
      obtain ⟨tracker, stack⟩ := walk
      cases stack with
      | nil => exact ⟨[], rfl, fun _ => rfl⟩
      | cons node stack =>
          rw [ahead_cons tracker (tracker.recordAll (ownNames node))] at enough ⊢
          obtain ⟨rest, done, left⟩ := ih (Nat.le_of_succ_le_succ enough)
          rw [run_cons, List.any_cons, List.takeWhile_cons]
          cases placeholder : node.isPlaceholder with
          | true =>
              -- a placeholder has no names, so nothing was recorded for it
              cases node with
              | placeholder => exact ⟨stack, rfl, nofun⟩
              | _ => cases placeholder
          | false =>
              refine ⟨rest, ?_, left⟩
              simp only [Bool.false_eq_true, if_false, done, Bool.not_false, if_true,
                List.flatMap_cons, recordAll_append, Bool.false_or]

/-- A walk from a root records the names of the root up to a placeholder. -/
theorem run_root (tracker : Tracker) {root : Node} {visits : Nat}
    (enough : root.walk.length ≤ visits) :
    ∃ rest, run visits ⟨tracker, [root]⟩ =
        (⟨tracker.recordAll (namesUntilPlaceholder root), rest⟩,
          if hasPlaceholder root then .error .wrongKind else .ok ()) ∧
      (hasPlaceholder root = false → rest = []) := by
  have whole : ahead ⟨tracker, [root]⟩ = root.walk := List.flatMap_singleton ..
  have fits : (ahead ⟨tracker, [root]⟩).length ≤ visits := whole ▸ enough
  have done := run_eq fits
  rwa [whole] at done

end Walk

/-- Scanning a node finds the names of its walk up to a placeholder, with which it fails. -/
theorem scan_node_eq (tracker : Tracker) (thawed : tracker.frozen = false) (node : Node) :
    tracker.scan (.node node) =
      (tracker.recordAll (namesUntilPlaceholder node),
        if hasPlaceholder node then .error .wrongKind else .ok ()) := by
  obtain ⟨rest, done, _⟩ := Walk.run_root tracker (Nat.le_refl node.walk.length)
  rw [Tracker.scan, thawed, if_neg Bool.false_ne_true, done]

end Usage

end TypeScriptGen
