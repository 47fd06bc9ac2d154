import TypeScriptGen.Proofs.Syntax.ReferenceSearch
import TypeScriptGen.Proofs.Text.Pieces
import TypeScriptGen.Proofs.Usage.Walking

/-!
# The names of nodes

What a scan of a node finds, as a fact about the node and its children. The
nodes of a reference yield its components, and free text yields stretches of
itself without line feeds.
-/

namespace TypeScriptGen.Usage

open Text (Solid)

/-- The names of a node and of all its descendants. -/
def namesIn (node : Node) : List Text := node.walk.flatMap ownNames

theorem mem_namesIn {node : Node} {name : Text} :
    name ∈ namesIn node ↔
      name ∈ ownNames node ∨ ∃ child ∈ node.children, name ∈ namesIn child := by
  unfold namesIn
  rw [Node.walk_eq node, List.flatMap_cons, List.mem_append, List.flatMap_assoc, List.mem_flatMap]
  simp

theorem hasPlaceholder_iff {node : Node} :
    hasPlaceholder node = false ↔
      node.isPlaceholder = false ∧ ∀ child ∈ node.children, hasPlaceholder child = false := by
  unfold hasPlaceholder
  rw [Node.walk_eq node, List.any_cons, Bool.or_eq_false_iff, List.any_flatMap, List.any_reverse]
  simp

/-- Without placeholders a walk comes everywhere. -/
theorem namesUntilPlaceholder_eq {node : Node} (complete : hasPlaceholder node = false) :
    namesUntilPlaceholder node = namesIn node := by
  have known : ∀ visited ∈ node.walk, (!visited.isPlaceholder) = true := by
    intro visited member
    simpa using List.any_eq_false.mp complete visited member
  have all : (node.walk ++ []).takeWhile (fun visited => !visited.isPlaceholder) =
      node.walk ++ [] :=
    List.takeWhile_append_of_pos known
  rw [List.append_nil] at all
  unfold namesUntilPlaceholder namesIn
  rw [all]

/-- Scanning a node without placeholders succeeds and finds the names of the node. -/
theorem scan_node (tracker : Tracker) (thawed : tracker.frozen = false) {node : Node}
    (complete : hasPlaceholder node = false) :
    tracker.scan (.node node) = (tracker.recordAll (namesIn node), .ok ()) := by
  rw [scan_node_eq tracker thawed, complete, if_neg Bool.false_ne_true,
    namesUntilPlaceholder_eq complete]

theorem scan_code (tracker : Tracker) (thawed : tracker.frozen = false) (code : Text) :
    tracker.scan (.code code) = (tracker.recordAll (namesInCode code), .ok ()) := by
  simp [Tracker.scan, thawed]

/-- What a fresh tracker holds after some names. -/
theorem mem_recordAll_empty (names : List Text) (name : Text) :
    name ∈ (Tracker.empty.recordAll names).names ↔ name ∈ names := by
  rw [Tracker.mem_recordAll]
  exact or_iff_left List.not_mem_nil

/-! ## Nodes of references -/

theorem namesIn_identifier (text : Text) : namesIn (Node.identifier text) = [text] := rfl

theorem mem_namesIn_named {name : Name} {part : Text} :
    part ∈ namesIn (.named name) ↔ part ∈ name.parts := by
  induction name with
  | identifier text => exact Iff.rfl
  | qualified left right ih =>
      rw [mem_namesIn]
      simp only [ownNames, Node.children, Node.nameChildren, namesIn_identifier, List.mem_cons,
        List.not_mem_nil, or_false, exists_eq_or_imp, exists_eq_left, ih, Name.parts,
        List.mem_append]
      exact or_self_iff

theorem hasPlaceholder_named (name : Name) : hasPlaceholder (.named name) = false := by
  induction name with
  | identifier text => rfl
  | qualified left right ih =>
      refine hasPlaceholder_iff.mpr ⟨rfl, fun child member => ?_⟩
      simp only [Node.children, Node.nameChildren, List.mem_cons, List.not_mem_nil,
        or_false] at member
      rcases member with rfl | rfl
      · exact ih
      · rfl

theorem mem_nameParts {node : Node} {part : Text} (member : part ∈ nameParts node) :
    part ∈ namesIn node := by
  cases node with
  | named name => exact mem_namesIn_named.mpr member
  | _ => cases member

theorem mem_namesIn_typeReference {name : Name} {part : Text} :
    part ∈ namesIn (.typeReference name []) ↔ part ∈ name.parts := by
  rw [mem_namesIn]
  simp only [ownNames, Node.children, List.mem_singleton, exists_eq_left, mem_namesIn_named,
    or_self]

theorem mem_namesIn_propertyAccess {target : Node} {member part : Text} :
    part ∈ namesIn (.propertyAccess target member) ↔ part ∈ namesIn target ∨ part = member := by
  rw [mem_namesIn]
  simp only [ownNames, Node.children, Node.identifier, List.mem_cons, List.not_mem_nil, or_false,
    exists_eq_or_imp, exists_eq_left, mem_namesIn_named, Name.parts]
  exact ⟨fun found => found.elim (.inl ∘ mem_nameParts) id, .inr⟩

theorem mem_namesIn_call {callee : Node} {part : Text} :
    part ∈ namesIn (.call callee []) ↔ part ∈ namesIn callee := by
  rw [mem_namesIn]
  simp only [ownNames, Node.children, List.mem_singleton, exists_eq_left]
  exact ⟨fun found => found.elim mem_nameParts id, .inr⟩

theorem mem_namesIn_path {members : List Text} {start : Node} {part : Text} :
    part ∈ namesIn (members.foldl Node.propertyAccess start) ↔
      part ∈ namesIn start ∨ part ∈ members := by
  induction members generalizing start with
  | nil => simp
  | cons member members ih =>
      rw [List.foldl_cons, ih, mem_namesIn_propertyAccess, List.mem_cons, or_assoc]

theorem hasPlaceholder_path (members : List Text) {start : Node}
    (complete : hasPlaceholder start = false) :
    hasPlaceholder (members.foldl Node.propertyAccess start) = false := by
  induction members generalizing start with
  | nil => exact complete
  | cons member members ih =>
      refine ih (hasPlaceholder_iff.mpr ⟨rfl, fun child among => ?_⟩)
      simp only [Node.children, List.mem_cons, List.not_mem_nil, or_false] at among
      rcases among with rfl | rfl
      · exact complete
      · rfl

/-- The node of a reference yields its components, as an expression and as a type. -/
theorem mem_namesIn_referenceNode {asTypes : Bool} {reference : Syntax.Reference} {part : Text} :
    part ∈ namesIn (Syntax.referenceNode asTypes reference) ↔ part ∈ reference.parts := by
  unfold Syntax.referenceNode
  split
  · unfold Syntax.Reference.type
    rw [mem_namesIn_typeReference, Name.parts_extend]
    rfl
  · have path : part ∈ namesIn (reference.members.foldl Node.propertyAccess
        (Node.identifier reference.first)) ↔ part ∈ reference.parts := by
      rw [mem_namesIn_path, Node.identifier, mem_namesIn_named]
      simp [Name.parts, Syntax.Reference.parts]
    unfold Syntax.Reference.expression
    dsimp only
    split
    · rw [mem_namesIn_call, path]
    · exact path

theorem hasPlaceholder_referenceNode (asTypes : Bool) (reference : Syntax.Reference) :
    hasPlaceholder (Syntax.referenceNode asTypes reference) = false := by
  unfold Syntax.referenceNode
  split
  · refine hasPlaceholder_iff.mpr ⟨rfl, fun child member => ?_⟩
    simp only [Syntax.Reference.type, Node.children, List.mem_singleton] at member
    rw [member]
    exact hasPlaceholder_named _
  · have path := hasPlaceholder_path reference.members
      (hasPlaceholder_named (.identifier reference.first))
    unfold Syntax.Reference.expression
    dsimp only
    split
    · refine hasPlaceholder_iff.mpr ⟨rfl, fun child member => ?_⟩
      simp only [Node.children, List.mem_singleton] at member
      rw [member]
      exact path
    · exact path

theorem namesIn_stringLiteral (content : Text) :
    namesIn (.stringLiteral content) = namesInLiteral content := by
  simp [namesIn, Node.walk, ownNames]

end TypeScriptGen.Usage
