import TypeScriptGen.Proofs.Usage.NodeNames

/-!
# What a scan of a tree finds

Only three kinds of nodes bear names of their own: identifiers, free text and
string literals. A scan takes a shortcut at names, type references, property
accesses and calls, whose components it records before it comes to them; since
they are borne by descendants all the same, the shortcut adds nothing.
-/

namespace TypeScriptGen.Usage

/-- The node bears the name itself, and not only through its descendants. -/
inductive Bears : Node → Text → Prop
  | identifier (text : Text) : Bears (Node.identifier text) text
  | raw {code name : Text} (references : List Node) (found : name ∈ namesInCode code) :
      Bears (.raw code references) name
  | literal {content name : Text} (found : name ∈ namesInLiteral content) :
      Bears (.stringLiteral content) name

/-- Some node within the root bears the name. -/
def BornWithin (root : Node) (name : Text) : Prop := ∃ node, node.Within root ∧ Bears node name

variable {root node : Node} {name : Text}

namespace BornWithin

theorem of_child {child : Node} (among : child ∈ root.children) (born : BornWithin child name) :
    BornWithin root name :=
  have ⟨node, within, bears⟩ := born
  ⟨node, .deeper among within, bears⟩

theorem of_name {whole : Name} (part : name ∈ whole.parts) : BornWithin (.named whole) name := by
  induction whole with
  | identifier text =>
      rw [Name.parts, List.mem_singleton] at part
      exact ⟨.named (.identifier text), .here, part ▸ .identifier text⟩
  | qualified left right ih =>
      rw [Name.parts, List.mem_append, List.mem_singleton] at part
      rcases part with part | rfl
      · exact (ih part).of_child (.head _)
      · exact ⟨.identifier name, .child (.tail _ (.head _)), .identifier name⟩

theorem of_nameParts (part : name ∈ nameParts node) : BornWithin node name := by
  cases node with
  | named whole => exact of_name part
  | _ => cases part

/-- What is recorded for a node is borne by the node or below it. -/
theorem of_ownNames (own : name ∈ ownNames node) : BornWithin node name := by
  cases node with
  | named whole => exact of_name own
  | typeReference whole arguments => exact (of_name own).of_child (.head _)
  | propertyAccess target member => exact (of_nameParts own).of_child (.head _)
  | call callee arguments => exact (of_nameParts own).of_child (.head _)
  | raw code references => exact ⟨_, .here, .raw references own⟩
  | stringLiteral content => exact ⟨_, .here, .literal own⟩
  | _ => cases own

end BornWithin

theorem mem_ownNames_of_bears (bears : Bears node name) : name ∈ ownNames node := by
  cases bears with
  | identifier => exact .head _
  | raw _ found => exact found
  | literal found => exact found

/-- The names of a node are those that it and its descendants bear. -/
theorem mem_namesIn_iff : name ∈ namesIn root ↔ BornWithin root name := by
  rw [namesIn, List.mem_flatMap]
  constructor
  · rintro ⟨visited, among, own⟩
    obtain ⟨node, within, bears⟩ := BornWithin.of_ownNames own
    exact ⟨node, within.trans (Node.mem_walk_iff.mp among), bears⟩
  · rintro ⟨node, within, bears⟩
    exact ⟨node, Node.mem_walk_iff.mpr within, mem_ownNames_of_bears bears⟩

theorem hasPlaceholder_eq_false_iff : hasPlaceholder root = false ↔ root.IsComplete := by
  rw [hasPlaceholder, List.any_eq_false]
  constructor
  · exact fun known node within =>
      Bool.eq_false_iff.mpr (known node (Node.mem_walk_iff.mpr within))
  · exact fun complete node among =>
      Bool.eq_false_iff.mp (complete node (Node.mem_walk_iff.mp among))

/-! ## Scans -/

variable {tracker : Tracker}

/-- A walk through a tree without placeholders leaves nothing behind after as many visits as the
tree has nodes, and after any more. -/
theorem Walk.run_complete (complete : root.IsComplete) {visits : Nat}
    (enough : root.walk.length ≤ visits) :
    run visits ⟨tracker, [root]⟩ = (⟨tracker.recordAll (namesIn root), []⟩, .ok ()) := by
  have known := hasPlaceholder_eq_false_iff.mpr complete
  obtain ⟨rest, done, left⟩ := run_root tracker enough
  rw [done, left known, known, if_neg Bool.false_ne_true, namesUntilPlaceholder_eq known]

/-- The walk through a tree without placeholders comes to its end and leaves the tracker thawed;
what it adds are the identifiers of the tree, the names in its free text and the names in its
string literals, and nothing else. -/
theorem scan_finds_descendants (thawed : tracker.frozen = false) (complete : root.IsComplete) :
    ∃ final : Tracker,
      (∀ visits, root.walk.length ≤ visits →
        Walk.run visits ⟨tracker, [root]⟩ = (⟨final, []⟩, .ok ())) ∧
      tracker.scan (.node root) = (final, .ok ()) ∧
      final.frozen = false ∧
      ∀ name, name ∈ final.names ↔ name ∈ tracker.names ∨ BornWithin root name := by
  refine ⟨tracker.recordAll (namesIn root), fun visits enough => Walk.run_complete complete enough,
    scan_node tracker thawed (hasPlaceholder_eq_false_iff.mpr complete),
    (Tracker.recordAll_frozen ..).trans thawed, fun name => ?_⟩
  rw [Tracker.mem_recordAll, mem_namesIn_iff, or_comm]

/-! ### A tree with every kind of bearer -/

/-- The call of a property with a literal and free text, behind a conditional. -/
private def guardedCall : Node :=
  .conditional (.identifier "ready".toList)
    (.block [.expressionStatement (.call (.propertyAccess (.identifier "api".toList) "send".toList)
      [.stringLiteral "const Reply".toList, .raw "x as Foo".toList []])] [])
    none []

private theorem guardedCall_complete : guardedCall.IsComplete :=
  hasPlaceholder_eq_false_iff.mp (by decide)

theorem scan_finds_descendants_guardedCall :
    (∃ final : Tracker,
      (∀ visits, guardedCall.walk.length ≤ visits →
        Walk.run visits ⟨⟨["Old".toList], false⟩, [guardedCall]⟩ = (⟨final, []⟩, .ok ())) ∧
      Tracker.scan ⟨["Old".toList], false⟩ (.node guardedCall) = (final, .ok ()) ∧
      final.frozen = false ∧
      ∀ name, name ∈ final.names ↔ name ∈ ["Old".toList] ∨ BornWithin guardedCall name) ∧
    (Tracker.scan ⟨["Old".toList], false⟩ (.node guardedCall)).1.names =
      ["ready", "send", "api", "Reply", "Foo", "Old"].map String.toList :=
  ⟨scan_finds_descendants rfl guardedCall_complete, by decide +kernel⟩

end TypeScriptGen.Usage
