import TypeScriptGen.Proofs.Syntax.TypeTrees

/-!
# Regrouping trees of type operators

The text of a tree that is not grouped reads as a tree that is: where a union
stands in an intersection, its last alternative goes with what follows and its
first one with what is in front, and where it stands behind `keyof`, only its
first operand belongs to the keyword. So every tree has the text of a canonical
tree.
-/

namespace TypeScriptGen.Node

variable {node : Node} {nodes : List Node}

/-- The nodes joined; a single node is left as it is. -/
def Joint.combine : Joint → List Node → Node
  | _, [node] => node
  | joint, nodes => joint.join nodes

theorem typeText_combine (joint : Joint) (nodes : List Node) :
    typeText (joint.combine nodes) = joint.mark.intercalate (nodes.map typeText) := by
  match nodes with
  | [] => exact typeText_join joint []
  | [node] => exact List.intercalate_singleton.symm
  | first :: second :: rest => exact typeText_join joint _

theorem Canonical.combine (joint : Joint) (some : nodes ≠ [])
    (each : ∀ node ∈ nodes, Canonical node ∧ joint.level < node.strength) :
    Canonical (joint.combine nodes) ∧ joint.level ≤ (joint.combine nodes).strength := by
  match nodes with
  | [] => exact absurd rfl some
  | [node] =>
      obtain ⟨canonical, tight⟩ := each node List.mem_cons_self
      exact ⟨canonical, Nat.le_of_lt tight⟩
  | first :: second :: rest =>
      refine ⟨.joined joint (Nat.le_add_left 2 _) (fun node among => (each node among).1) ?_,
        Nat.le_of_eq (strength_join joint _).symm⟩
      exact fun node among => (each node among).2

/-- A canonical tree is its parts joined. -/
theorem Canonical.combine_parts (canonical : Canonical node) (joint : Joint) :
    joint.combine (joint.parts node) = node := by
  rcases joint.parts_cases node with ⟨members, rfl⟩ | ⟨_, single⟩
  · rw [joint.parts_join]
    match members, canonical.of_join.1 with
    | first :: second :: rest, _ => rfl
  · rw [single]
    rfl

theorem strength_combine_lt (joint : Joint)
    (loose : (∃ node ∈ nodes, node.strength < 3) ∨ 2 ≤ nodes.length) :
    (joint.combine nodes).strength < 3 := by
  match nodes, loose with
  | [node], .inl loose =>
      obtain ⟨_, among, loose⟩ := loose
      exact List.mem_singleton.mp among ▸ loose
  | _ :: _ :: _, _ =>
      rw [Joint.combine, strength_join]
      · exact Nat.lt_succ_of_lt joint.level_lt
      · nofun

/-- A canonical tree with the given text that has an operator at its top exactly when it should. -/
structure Reading (text : Text) (operator : Prop) (node : Node) : Prop where
  canonical : Canonical node
  text_eq : typeText node = text
  loose : node.strength < 3 ↔ operator

/-- Between other alternatives a tree with an operator at its top reads as one of them. -/
theorem Reading.between {before behind : List Node} {text : Text}
    (reading : Reading text True node) (tight : 0 < node.strength)
    (front : ∀ part ∈ before, Canonical part ∧ 0 < part.strength)
    (back : ∀ part ∈ behind, Canonical part ∧ 0 < part.strength) :
    Reading (Joint.union.mark.intercalate (before.map typeText ++ text :: behind.map typeText)) True
      (Joint.union.combine (before ++ node :: behind)) where
  canonical := by
    refine (Canonical.combine .union (by simp) fun part among => ?_).1
    rcases List.mem_append.mp among with early | late
    · exact front part early
    · rcases List.mem_cons.mp late with rfl | late
      · exact ⟨reading.canonical, tight⟩
      · exact back part late
  text_eq := by
    rw [typeText_combine, List.map_append, List.map_cons, reading.text_eq]
  loose := iff_of_true
    (strength_combine_lt .union (.inl ⟨node, by simp, reading.loose.mpr trivial⟩)) trivial

/-- Two trees that are no unions read as one with the sign of an intersection between them. -/
theorem exists_reading_operands {first second : Node} (one : Canonical first)
    (tight : 0 < first.strength) (other : Canonical second) (tightly : 0 < second.strength) :
    ∃ reading,
      Reading (typeText first ++ Joint.intersection.mark ++ typeText second) True reading ∧
        0 < reading.strength := by
  have left := (one.tree.parts .intersection).1
  have right := (other.tree.parts .intersection).1
  have several := Nat.add_le_add (List.length_pos_iff.mpr left) (List.length_pos_iff.mpr right)
  rw [← List.length_append] at several
  obtain ⟨canonical, tight⟩ := Canonical.combine .intersection
    (List.append_ne_nil_of_left_ne_nil left (Joint.intersection.parts second)) fun part among =>
      (List.mem_append.mp among).elim (one.parts .intersection tight part)
        (other.parts .intersection tightly part)
  refine ⟨_, ⟨canonical, ?_, iff_of_true ?_ trivial⟩, tight⟩
  · rw [typeText_combine, List.map_append, Text.intercalate_append _ (by simpa using left)
      (by simpa using right), Joint.intercalate_parts, Joint.intercalate_parts]
  · exact strength_combine_lt .intersection (.inr several)

/-- The operator in front of a tree that is no union belongs to its first operand. -/
theorem exists_reading_applied (canonical : Canonical node) (tight : 0 < node.strength) :
    ∃ reading, Reading (keyofWord ++ [' '] ++ typeText node) True reading ∧
      0 < reading.strength := by
  obtain ⟨head, back, parts⟩ := List.exists_cons_of_ne_nil (canonical.tree.parts .intersection).1
  have all := canonical.parts .intersection tight
  rw [parts, List.forall_mem_cons] at all
  have applied : Canonical (.typeOperator keyofWord head) ∧
      Joint.intersection.level < (typeOperator keyofWord head).strength :=
    ⟨.keyof all.1.1 all.1.2, Joint.intersection.level_lt⟩
  have operator : (typeOperator keyofWord head).strength < 3 := (by decide : 2 < 3)
  obtain ⟨combined, tight⟩ := Canonical.combine .intersection
    (List.cons_ne_nil (.typeOperator keyofWord head) back)
    (List.forall_mem_cons.mpr ⟨applied, all.2⟩)
  refine ⟨_, ⟨combined, ?_, iff_of_true ?_ trivial⟩, tight⟩
  · rw [typeText_combine, List.map_cons, typeText_keyof, List.append_cons,
      Text.intercalate_cons_append, ← List.map_cons, ← parts, Joint.intercalate_parts]
  · exact strength_combine_lt .intersection (.inl ⟨_, List.mem_cons_self, operator⟩)

/-- Two canonical trees with the sign of an intersection between them read as one: the last
alternative of the first and the first one of the second belong together. -/
theorem exists_reading_meet {first second : Node} (one : Canonical first)
    (other : Canonical second) :
    ∃ reading,
      Reading (typeText first ++ Joint.intersection.mark ++ typeText second) True reading := by
  obtain ⟨before, last, front⟩ :=
    (List.eq_nil_or_concat (Joint.union.parts first)).resolve_left (one.tree.parts .union).1
  obtain ⟨next, behind, back⟩ := List.exists_cons_of_ne_nil (other.tree.parts .union).1
  have left := one.parts .union (Nat.zero_le _)
  have right := other.parts .union (Nat.zero_le _)
  rw [List.concat_eq_append] at front
  rw [front, List.forall_mem_append, List.forall_mem_singleton] at left
  rw [back, List.forall_mem_cons] at right
  obtain ⟨met, reading, tight⟩ :=
    exists_reading_operands left.2.1 left.2.2 right.1.1 right.1.2
  have whole := reading.between tight left.1 right.2
  rw [Text.intercalate_meeting] at whole
  rw [← Joint.union.intercalate_parts first, ← Joint.union.intercalate_parts second, front, back,
    List.map_append, List.map_singleton, List.map_cons]
  exact ⟨_, whole⟩

/-- The operator in front of a canonical tree belongs to its first alternative. -/
theorem exists_reading_keyof (canonical : Canonical node) :
    ∃ reading, Reading (keyofWord ++ ' ' :: typeText node) True reading := by
  obtain ⟨first, rest, parts⟩ := List.exists_cons_of_ne_nil (canonical.tree.parts .union).1
  have each := canonical.parts .union (Nat.zero_le _)
  rw [parts, List.forall_mem_cons] at each
  obtain ⟨applied, reading, tight⟩ := exists_reading_applied each.1.1 each.1.2
  have none : ∀ part ∈ [], Canonical part ∧ 0 < part.strength := nofun
  have whole := reading.between tight none each.2
  rw [List.map_nil, List.nil_append, Text.intercalate_cons_append, ← List.map_cons, ← parts,
    Joint.intercalate_parts, List.append_assoc, List.singleton_append] at whole
  exact ⟨_, whole⟩

/-- Canonical trees with the signs of intersections between them read as one. -/
theorem exists_reading_intersection {first : Node} (canonical : Canonical first)
    (some : nodes ≠ []) (each : ∀ node ∈ nodes, Canonical node) :
    ∃ reading,
      Reading (Joint.intersection.mark.intercalate ((first :: nodes).map typeText)) True
        reading := by
  induction nodes generalizing first with
  | nil => exact absurd rfl some
  | cons second rest ih =>
      have next := each second List.mem_cons_self
      rw [List.map_cons, List.map_cons, List.intercalate_cons_cons]
      cases rest with
      | nil =>
          rw [List.map_nil, List.intercalate_singleton]
          exact exists_reading_meet canonical next
      | cons third rest =>
          obtain ⟨reading, same⟩ := ih next (List.cons_ne_nil third rest) fun node among =>
            each node (List.mem_cons_of_mem second among)
          rw [← List.map_cons, ← same.text_eq]
          exact exists_reading_meet canonical same.canonical

theorem exists_readings
    (each : ∀ node ∈ nodes, ∃ reading, Reading (typeText node) (node.strength < 3) reading) :
    ∃ readings : List Node, (∀ reading ∈ readings, Canonical reading) ∧
      readings.map typeText = nodes.map typeText := by
  induction nodes with
  | nil => exact ⟨[], nofun, rfl⟩
  | cons node nodes ih =>
      obtain ⟨reading, own⟩ := each node List.mem_cons_self
      obtain ⟨readings, canonical, same⟩ := ih fun other among =>
        each other (List.mem_cons_of_mem node among)
      refine ⟨reading :: readings, List.forall_mem_cons.mpr ⟨own.canonical, canonical⟩, ?_⟩
      rw [List.map_cons, List.map_cons, own.text_eq, same]

/-- Every tree has the text of a canonical tree. -/
theorem TypeTree.exists_reading (tree : TypeTree node) :
    ∃ reading, Reading (typeText node) (node.strength < 3) reading := by
  induction tree with
  | name simple => exact ⟨_, .name simple, rfl, Iff.rfl⟩
  | @array element inner ih =>
      obtain ⟨reading, same⟩ := ih
      refine ⟨.arrayType reading, .array same.canonical, ?_, Iff.rfl⟩
      rw [typeText_array same.canonical.tree, typeText_array inner, same.text_eq]
      simp only [same.loose]
  | @joined joint members several each ih =>
      obtain ⟨readings, canonical, same⟩ := exists_readings ih
      have size := congrArg List.length same
      rw [List.length_map, List.length_map] at size
      rw [← size] at several
      have text : typeText (joint.join members) = typeText (joint.join readings) := by
        rw [typeText_join, typeText_join, same]
      cases joint with
      | union =>
          refine ⟨_, .join_parts .union several fun reading among =>
            ⟨canonical reading among, Nat.zero_le _⟩, ?_, Iff.rfl⟩
          rw [(TypeTree.join_parts .union several fun reading among =>
            (canonical reading among).tree).2, text]
      | intersection =>
          rw [text, typeText_join]
          match readings, several with
          | first :: second :: rest, _ =>
              obtain ⟨own, others⟩ := List.forall_mem_cons.mp canonical
              obtain ⟨reading, read⟩ :=
                exists_reading_intersection own (List.cons_ne_nil _ _) others
              exact ⟨reading, read.canonical, read.text_eq, read.loose.trans
                (iff_of_true trivial (by decide : 1 < 3))⟩
  | tuple each ih =>
      obtain ⟨readings, canonical, same⟩ := exists_readings ih
      refine ⟨.tupleType readings, .tuple canonical, ?_, Iff.rfl⟩
      rw [typeText_tuple, typeText_tuple, same]
  | @keyof operand inner ih =>
      obtain ⟨reading, same⟩ := ih
      rw [typeText_keyof, ← same.text_eq]
      obtain ⟨reading, read⟩ := exists_reading_keyof same.canonical
      exact ⟨reading, read.canonical, read.text_eq, read.loose.trans
        (iff_of_true trivial (by decide : 2 < 3))⟩

end TypeScriptGen.Node
