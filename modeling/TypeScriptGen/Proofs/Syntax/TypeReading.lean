import TypeScriptGen.Proofs.Syntax.TypeRegrouping

/-!
# Reading types back

A reader of type texts in which brackets bind before `keyof`, `keyof` before `&`
and `&` before `|`. It reads the text of a canonical tree as this tree, so no two
canonical trees have the same text.

Of the trees with one text, those that are grouped are the same after flattening,
and one that is not grouped differs from them. Trees of both kinds exist, since
only arrays put parentheses around operators.
-/

namespace TypeScriptGen.Node

/-! ## The reader -/

/-- Reads items with separators between them. -/
def readItems (separator : Text) (item : Text → Option (Node × Text)) :
    Nat → Text → Option (List Node × Text)
  | 0, _ => none
  | limit + 1, text => do
      let (first, rest) ← item text
      if separator.isPrefixOf rest then do
        let (others, rest) ← readItems separator item limit (rest.drop separator.length)
        pure (first :: others, rest)
      else pure ([first], rest)

/-- Parts that `part` reads, joined. -/
def readJoint (joint : Joint) (part : Text → Option (Node × Text)) (text : Text) :
    Option (Node × Text) :=
  (readItems joint.mark part (text.length + 1) text).map fun found =>
    (joint.combine found.1, found.2)

/-- A union of intersections of what `operand` reads. -/
def readType (operand : Text → Option (Node × Text)) : Text → Option (Node × Text) :=
  readJoint .union (readJoint .intersection operand)

/-- Makes arrays of a type for the pairs of brackets behind it. -/
def readBrackets : Node → Text → Node × Text
  | element, '[' :: ']' :: rest => readBrackets (.arrayType element) rest
  | element, rest => (element, rest)

/-- Reads a type in parentheses, a tuple or a name. -/
def readAtom (type : Text → Option (Node × Text)) : Text → Option (Node × Text)
  | '(' :: text =>
      match type text with
      | some (node, ')' :: rest) => some (node, rest)
      | _ => none
  | '[' :: ']' :: rest => some (.tupleType [], rest)
  | '[' :: text =>
      match readItems tupleMark type (text.length + 1) text with
      | some (elements, ']' :: rest) => some (.tupleType elements, rest)
      | _ => none
  | text =>
      let name := text.takeWhile fun c => !typeMarks.contains c
      some (typeNamed name, text.drop name.length)

/-- Reads an operand with the brackets behind it, or `keyof` and its operand. The number bounds how
deep types are nested. -/
def readOperand : Nat → Text → Option (Node × Text)
  | 0, _ => none
  | depth + 1, text =>
      if (keyofWord ++ [' ']).isPrefixOf text then
        (readOperand depth (text.drop (keyofWord ++ [' ']).length)).map fun found =>
          (.typeOperator keyofWord found.1, found.2)
      else
        (readAtom (readType (readOperand depth)) text).map fun found =>
          readBrackets found.1 found.2

/-! ## Where types end -/

/-- The text starts with a character that can follow a type, and with none of the separators. -/
structure Ends (separators : List Text) (rest : Text) : Prop where
  closed : ∀ c ∈ rest.head?, c ∈ " ,])".toList
  separate : ∀ separator ∈ separators, ¬separator <+: rest

theorem Ends.weaken {separators fewer : List Text} {rest : Text} (ends : Ends separators rest)
    (subset : fewer ⊆ separators) : Ends fewer rest :=
  ⟨ends.closed, fun separator among => ends.separate separator (subset among)⟩

section Reading

variable {node : Node} {nodes : List Node} {rest : Text}

/-- The reader reads the text of the node up to where it ends. -/
def ReadBy (separators : List Text) (reader : Text → Option (Node × Text)) (node : Node) : Prop :=
  ∀ rest, Ends separators rest → reader (typeText node ++ rest) = some (node, rest)

/-- Items that are read one by one are read together. -/
theorem readItems_eq {separator : Text} {separators : List Text}
    {item : Text → Option (Node × Text)} {limit : Nat}
    (each : ∀ node ∈ nodes, ReadBy separators item node)
    (between : ∀ text, Ends separators (separator ++ text)) (some : nodes ≠ [])
    (enough : nodes.length ≤ limit) (ends : Ends (separator :: separators) rest) :
    readItems separator item limit (separator.intercalate (nodes.map typeText) ++ rest) =
      Option.some (nodes, rest) := by
  induction nodes generalizing limit with
  | nil => exact absurd rfl some
  | cons node nodes ih =>
      obtain ⟨limit, rfl⟩ : ∃ less, limit = less + 1 := ⟨limit - 1, by simp at enough; omega⟩
      have own := each node List.mem_cons_self
      cases nodes with
      | nil =>
          have last := ends.separate separator List.mem_cons_self
          rw [← List.isPrefixOf_iff_prefix] at last
          rw [List.map_singleton, List.intercalate_singleton, readItems,
            own rest (ends.weaken (List.subset_cons_self separator separators))]
          exact (if_neg last).trans rfl
      | cons second nodes =>
          have later := ih (fun other among => each other (List.mem_cons_of_mem node among))
            (List.cons_ne_nil second nodes) (Nat.le_of_succ_le_succ enough)
          have more : separator.isPrefixOf
              (separator ++ (separator.intercalate ((second :: nodes).map typeText) ++ rest)) =
                true := List.isPrefixOf_iff_prefix.mpr (List.prefix_append _ _)
          rw [List.map_cons, List.map_cons, List.intercalate_cons_cons, ← List.map_cons,
            List.append_assoc, List.append_assoc, readItems, own _ (between _)]
          simp only [Option.bind_eq_bind, Option.bind_some, more, if_true, List.drop_left, later]
          rfl

theorem length_le_intercalate {separator : Text} (some : separator ≠ []) (texts : List Text) :
    texts.length ≤ (separator.intercalate texts).length + 1 := by
  have size := List.length_pos_iff.mpr some
  induction texts with
  | nil => exact Nat.zero_le _
  | cons text texts ih =>
      cases texts with
      | nil => exact Nat.le_add_left 1 _
      | cons next texts =>
          rw [List.intercalate_cons_cons, List.length_append, List.length_append, List.length_cons]
          omega

/-- The reader of items is given enough steps by the length of the text. -/
theorem readItems_whole {separator : Text} {separators : List Text}
    {item : Text → Option (Node × Text)} (marked : separator ≠ [])
    (each : ∀ node ∈ nodes, ReadBy separators item node)
    (between : ∀ text, Ends separators (separator ++ text)) (some : nodes ≠ [])
    (ends : Ends (separator :: separators) rest) :
    readItems separator item
        ((separator.intercalate (nodes.map typeText) ++ rest).length + 1)
        (separator.intercalate (nodes.map typeText) ++ rest) = Option.some (nodes, rest) := by
  have enough := length_le_intercalate marked (nodes.map typeText)
  rw [List.length_map] at enough
  refine readItems_eq each between some (Nat.le_trans enough ?_) ends
  rw [List.length_append]
  omega

/-- What no type goes on with. -/
def typeEnds : List Text := [Joint.union.mark, Joint.intersection.mark]

theorem ends_intersection (text : Text) : Ends [] (Joint.intersection.mark ++ text) where
  closed := by
    rintro c ⟨⟩
    decide
  separate := nofun

theorem ends_union (text : Text) :
    Ends [Joint.intersection.mark] (Joint.union.mark ++ text) where
  closed := by
    rintro c ⟨⟩
    decide
  separate := by
    intro separator among same
    rw [List.mem_singleton.mp among] at same
    obtain ⟨more, same⟩ := same
    cases same

theorem readJoint_eq (joint : Joint) {separators : List Text} {part : Text → Option (Node × Text)}
    (canonical : Canonical node) (each : ∀ inner ∈ joint.parts node, ReadBy separators part inner)
    (between : ∀ text, Ends separators (joint.mark ++ text)) :
    ReadBy (joint.mark :: separators) (readJoint joint part) node := by
  intro rest ends
  have marked : joint.mark ≠ [] := by cases joint <;> decide
  have read := readItems_whole marked each between (canonical.tree.parts joint).1 ends
  rw [joint.intercalate_parts] at read
  rw [readJoint, read, Option.map_some, canonical.combine_parts]

theorem length_le_of_mem {part : Node} (separator : Text) (among : part ∈ nodes) :
    (typeText part).length ≤ (separator.intercalate (nodes.map typeText)).length :=
  (Text.infix_intercalate separator (List.mem_map_of_mem among)).length_le

theorem length_le_of_part {joint : Joint} {part : Node} (among : part ∈ joint.parts node) :
    (typeText part).length ≤ (typeText node).length := by
  rw [← joint.intercalate_parts node]
  exact length_le_of_mem joint.mark among

/-- A type is read when the operands in it are. -/
theorem readType_of_operands {operand : Text → Option (Node × Text)} {size : Nat}
    (reads : ∀ part, Canonical part → 2 ≤ part.strength → (typeText part).length ≤ size →
      ReadBy [] operand part) (canonical : Canonical node)
    (short : (typeText node).length ≤ size) : ReadBy typeEnds (readType operand) node := by
  refine readJoint_eq .union canonical (fun part among => ?_) ends_union
  obtain ⟨whole, tight⟩ := canonical.parts .union (Nat.zero_le _) part among
  refine readJoint_eq .intersection whole (fun inner inside => ?_) ends_intersection
  obtain ⟨operand, tighter⟩ := whole.parts .intersection tight inner inside
  have shorter := Nat.le_trans (length_le_of_part inside) (length_le_of_part among)
  exact reads inner operand tighter (Nat.le_trans shorter short)

/-! ## Atoms and brackets -/

/-- The text starts with a character that no type ends before. -/
def Opens (text : Text) : Prop := ∃ c ∈ text.head?, c ∉ " ,])".toList

theorem Opens.append {text : Text} (opens : Opens text) (more : Text) : Opens (text ++ more) := by
  obtain ⟨c, first, outside⟩ := opens
  cases text with
  | nil => cases first
  | cons d text => exact ⟨c, first, outside⟩

theorem opens_intercalate (separator : Text) (some : nodes ≠ [])
    (each : ∀ node ∈ nodes, Opens (typeText node)) :
    Opens (separator.intercalate (nodes.map typeText)) := by
  obtain ⟨first, others, rfl⟩ := List.exists_cons_of_ne_nil some
  obtain ⟨more, whole⟩ :=
    Text.intercalate_isPrefix separator [typeText first] (others.map typeText)
  rw [List.intercalate_singleton, List.singleton_append] at whole
  rw [List.map_cons, ← whole]
  exact (each first List.mem_cons_self).append more

theorem TypeTree.opens (tree : TypeTree node) : Opens (typeText node) := by
  induction tree with
  | @name name simple =>
      rw [typeText_named]
      obtain ⟨c, text, rfl⟩ := List.exists_cons_of_ne_nil simple.written
      have inside : " ,])".toList ⊆ typeMarks := by decide
      refine ⟨c, rfl, fun mark => ?_⟩
      have plain := simple.plain c List.mem_cons_self
      rw [List.contains_iff_mem.mpr (inside mark)] at plain
      cases plain
  | array inner ih =>
      rw [typeText_array inner]
      split
      · exact ⟨'(', rfl, by decide⟩
      · exact ih.append _
  | joined joint several each ih =>
      rw [typeText_join]
      exact opens_intercalate _ (List.ne_nil_of_length_pos (Nat.lt_of_succ_lt several)) ih
  | tuple each ih =>
      rw [typeText_tuple]
      exact ⟨'[', rfl, by decide⟩
  | keyof inner ih =>
      rw [typeText_keyof]
      exact ⟨'k', rfl, by decide⟩

/-- A name ends at the text. -/
def Stops (rest : Text) : Prop := ∀ c ∈ rest.head?, c ∈ typeMarks

theorem Ends.stops {separators : List Text} (ends : Ends separators rest) : Stops rest := by
  have inside : " ,])".toList ⊆ typeMarks := by decide
  exact fun c first => inside (ends.closed c first)

theorem takeWhile_name {name : Text} (plain : ∀ c ∈ name, typeMarks.contains c = false)
    (stops : Stops rest) :
    (name ++ rest).takeWhile (fun c => !typeMarks.contains c) = name := by
  rw [List.takeWhile_append_of_pos fun c member => by rw [plain c member]; rfl]
  cases rest with
  | nil => simp
  | cons c rest =>
      have mark : c ∈ typeMarks := stops c rfl
      rw [List.takeWhile_cons_of_neg (by simpa using mark), List.append_nil]

theorem readAtom_name {type : Text → Option (Node × Text)} {name : Text} (simple : SimpleName name)
    (stops : Stops rest) : readAtom type (name ++ rest) = some (typeNamed name, rest) := by
  have read := takeWhile_name simple.plain stops
  obtain ⟨c, text, rfl⟩ := List.exists_cons_of_ne_nil simple.written
  have plain := simple.plain c List.mem_cons_self
  rw [List.cons_append] at read ⊢
  unfold readAtom
  split
  · next same => exact absurd ((List.cons.inj same).1 ▸ plain) (by decide)
  · next same => exact absurd ((List.cons.inj same).1 ▸ plain) (by decide)
  · next same => exact absurd ((List.cons.inj same).1 ▸ plain) (by decide)
  · rw [read]
    simp

/-- A closing mark ends types, and items in a list of them. -/
theorem ends_bracket {mark : Char} (closing : mark ∈ ")]".toList) (rest : Text) :
    Ends (tupleMark :: typeEnds) (mark :: rest) where
  closed := by
    have inside : ")]".toList ⊆ " ,])".toList := by decide
    rintro c ⟨⟩
    exact inside closing
  separate := by
    have other : ∀ separator ∈ tupleMark :: typeEnds, ∃ c ∈ separator.head?, c ∉ ")]".toList :=
      List.forall_mem_cons.mpr ⟨⟨',', rfl, by decide⟩, List.forall_mem_cons.mpr
        ⟨⟨' ', rfl, by decide⟩, List.forall_mem_singleton.mpr ⟨' ', rfl, by decide⟩⟩⟩
    rintro separator among ⟨more, same⟩
    obtain ⟨c, first, outside⟩ := other separator among
    cases separator with
    | nil => cases first
    | cons d separator =>
        cases first
        exact outside ((List.cons.inj same).1 ▸ closing)

theorem readAtom_group {type : Text → Option (Node × Text)} (read : ReadBy typeEnds type node)
    (rest : Text) : readAtom type ('(' :: (typeText node ++ ')' :: rest)) = some (node, rest) := by
  have ends := (ends_bracket (by decide : ')' ∈ _) rest).weaken (List.subset_cons_self _ typeEnds)
  rw [readAtom, read _ ends]
  rfl

theorem ends_tupleMark (text : Text) : Ends typeEnds (tupleMark ++ text) where
  closed := by
    rintro c ⟨⟩
    decide
  separate := by
    intro separator among same
    obtain ⟨more, same⟩ := same
    rcases List.mem_cons.mp among with first | second
    · rw [first] at same
      cases same
    · rw [List.mem_singleton.mp second] at same
      cases same

theorem readAtom_tuple {type : Text → Option (Node × Text)}
    (opens : ∀ node ∈ nodes, Opens (typeText node))
    (each : ∀ node ∈ nodes, ReadBy typeEnds type node) (rest : Text) :
    readAtom type (typeText (.tupleType nodes) ++ rest) = some (.tupleType nodes, rest) := by
  rw [typeText_tuple, List.cons_append, List.append_assoc, List.singleton_append]
  cases nodes with
  | nil => rfl
  | cons first others =>
      have marked : tupleMark ≠ [] := by decide
      have last := ends_bracket (by decide : ']' ∈ _) rest
      have read := readItems_whole marked each ends_tupleMark (List.cons_ne_nil _ _) last
      obtain ⟨c, first, outside⟩ :=
        (opens_intercalate tupleMark (List.cons_ne_nil _ _) opens).append (']' :: rest)
      revert read first
      generalize tupleMark.intercalate _ ++ ']' :: rest = text
      intro read first
      unfold readAtom
      split
      · next same => cases (List.cons.inj same).1
      · next same =>
          cases (List.cons.inj same).2
          cases first
          exact absurd (by decide) outside
      · next same =>
          cases (List.cons.inj same).2
          rw [read]
          rfl
      · next other => exact absurd rfl (other _)

/-- The keyword and a blank stand in front of no atom. -/
theorem not_keyof_prefix (canonical : Canonical node) (tight : 3 ≤ node.strength)
    (stops : Stops rest) : ¬keyofWord ++ [' '] <+: typeText node ++ rest := by
  induction canonical generalizing rest with
  | name simple =>
      rintro ⟨more, same⟩
      rw [typeText_named, List.append_assoc] at same
      have word : ∀ c ∈ keyofWord, typeMarks.contains c = false := Text.eq_false_of_any rfl
      have blank : Stops ([' '] ++ more) := by
        rintro c ⟨⟩
        decide
      have taken := takeWhile_name simple.plain stops
      rw [← same, takeWhile_name word blank] at taken
      exact simple.free taken.symm
  | array inner ih =>
      rw [typeText_array inner.tree]
      split
      · rintro ⟨more, same⟩
        cases same
      · next operator =>
          rw [List.append_assoc]
          exact ih (Nat.le_of_not_lt operator) (by rintro c ⟨⟩; decide)
  | joined joint several each tightly ih =>
      have low := joint.level_lt
      rw [strength_join] at tight
      omega
  | tuple each ih =>
      rw [typeText_tuple]
      rintro ⟨more, same⟩
      cases same
  | keyof inner tightly ih => simp [strength] at tight

/-- An atom is read with all the brackets behind it, those of the node and those of the rest. -/
theorem readAtom_eq {type : Text → Option (Node × Text)} (canonical : Canonical node)
    (tight : 3 ≤ node.strength)
    (reads : ∀ inner, Canonical inner → (typeText inner).length < (typeText node).length →
      ReadBy typeEnds type inner) (stops : Stops rest) :
    (readAtom type (typeText node ++ rest)).map (fun found => readBrackets found.1 found.2) =
      some (readBrackets node rest) := by
  -- the induction goes through the brackets of nested arrays; what stands inside is left to `type`
  induction canonical generalizing rest with
  | name simple => rw [typeText_named, readAtom_name simple stops, Option.map_some]
  | @array element inner ih =>
      have shorter : (typeText element).length < (typeText (.arrayType element)).length := by
        rw [typeText_array inner.tree]
        split
        · simp only [List.length_append, List.length_cons]
          omega
        · simp
      rw [typeText_array inner.tree]
      split
      · have group := readAtom_group (reads element inner shorter) ('[' :: ']' :: rest)
        simp only [List.cons_append, List.append_assoc, List.nil_append] at group ⊢
        rw [group]
        rfl
      · next operator =>
          rw [List.append_assoc]
          exact ih (Nat.le_of_not_lt operator)
            (fun inner canonical short => reads inner canonical (Nat.lt_trans short shorter))
            (by rintro c ⟨⟩; decide)
  | joined joint several each tightly ih =>
      have low := joint.level_lt
      rw [strength_join] at tight
      omega
  | @tuple elements each ih =>
      refine congrArg _ (readAtom_tuple (fun element among => (each element among).tree.opens)
        (fun element among => reads element (each element among) ?_) rest)
      have inside := length_le_of_mem tupleMark among
      rw [typeText_tuple, List.length_cons, List.length_append]
      omega
  | keyof inner tightly ih => simp [strength] at tight

/-! ## Reading what was printed -/

theorem readBrackets_ends {separators : List Text} (ends : Ends separators rest) :
    readBrackets node rest = (node, rest) := by
  unfold readBrackets
  split
  · exact absurd (ends.closed _ rfl) (by decide)
  · rfl

theorem Canonical.keyof_or_atom (canonical : Canonical node) (tight : 2 ≤ node.strength) :
    (∃ operand, node = .typeOperator keyofWord operand ∧ Canonical operand ∧
      2 ≤ operand.strength) ∨ 3 ≤ node.strength := by
  cases canonical with
  | keyof inner tightly => exact .inl ⟨_, rfl, inner, tightly⟩
  | joined joint _ _ _ => exact absurd joint.level_lt (strength_join joint _ ▸ Nat.not_lt.mpr tight)
  | name _ => exact .inr (Nat.le_refl 3)
  | array _ => exact .inr (Nat.le_refl 3)
  | tuple _ => exact .inr (Nat.le_refl 3)

/-- Below every keyword and every opening mark the text is shorter, so its length bounds the
depth. -/
theorem readOperand_eq {depth : Nat} (canonical : Canonical node) (tight : 2 ≤ node.strength)
    (short : (typeText node).length < depth) : ReadBy [] (readOperand depth) node := by
  induction depth generalizing node with
  | zero => cases short
  | succ depth ih =>
      intro rest ends
      rcases canonical.keyof_or_atom tight with ⟨operand, rfl, inner, tightly⟩ | atom
      · rw [typeText_keyof] at short ⊢
        have front : (keyofWord ++ [' ']).isPrefixOf
            (keyofWord ++ ' ' :: typeText operand ++ rest) = true := by
          rw [List.isPrefixOf_iff_prefix]
          exact ⟨typeText operand ++ rest, by simp⟩
        have dropped : (keyofWord ++ ' ' :: typeText operand ++ rest).drop
            (keyofWord ++ [' ']).length = typeText operand ++ rest := rfl
        rw [List.length_append, List.length_cons] at short
        have read := ih inner tightly (by omega) rest ends
        rw [readOperand, if_pos front, dropped, read, Option.map_some]
      · have other := not_keyof_prefix canonical atom ends.stops
        rw [← List.isPrefixOf_iff_prefix] at other
        have reads (inner : Node) (whole : Canonical inner)
            (shorter : (typeText inner).length < (typeText node).length) :
            ReadBy typeEnds (readType (readOperand depth)) inner :=
          readType_of_operands (fun part canonical tight small => ih canonical tight (by omega))
            whole (Nat.le_refl _)
        rw [readOperand, if_neg other, readAtom_eq canonical atom reads ends.stops,
          readBrackets_ends ends]

/-- The text of a canonical tree is read as this tree, and nothing is left over. -/
theorem readType_typeText (canonical : Canonical node) :
    readType (readOperand ((typeText node).length + 1)) (typeText node) = some (node, []) := by
  have read := readType_of_operands
    (fun part canonical tight small => readOperand_eq canonical tight (Nat.lt_succ_of_le small))
    canonical (Nat.le_refl _)
  have whole := read [] ⟨nofun, by decide⟩
  rwa [List.append_nil] at whole

/-- Canonical trees with the same text are the same. -/
theorem Canonical.typeText_inj {other : Node} (one : Canonical node) (two : Canonical other)
    (same : typeText node = typeText other) : node = other := by
  have read := readType_typeText one
  rw [same, readType_typeText two] at read
  exact (congrArg Prod.fst (Option.some.inj read)).symm

end Reading

/-! ## Which trees share a text -/

/-- A tree is always printed, and there is a grouped tree that is printed the same. Trees that are
printed the same as a grouped one are the same after flattening exactly when they are grouped as
well. -/
theorem flattened_eq_iff_grouped {first second : Node} (one : TypeTree first)
    (other : TypeTree second) (same : first.print = second.print) :
    (∃ text, first.print = .ok text) ∧
      (∃ reading, TypeTree reading ∧ Grouped reading ∧ reading.print = first.print) ∧
        (Grouped first → (first.flattened = second.flattened ↔ Grouped second)) := by
  obtain ⟨reading, read⟩ := one.exists_reading
  refine ⟨⟨_, one.print⟩, ⟨reading, read.canonical.tree, read.canonical.grouped, ?_⟩, ?_⟩
  · rw [read.canonical.tree.print, read.text_eq, one.print]
  · intro grouped
    have canonical := canonical_flattened one grouped
    constructor
    · intro equal
      rw [equal] at canonical
      exact (canonical_flattened_iff other).mp canonical
    · intro well
      rw [one.print, other.print] at same
      refine canonical.typeText_inj (canonical_flattened other well) ?_
      rw [one.flattened.2, other.flattened.2]
      exact Except.ok.inj same

theorem typeTree_letter {c : Char} (start : Text.isIdentifierStart c = true) :
    TypeTree (typeNamed [c]) := by
  refine .name (simpleName_of_isIdentifier ?_ nofun)
  rw [Text.isIdentifier, start]
  rfl

theorem typeTree_pair (joint : Joint) {first second : Node} (one : TypeTree first)
    (other : TypeTree second) : TypeTree (joint.join [first, second]) :=
  .joined joint (Nat.le_refl 2)
    (List.forall_mem_cons.mpr ⟨one, List.forall_mem_singleton.mpr other⟩)

/-- Unions nested on the left and on the right, with an array that needs its parentheses, are the
same after flattening. -/
theorem flattened_eq_nested_unions :
    ∃ left right : Node, left ≠ right ∧ TypeTree left ∧ TypeTree right ∧ left.print = right.print ∧
      left.print = .ok "A | B | (keyof C)[]".toList ∧ Grouped left ∧
        left.flattened = right.flattened := by
  have a : TypeTree (typeNamed ['A']) := typeTree_letter rfl
  have b : TypeTree (typeNamed ['B']) := typeTree_letter rfl
  have keys : TypeTree (.arrayType (.typeOperator keyofWord (typeNamed ['C']))) :=
    .array (.keyof (typeTree_letter rfl))
  have left := typeTree_pair .union (typeTree_pair .union a b) keys
  have right := typeTree_pair .union a (typeTree_pair .union b keys)
  have same := left.print.trans (Eq.trans rfl right.print.symm)
  have one : Grouped (Joint.union.join [Joint.union.join [typeNamed ['A'], typeNamed ['B']],
      .arrayType (.typeOperator keyofWord (typeNamed ['C']))]) := by
    simp [grouped_join, grouped_array, grouped_keyof, grouped_named, Joint.level, strength_named]
  have other : Grouped (Joint.union.join [typeNamed ['A'], Joint.union.join [typeNamed ['B'],
      .arrayType (.typeOperator keyofWord (typeNamed ['C']))]]) := by
    simp [grouped_join, grouped_array, grouped_keyof, grouped_named, Joint.level, strength_named]
  refine ⟨_, _, ?_, left, right, same, left.print, one, ?_⟩
  · simp [Joint.join, typeNamed]
  · exact ((flattened_eq_iff_grouped left right same).2.2 one).mpr other

/-- A union in an intersection is printed without parentheses, as the union whose last member is
the intersection. -/
theorem print_union_in_intersection :
    TypeTree (.intersectionType [.unionType [typeNamed ['A'], typeNamed ['B']], typeNamed ['C']]) ∧
      TypeTree (.unionType [typeNamed ['A'],
        .intersectionType [typeNamed ['B'], typeNamed ['C']]]) ∧
      print (.intersectionType [.unionType [typeNamed ['A'], typeNamed ['B']], typeNamed ['C']]) =
        .ok "A | B & C".toList ∧
      print (.unionType [typeNamed ['A'], .intersectionType [typeNamed ['B'], typeNamed ['C']]]) =
        .ok "A | B & C".toList ∧
      flattened (.intersectionType
          [.unionType [typeNamed ['A'], typeNamed ['B']], typeNamed ['C']]) ≠
        flattened (.unionType [typeNamed ['A'],
          .intersectionType [typeNamed ['B'], typeNamed ['C']]]) := by
  have a : TypeTree (typeNamed ['A']) := typeTree_letter rfl
  have b : TypeTree (typeNamed ['B']) := typeTree_letter rfl
  have c : TypeTree (typeNamed ['C']) := typeTree_letter rfl
  have left := typeTree_pair .intersection (typeTree_pair .union a b) c
  have right := typeTree_pair .union a (typeTree_pair .intersection b c)
  refine ⟨left, right, left.print, right.print, ?_⟩
  rw [flattened, flattened]
  intro same
  cases same

end TypeScriptGen.Node
