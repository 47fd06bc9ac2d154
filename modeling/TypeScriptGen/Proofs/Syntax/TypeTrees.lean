import TypeScriptGen.Proofs.Outcome.Steps
import TypeScriptGen.Proofs.Text.Laying
import TypeScriptGen.Proofs.Usage.Walking
import TypeScriptGen.Syntax.Printer
import TypeScriptGen.Text.Word

/-!
# Trees of type operators

Trees of names, arrays, tuples, `keyof`, intersections and unions, which bind in
this order. A tree is printed as its text, where only the element of an array gets
parentheses; a tree is grouped when no other operator would need them.

Flattening takes unions out of unions and intersections out of intersections and
keeps the text. The flattened form of a tree is canonical, with every operand of
an operator binding as tightly as the operator asks for, exactly when the tree is
grouped.
-/

namespace TypeScriptGen.Node

/-! ## Trees -/

/-- The characters around the operands of operators. -/
def typeMarks : List Char := " ,[]()".toList

def keyofWord : Text := "keyof".toList

/-- A name without marks that is not the operator. -/
structure SimpleName (name : Text) : Prop where
  written : name ≠ []
  plain : ∀ c ∈ name, typeMarks.contains c = false
  free : name ≠ keyofWord

theorem simpleName_of_isIdentifier {name : Text} (identifier : Text.isIdentifier name = true)
    (free : name ≠ keyofWord) : SimpleName name := by
  refine ⟨?_, fun c member => ?_, free⟩
  · rintro rfl
    cases identifier
  · have outside : ∀ c ∈ typeMarks, Text.isReferencePart c = false := Text.eq_false_of_any rfl
    have part := Text.solid_of_isIdentifier identifier c member
    cases mark : typeMarks.contains c with
    | false => rfl
    | true =>
        rw [outside c (List.contains_iff_mem.mp mark)] at part
        cases part

/-- A reference without arguments. -/
def typeNamed (name : Text) : Node := .typeReference (.identifier name) []

/-- What joins several types to one. -/
inductive Joint
  | union
  | intersection

def Joint.join : Joint → List Node → Node
  | .union => .unionType
  | .intersection => .intersectionType

/-- A tree of type operators over simple names. -/
inductive TypeTree : Node → Prop
  | name {name : Text} (simple : SimpleName name) : TypeTree (typeNamed name)
  | array {element : Node} (inner : TypeTree element) : TypeTree (.arrayType element)
  | joined (joint : Joint) {members : List Node} (several : 2 ≤ members.length)
      (each : ∀ member ∈ members, TypeTree member) : TypeTree (joint.join members)
  | tuple {elements : List Node} (each : ∀ element ∈ elements, TypeTree element) :
      TypeTree (.tupleType elements)
  | keyof {operand : Node} (inner : TypeTree operand) : TypeTree (.typeOperator keyofWord operand)

theorem Joint.join_inj {joint other : Joint} {members more : List Node}
    (same : joint.join members = other.join more) : joint = other ∧ members = more := by
  cases joint <;> cases other <;> cases same <;> exact ⟨rfl, rfl⟩

theorem TypeTree.of_join {joint : Joint} {members : List Node}
    (tree : TypeTree (joint.join members)) :
    2 ≤ members.length ∧ ∀ member ∈ members, TypeTree member := by
  generalize same : joint.join members = node at tree
  cases tree with
  | joined other several each =>
      obtain ⟨rfl, rfl⟩ := Joint.join_inj same
      exact ⟨several, each⟩
  | _ => cases joint <;> cases same

/-! ## The text of a tree -/

def Joint.mark : Joint → Text
  | .union => " | ".toList
  | .intersection => " & ".toList

def tupleMark : Text := ", ".toList

mutual

/-- What a tree is printed as. -/
def typeText : Node → Text
  | .typeReference name _ => Printer.nameText name
  | .arrayType element => Printer.grouped element (typeText element) ++ ['[', ']']
  | .unionType members => Joint.union.mark.intercalate (typeTexts members)
  | .intersectionType members => Joint.intersection.mark.intercalate (typeTexts members)
  | .tupleType elements => '[' :: tupleMark.intercalate (typeTexts elements) ++ [']']
  | .typeOperator operator operand => operator ++ ' ' :: typeText operand
  | _ => []

def typeTexts : List Node → List Text
  | [] => []
  | node :: nodes => typeText node :: typeTexts nodes

end

theorem typeTexts_eq (nodes : List Node) : typeTexts nodes = nodes.map typeText := by
  induction nodes with
  | nil => rw [typeTexts, List.map_nil]
  | cons node nodes ih => rw [typeTexts, ih, List.map_cons]

theorem typeText_named (name : Text) : typeText (typeNamed name) = name := by
  rw [typeNamed, typeText]
  exact List.intercalate_singleton

theorem typeText_join (joint : Joint) (members : List Node) :
    typeText (joint.join members) = joint.mark.intercalate (members.map typeText) := by
  cases joint <;> rw [Joint.join, typeText, typeTexts_eq]

theorem typeText_tuple (elements : List Node) :
    typeText (.tupleType elements) =
      '[' :: (tupleMark.intercalate (elements.map typeText) ++ [']']) := by
  rw [typeText, typeTexts_eq, List.cons_append]

theorem typeText_keyof (operand : Node) :
    typeText (.typeOperator keyofWord operand) = keyofWord ++ ' ' :: typeText operand := by
  rw [typeText]

section Printing

variable {printer : Printer} {node : Node} {nodes : List Node}

/-- The node is printed as its text, with nothing above it. -/
structure Printed (printer : Printer) (node : Node) : Prop where
  bare : printer.bare node = .ok (typeText node)
  uncommented : node.leadingComment = []

theorem Printed.withComment (printed : Printed printer node) (text : Text) :
    node.withComment text = text := by
  rw [Node.withComment, printed.uncommented]
  rfl

theorem printAll_typeTexts (each : ∀ node ∈ nodes, Printed printer node) :
    printer.printAll nodes = .ok (nodes.map typeText) := by
  induction nodes with
  | nil => rfl
  | cons node nodes ih =>
      have own := each node List.mem_cons_self
      have rest := ih fun other member => each other (List.mem_cons_of_mem node member)
      rw [List.map_cons, ← own.withComment (typeText node)]
      exact (bind_ok own.bare).trans (bind_ok rest)

/-- Trees are always printed, and as their texts. -/
theorem TypeTree.printed (tree : TypeTree node) (printer : Printer) : Printed printer node := by
  induction tree with
  | name simple =>
      refine ⟨?_, rfl⟩
      rw [typeText_named]
      change Except.ok (['.'].intercalate [_] ++ []) = _
      rw [List.intercalate_singleton, List.append_nil]
  | array inner ih =>
      refine ⟨(bind_ok ih.bare).trans ?_, rfl⟩
      rw [ih.withComment, typeText]
      rfl
  | joined joint several each ih =>
      have all := printAll_typeTexts ih
      rw [← typeTexts_eq] at all
      cases joint with
      | union => exact ⟨bind_ok all, rfl⟩
      | intersection => exact ⟨bind_ok all, rfl⟩
  | tuple each ih =>
      exact ⟨(bind_ok (printAll_typeTexts ih)).trans (congrArg _ (typeText_tuple _).symm), rfl⟩
  | keyof inner ih =>
      refine ⟨(bind_ok ih.bare).trans ?_, rfl⟩
      rw [ih.withComment, typeText_keyof]
      rfl

theorem TypeTree.print (tree : TypeTree node) : node.print = .ok (typeText node) := by
  have printed := tree.printed .standard
  exact (bind_ok printed.bare).trans (congrArg Except.ok (printed.withComment _))

end Printing

/-! ## Binding -/

/-- How tightly a tree holds together: unions least, then intersections, then `keyof`. -/
def strength : Node → Nat
  | .unionType _ => 0
  | .intersectionType _ => 1
  | .typeOperator _ _ => 2
  | _ => 3

def Joint.level : Joint → Nat
  | .union => 0
  | .intersection => 1

theorem Joint.level_lt (joint : Joint) : joint.level < 2 := by
  cases joint <;> decide

theorem strength_named (name : Text) : (typeNamed name).strength = 3 := rfl

theorem strength_join (joint : Joint) (members : List Node) :
    (joint.join members).strength = joint.level := by
  cases joint <;> rfl

/-- Nowhere is `keyof`, an intersection or a union applied to a tree that binds less tightly than
itself. -/
def Grouped (root : Node) : Prop :=
  ∀ outer inner : Node, outer.Within root → inner ∈ outer.children →
    outer.strength < 3 → outer.strength ≤ inner.strength

theorem grouped_iff {root : Node} :
    Grouped root ↔
      (root.strength < 3 → ∀ child ∈ root.children, root.strength ≤ child.strength) ∧
        ∀ child ∈ root.children, Grouped child := by
  constructor
  · intro grouped
    refine ⟨fun operator child among => grouped root child .here among operator, ?_⟩
    intro child among outer inner within
    exact grouped outer inner (within.trans (.child among))
  · rintro ⟨own, below⟩ outer inner within among operator
    cases within with
    | here => exact own operator inner among
    | deeper first within => exact below _ first outer inner within among operator

theorem grouped_named (name : Text) : Grouped (typeNamed name) := by
  refine grouped_iff.mpr ⟨nofun, fun child among => ?_⟩
  rw [List.mem_singleton.mp among]
  exact grouped_iff.mpr ⟨nofun, nofun⟩

theorem grouped_array {element : Node} : Grouped (.arrayType element) ↔ Grouped element := by
  refine grouped_iff.trans ⟨fun both => both.2 element List.mem_cons_self, fun inner => ?_⟩
  exact ⟨nofun, List.forall_mem_singleton.mpr inner⟩

theorem grouped_join {joint : Joint} {members : List Node} :
    Grouped (joint.join members) ↔
      ∀ member ∈ members, Grouped member ∧ joint.level ≤ member.strength := by
  have children : (joint.join members).children = members := by cases joint <;> rfl
  have operator : joint.level < 3 := Nat.lt_of_lt_of_le joint.level_lt (by decide)
  rw [grouped_iff, children, strength_join]
  constructor
  · rintro ⟨tight, below⟩ member among
    exact ⟨below member among, tight operator member among⟩
  · intro each
    exact ⟨fun _ member among => (each member among).2, fun member among => (each member among).1⟩

theorem grouped_tuple {elements : List Node} :
    Grouped (.tupleType elements) ↔ ∀ element ∈ elements, Grouped element :=
  grouped_iff.trans ⟨And.right, fun each => ⟨nofun, each⟩⟩

theorem grouped_keyof {operator : Text} {operand : Node} :
    Grouped (.typeOperator operator operand) ↔ Grouped operand ∧ 2 ≤ operand.strength := by
  refine grouped_iff.trans ⟨fun both => ?_, fun both => ?_⟩
  · exact ⟨both.2 operand List.mem_cons_self, both.1 (by decide : 2 < 3) operand List.mem_cons_self⟩
  · exact ⟨fun _ => List.forall_mem_singleton.mpr both.2, List.forall_mem_singleton.mpr both.1⟩

theorem needsGroup_iff {node : Node} (tree : TypeTree node) (text : Text) :
    Printer.needsGroup node text = true ↔ node.strength < 3 := by
  cases tree with
  | joined joint several each => cases joint <;> simp [Printer.needsGroup, strength, Joint.join]
  | _ => simp [Printer.needsGroup, strength, typeNamed]

/-- The element of an array gets parentheses when an operator stands at its top. -/
theorem typeText_array {element : Node} (tree : TypeTree element) :
    typeText (.arrayType element) =
      (if element.strength < 3 then '(' :: typeText element ++ [')'] else typeText element) ++
        ['[', ']'] := by
  rw [typeText, Printer.grouped]
  simp only [needsGroup_iff tree]

/-! ## Parts -/

/-- The nodes that are joined at the top of a node; where nothing is joined so, the node itself. -/
def Joint.parts : Joint → Node → List Node
  | .union, .unionType members => members
  | .intersection, .intersectionType members => members
  | _, node => [node]

section Parts

variable {joint : Joint} {node : Node} {nodes : List Node}

theorem Joint.parts_join (joint : Joint) (members : List Node) :
    joint.parts (joint.join members) = members := by
  cases joint <;> rfl

theorem Joint.parts_cases (joint : Joint) (node : Node) :
    (∃ members, node = joint.join members) ∨
      node.strength ≠ joint.level ∧ joint.parts node = [node] := by
  cases joint with
  | union =>
      cases node with
      | unionType members => exact .inl ⟨members, rfl⟩
      | _ => exact .inr ⟨nofun, rfl⟩
  | intersection =>
      cases node with
      | intersectionType members => exact .inl ⟨members, rfl⟩
      | _ => exact .inr ⟨nofun, rfl⟩

theorem Joint.intercalate_parts (joint : Joint) (node : Node) :
    joint.mark.intercalate ((joint.parts node).map typeText) = typeText node := by
  rcases joint.parts_cases node with ⟨members, rfl⟩ | ⟨_, single⟩
  · rw [joint.parts_join, typeText_join]
  · rw [single]
    exact List.intercalate_singleton

theorem TypeTree.parts (tree : TypeTree node) (joint : Joint) :
    joint.parts node ≠ [] ∧ ∀ part ∈ joint.parts node, TypeTree part := by
  rcases joint.parts_cases node with ⟨members, rfl⟩ | ⟨_, single⟩
  · obtain ⟨several, each⟩ := tree.of_join
    rw [joint.parts_join]
    exact ⟨List.ne_nil_of_length_pos (Nat.lt_of_succ_lt several), each⟩
  · rw [single]
    exact ⟨List.cons_ne_nil _ _, List.forall_mem_singleton.mpr tree⟩

/-- Items with parts have at least as many parts as they are. -/
theorem length_le_flatMap {parts : Node → List Node} (some : ∀ node ∈ nodes, parts node ≠ []) :
    nodes.length ≤ (nodes.flatMap parts).length := by
  induction nodes with
  | nil => exact Nat.zero_le _
  | cons node nodes ih =>
      have own := List.length_pos_iff.mpr (some node List.mem_cons_self)
      have rest := ih fun other member => some other (List.mem_cons_of_mem node member)
      rw [List.flatMap_cons, List.length_append, List.length_cons]
      omega

/-- Joining the parts of several trees gives a tree with the text of the trees joined. -/
theorem TypeTree.join_parts (joint : Joint) (several : 2 ≤ nodes.length)
    (each : ∀ node ∈ nodes, TypeTree node) :
    TypeTree (joint.join (nodes.flatMap joint.parts)) ∧
      typeText (joint.join (nodes.flatMap joint.parts)) = typeText (joint.join nodes) := by
  constructor
  · have more := length_le_flatMap fun node among => ((each node among).parts joint).1
    refine .joined joint (Nat.le_trans several more) fun part among => ?_
    obtain ⟨node, own, inside⟩ := List.mem_flatMap.mp among
    exact ((each node own).parts joint).2 part inside
  · rw [typeText_join, typeText_join, List.map_flatMap]
    refine Text.intercalate_flatMap (fun node among => ?_) fun node _ =>
      joint.intercalate_parts node
    exact mt List.map_eq_nil_iff.mp ((each node among).parts joint).1

end Parts

/-! ## Flattening -/

mutual

/-- The tree with unions taken out of unions and intersections out of intersections. -/
def flattened : Node → Node
  | .arrayType element => .arrayType (flattened element)
  | .unionType members => .unionType ((flattenedAll members).flatMap Joint.union.parts)
  | .intersectionType members =>
      .intersectionType ((flattenedAll members).flatMap Joint.intersection.parts)
  | .tupleType elements => .tupleType (flattenedAll elements)
  | .typeOperator operator operand => .typeOperator operator (flattened operand)
  | node => node

def flattenedAll : List Node → List Node
  | [] => []
  | node :: nodes => flattened node :: flattenedAll nodes

end

theorem flattenedAll_eq (nodes : List Node) : flattenedAll nodes = nodes.map flattened := by
  induction nodes with
  | nil => rw [flattenedAll, List.map_nil]
  | cons node nodes ih => rw [flattenedAll, ih, List.map_cons]

theorem flattened_named (name : Text) : flattened (typeNamed name) = typeNamed name := by
  rw [typeNamed, flattened]
  all_goals nofun

theorem flattened_join (joint : Joint) (members : List Node) :
    flattened (joint.join members) = joint.join ((members.map flattened).flatMap joint.parts) := by
  cases joint <;> rw [Joint.join, flattened, flattenedAll_eq]

theorem flattened_tuple (elements : List Node) :
    flattened (.tupleType elements) = .tupleType (elements.map flattened) := by
  rw [flattened, flattenedAll_eq]

theorem strength_flattened (node : Node) : (flattened node).strength = node.strength := by
  cases node <;> simp only [flattened] <;> rfl

/-- Flattening keeps trees and changes no text. -/
theorem TypeTree.flattened {node : Node} (tree : TypeTree node) :
    TypeTree node.flattened ∧ typeText node.flattened = typeText node := by
  induction tree with
  | name simple =>
      rw [flattened_named]
      exact ⟨.name simple, rfl⟩
  | array inner ih =>
      refine ⟨.array ih.1, ?_⟩
      rw [Node.flattened, typeText_array ih.1, typeText_array inner, ih.2, strength_flattened]
  | joined joint several each ih =>
      rw [flattened_join]
      obtain ⟨tree, same⟩ := TypeTree.join_parts joint ((List.length_map _).symm ▸ several)
        (List.forall_mem_map.mpr fun member among => (ih member among).1)
      refine ⟨tree, same.trans ?_⟩
      rw [typeText_join, typeText_join, List.map_map]
      exact congrArg _ (List.map_congr_left fun member among => (ih member among).2)
  | tuple each ih =>
      have same := List.map_congr_left fun element among => (ih element among).2
      rw [flattened_tuple, typeText_tuple, typeText_tuple, List.map_map]
      refine ⟨.tuple (List.forall_mem_map.mpr fun element among => (ih element among).1), ?_⟩
      exact congrArg (fun texts => '[' :: (tupleMark.intercalate texts ++ [']'])) same
  | keyof inner ih =>
      refine ⟨.keyof ih.1, ?_⟩
      rw [Node.flattened, typeText_keyof, typeText_keyof, ih.2]

/-! ## Canonical trees -/

/-- A tree whose operators are applied to operands that bind as tightly as the operators ask for.
-/
inductive Canonical : Node → Prop
  | name {name : Text} (simple : SimpleName name) : Canonical (typeNamed name)
  | array {element : Node} (inner : Canonical element) : Canonical (.arrayType element)
  | joined (joint : Joint) {members : List Node} (several : 2 ≤ members.length)
      (each : ∀ member ∈ members, Canonical member)
      (tight : ∀ member ∈ members, joint.level < member.strength) : Canonical (joint.join members)
  | tuple {elements : List Node} (each : ∀ element ∈ elements, Canonical element) :
      Canonical (.tupleType elements)
  | keyof {operand : Node} (inner : Canonical operand) (tight : 2 ≤ operand.strength) :
      Canonical (.typeOperator keyofWord operand)

namespace Canonical

variable {joint : Joint} {node : Node} {nodes : List Node}

theorem of_join {members : List Node} (canonical : Canonical (joint.join members)) :
    2 ≤ members.length ∧ ∀ member ∈ members, Canonical member ∧ joint.level < member.strength := by
  generalize same : joint.join members = node at canonical
  cases canonical with
  | joined other several each tight =>
      obtain ⟨rfl, rfl⟩ := Joint.join_inj same
      exact ⟨several, fun member among => ⟨each member among, tight member among⟩⟩
  | _ => cases joint <;> cases same

theorem tree (canonical : Canonical node) : TypeTree node := by
  induction canonical with
  | name simple => exact .name simple
  | array inner ih => exact .array ih
  | joined joint several each tight ih => exact .joined joint several ih
  | tuple each ih => exact .tuple ih
  | keyof inner tight ih => exact .keyof ih

theorem grouped (canonical : Canonical node) : Grouped node := by
  induction canonical with
  | name simple => exact grouped_named _
  | array inner ih => exact grouped_array.mpr ih
  | joined joint several each tight ih =>
      exact grouped_join.mpr fun member among =>
        ⟨ih member among, Nat.le_of_lt (tight member among)⟩
  | tuple each ih => exact grouped_tuple.mpr ih
  | keyof inner tight ih => exact grouped_keyof.mpr ⟨ih, tight⟩

/-- The parts of a canonical tree bind more tightly than what joins them. -/
theorem parts (canonical : Canonical node) (joint : Joint) (tight : joint.level ≤ node.strength) :
    ∀ part ∈ joint.parts node, Canonical part ∧ joint.level < part.strength := by
  rcases joint.parts_cases node with ⟨members, rfl⟩ | ⟨other, single⟩
  · rw [joint.parts_join]
    exact canonical.of_join.2
  · rw [single]
    exact List.forall_mem_singleton.mpr ⟨canonical, Nat.lt_of_le_of_ne tight other.symm⟩

theorem join_parts (joint : Joint) (several : 2 ≤ nodes.length)
    (each : ∀ node ∈ nodes, Canonical node ∧ joint.level ≤ node.strength) :
    Canonical (joint.join (nodes.flatMap joint.parts)) := by
  have more := length_le_flatMap fun node among => ((each node among).1.tree.parts joint).1
  have parts : ∀ part ∈ nodes.flatMap joint.parts,
      Canonical part ∧ joint.level < part.strength := by
    intro part among
    obtain ⟨node, own, inside⟩ := List.mem_flatMap.mp among
    exact (each node own).1.parts joint (each node own).2 part inside
  exact .joined joint (Nat.le_trans several more) (fun part among => (parts part among).1)
    fun part among => (parts part among).2

end Canonical

section Flattening

variable {node : Node}

theorem canonical_flattened (tree : TypeTree node) (grouped : Grouped node) :
    Canonical node.flattened := by
  induction tree with
  | name simple => exact flattened_named _ ▸ .name simple
  | array inner ih => exact .array (ih (grouped_array.mp grouped))
  | joined joint several each ih =>
      rw [grouped_join] at grouped
      rw [flattened_join]
      refine .join_parts joint ((List.length_map _).symm ▸ several)
        (List.forall_mem_map.mpr fun member among => ?_)
      rw [strength_flattened]
      exact ⟨ih member among (grouped member among).1, (grouped member among).2⟩
  | tuple each ih =>
      rw [grouped_tuple] at grouped
      rw [flattened_tuple]
      exact .tuple (List.forall_mem_map.mpr fun element among =>
        ih element among (grouped element among))
  | keyof inner ih =>
      obtain ⟨whole, tight⟩ := grouped_keyof.mp grouped
      exact .keyof (ih whole) ((strength_flattened _).symm ▸ tight)

theorem grouped_of_parts {joint : Joint}
    (each : ∀ part ∈ joint.parts node, Grouped part ∧ joint.level ≤ part.strength) :
    Grouped node ∧ joint.level ≤ node.strength := by
  rcases joint.parts_cases node with ⟨members, rfl⟩ | ⟨_, single⟩
  · rw [joint.parts_join] at each
    exact ⟨grouped_join.mpr each, Nat.le_of_eq (strength_join joint members).symm⟩
  · rw [single] at each
    exact each node List.mem_cons_self

/-- Flattening hides no operator that is applied to one binding less tightly. -/
theorem grouped_of_flattened (tree : TypeTree node) (grouped : Grouped node.flattened) :
    Grouped node := by
  induction tree with
  | name simple => exact grouped_named _
  | array inner ih => exact grouped_array.mpr (ih (grouped_array.mp grouped))
  | joined joint several each ih =>
      rw [flattened_join, grouped_join] at grouped
      refine grouped_join.mpr fun member among => ?_
      obtain ⟨whole, tight⟩ := grouped_of_parts fun part inside =>
        grouped part (List.mem_flatMap.mpr ⟨_, List.mem_map_of_mem among, inside⟩)
      exact ⟨ih member among whole, strength_flattened member ▸ tight⟩
  | tuple each ih =>
      rw [flattened_tuple, grouped_tuple] at grouped
      refine grouped_tuple.mpr fun element among => ih element among ?_
      exact grouped _ (List.mem_map_of_mem among)
  | @keyof operand inner ih =>
      rw [Node.flattened, grouped_keyof] at grouped
      exact grouped_keyof.mpr ⟨ih grouped.1, strength_flattened operand ▸ grouped.2⟩

/-- The flattened form is canonical exactly for grouped trees. -/
theorem canonical_flattened_iff (tree : TypeTree node) :
    Canonical node.flattened ↔ Grouped node :=
  ⟨fun canonical => grouped_of_flattened tree canonical.grouped, canonical_flattened tree⟩

end Flattening

end TypeScriptGen.Node
