import TypeScriptGen.Proofs.Outcome.Steps
import TypeScriptGen.Proofs.Syntax.OutlineParts
import TypeScriptGen.Proofs.Text.Laying
import TypeScriptGen.Proofs.Usage.Walking

/-!
# Nested statements

The statements of a body or clause and the clauses of a switch stand one level
deeper than the node that holds them: the lines of their printed form, each moved
to the right, stand one below the other in the printed form of that node. So what
is nested over several levels stands there with its lines moved by all of them.
-/

namespace TypeScriptGen

/-! ## Moved lines -/

namespace Text

def indentedLines (margin : Nat) (text : Text) : List Text :=
  (splitOn '\n' text).map (indentLine margin)

theorem indentedLines_map (outer inner : Nat) (text : Text) :
    (indentedLines inner text).map (indentLine outer) = indentedLines (outer + inner) text := by
  rw [indentedLines, List.map_map, indentLine_comp]
  rfl

/-- The lines stand one below the other in the text, below its first line. -/
def Below (lines : List Text) (text : Text) : Prop := lines <:+: (splitOn '\n' text).tail

variable {lines texts : List Text} {text : Text}

theorem Below.isInfix (below : Below lines text) : lines <:+: splitOn '\n' text :=
  below.trans (List.tail_suffix _).isInfix

theorem Below.behind (below : Below lines text) (front : Text) : Below lines (front ++ text) := by
  obtain ⟨next, behind, starts⟩ := Outline.exists_lines text
  obtain ⟨before, last, ends⟩ :=
    (List.eq_nil_or_concat (splitOn '\n' front)).resolve_left (splitWhere_ne_nil _ front)
  rw [List.concat_eq_append] at ends
  rw [Below, starts, List.tail_cons] at below
  rw [Below, splitOn_append ends starts]
  cases before with
  | nil => exact below
  | cons line before => exact List.infix_append_of_infix_right (List.infix_cons below)

theorem splitOn_body (printer : Printer) (texts : List Text) :
    splitOn '\n' (printer.body texts) =
      ['\x7b'] :: (texts.flatMap (indentedLines printer.margin) ++ [['\x7d']]) := by
  have lines : (texts.map (indentBy printer.margin)).flatMap (splitOn '\n') =
      texts.flatMap (indentedLines printer.margin) := by
    rw [List.flatMap_map]
    exact List.flatMap_congr fun text _ => splitOn_indentBy printer.margin text
  rw [Printer.body, Outline.braced_eq, Outline.splitOn_below, List.flatMap_append, lines]
  rfl

/-- A body has the moved lines of each of its texts. -/
theorem below_body (printer : Printer) (member : text ∈ texts) (back : Text) :
    Below (indentedLines printer.margin text) (printer.body texts ++ back) := by
  have lines := splitOn_body printer texts
  rw [← List.cons_append] at lines
  obtain ⟨next, behind, starts⟩ := Outline.exists_lines back
  rw [Below, splitOn_append lines starts, List.cons_append, List.tail_cons]
  exact List.infix_append_of_infix_left (infix_flatMap (indentedLines printer.margin) member)

end Text

namespace Node

open Text (Below indentedLines below_body)

variable {printer : Printer} {node child inner outer : Node} {text : Text}

/-! ## One level -/

/-- The statements of a body. -/
def statements : Node → List Node
  | .block statements _ => statements
  | .caseClause _ statements => statements
  | .defaultClause statements => statements
  | _ => []

mutual

/-- The statements and clauses that stand one level deeper than the node. -/
def indented : Node → List Node
  | .block statements _ => statements
  | .caseClause _ statements => statements
  | .defaultClause statements => statements
  | .switchStatement _ clauses _ => clauses
  | .conditional _ body alternative _ => body.statements ++ behindElse alternative
  | .forLoop body _ _ _ _ => body.statements
  | .whileLoop _ body _ => body.statements
  | .doLoop body _ _ => body.statements
  | _ => []

def behindElse : Option Node → List Node
  | none => []
  | some node => if node.isConditional then indented node else node.statements

end

theorem exists_of_printAll {nodes : List Node} {texts : List Text}
    (printed : Printer.printAll printer nodes = .ok texts) (among : child ∈ nodes) :
    ∃ text, Printer.bare printer child = .ok text ∧ child.withComment text ∈ texts := by
  induction nodes generalizing texts with
  | nil => cases among
  | cons node nodes ih =>
      obtain ⟨text, first, printed⟩ := exists_of_bind_ok printed
      obtain ⟨more, rest, printed⟩ := exists_of_bind_ok printed
      cases printed
      rcases List.mem_cons.mp among with rfl | later
      · exact ⟨text, first, List.mem_cons_self⟩
      · obtain ⟨found, own, member⟩ := ih rest later
        exact ⟨found, own, List.mem_cons_of_mem _ member⟩

/-- The child has a printed form whose moved lines stand in the text. -/
def Sets (printer : Printer) (child : Node) (text : Text) : Prop :=
  ∃ found, Printer.bare printer child = .ok found ∧
    Below (indentedLines printer.margin (child.withComment found)) text

theorem Sets.behind (sets : Sets printer child text) (front : Text) :
    Sets printer child (front ++ text) := by
  obtain ⟨found, printed, below⟩ := sets
  exact ⟨found, printed, below.behind front⟩

theorem sets_body {nodes : List Node} {texts : List Text}
    (printed : Printer.printAll printer nodes = .ok texts) (among : child ∈ nodes) (back : Text) :
    Sets printer child (printer.body texts ++ back) := by
  obtain ⟨found, own, member⟩ := exists_of_printAll printed among
  exact ⟨found, own, below_body printer member back⟩

theorem sets_printBody (printed : Printer.printBody printer node = .ok text)
    (among : child ∈ node.statements) (back : Text) : Sets printer child (text ++ back) := by
  have body {nodes : List Node}
      (printed : (Printer.printAll printer nodes).map printer.body = .ok text)
      (among : child ∈ nodes) : Sets printer child (text ++ back) := by
    obtain ⟨texts, all, rfl⟩ := exists_of_map_ok printed
    exact sets_body all among back
  cases node with
  | block nodes comment => exact body printed among
  | caseClause value nodes => exact body printed among
  | defaultClause nodes => exact body printed among
  | _ => cases among

/-- A clause has the moved lines of its statements below its label. -/
theorem sets_clause {nodes : List Node} {texts : List Text}
    (printed : Printer.printAll printer nodes = .ok texts) (among : child ∈ nodes) (label : Text) :
    Sets printer child
      (['\n'].intercalate (label :: texts.map (Text.indentBy printer.margin))) := by
  obtain ⟨found, own, member⟩ := exists_of_printAll printed among
  obtain ⟨next, behind, starts⟩ := Outline.exists_lines label
  refine ⟨found, own, ?_⟩
  rw [Below, Outline.splitOn_below, starts, List.cons_append, List.tail_cons]
  refine List.infix_append_of_infix_right ?_
  have moved := Text.infix_flatMap (Text.splitOn '\n')
    (List.mem_map_of_mem (f := Text.indentBy printer.margin) member)
  rwa [Text.splitOn_indentBy] at moved

theorem sets_of_indented (printed : Printer.bare printer node = .ok text)
    (among : child ∈ node.indented) : Sets printer child text := by
  induction node using induction_on_children generalizing text with
  | step node ih =>
      cases node with
      | block nodes comment =>
          obtain ⟨texts, all, rfl⟩ := exists_of_map_ok printed
          rw [← List.append_nil (printer.body texts)]
          exact sets_body all among []
      | caseClause value nodes =>
          obtain ⟨label, _, printed⟩ := exists_of_bind_ok printed
          obtain ⟨texts, all, printed⟩ := exists_of_bind_ok printed
          cases printed
          exact sets_clause all among _
      | defaultClause nodes =>
          obtain ⟨texts, all, printed⟩ := exists_of_bind_ok printed
          cases printed
          exact sets_clause all among _
      | switchStatement expression clauses comment =>
          obtain ⟨subject, _, printed⟩ := exists_of_bind_ok printed
          obtain ⟨texts, all, printed⟩ := exists_of_bind_ok printed
          cases printed
          rw [← List.append_nil (printer.body texts)]
          exact (sets_body all among []).behind _
      | conditional condition body alternative comment =>
          obtain ⟨test, _, printed⟩ := exists_of_bind_ok printed
          obtain ⟨block, inner, printed⟩ := exists_of_bind_ok printed
          obtain ⟨rest, other, printed⟩ := exists_of_bind_ok printed
          cases printed
          rcases List.mem_append.mp among with here | there
          · rw [List.append_assoc]
            exact (sets_printBody inner here _).behind _
          · cases alternative with
            | none => cases there
            | some node =>
                rw [behindElse] at there
                rw [Printer.printAlternative] at other
                by_cases conditional : node.isConditional = true
                · rw [if_pos conditional] at there other
                  obtain ⟨last, own, same⟩ := exists_of_bind_ok other
                  cases same
                  have sets := ih node (.tail _ (.tail _ (.head _))) own there
                  exact (sets.behind " else ".toList).behind _
                · rw [if_neg conditional] at there other
                  obtain ⟨last, own, same⟩ := exists_of_bind_ok other
                  cases same
                  rw [← List.append_nil last]
                  exact ((sets_printBody own there []).behind " else ".toList).behind _
      | forLoop body start condition step comment =>
          obtain ⟨first, _, printed⟩ := exists_of_bind_ok printed
          obtain ⟨second, _, printed⟩ := exists_of_bind_ok printed
          obtain ⟨third, _, printed⟩ := exists_of_bind_ok printed
          obtain ⟨block, inner, printed⟩ := exists_of_bind_ok printed
          cases printed
          rw [← List.append_nil block]
          exact (sets_printBody inner among []).behind _
      | whileLoop condition body comment =>
          obtain ⟨test, _, printed⟩ := exists_of_bind_ok printed
          obtain ⟨block, inner, printed⟩ := exists_of_bind_ok printed
          cases printed
          rw [← List.append_nil block]
          exact (sets_printBody inner among []).behind _
      | doLoop body condition comment =>
          obtain ⟨block, inner, printed⟩ := exists_of_bind_ok printed
          obtain ⟨test, _, printed⟩ := exists_of_bind_ok printed
          cases printed
          simp only [List.append_assoc]
          exact (sets_printBody inner among _).behind _
      | _ => cases among

/-! ## Several levels -/

/-- The inner node stands the number of levels deeper than the outer one. -/
inductive Nested (inner : Node) : Nat → Node → Prop
  | direct {outer : Node} (among : inner ∈ outer.indented) : Nested inner 1 outer
  | deeper {outer child : Node} {depth : Nat} (among : child ∈ outer.indented)
      (nested : Nested inner depth child) : Nested inner (depth + 1) outer

/-- A comment stands above the lines of its node. -/
theorem lines_withComment (node : Node) (text : Text) :
    Text.splitOn '\n' text <:+: Text.splitOn '\n' (node.withComment text) := by
  unfold withComment Comment.above
  split
  · exact List.infix_rfl
  · rw [Text.splitOn_append_separator]
    exact List.infix_append_right

/-- What is nested stands in the printed form with its lines moved by every level. -/
theorem Nested.lines {depth : Nat} (nested : Nested inner depth outer)
    (printed : Printer.bare printer outer = .ok text) :
    ∃ found, Printer.bare printer inner = .ok found ∧
      indentedLines (printer.margin * depth) (inner.withComment found) <:+:
        Text.splitOn '\n' text := by
  induction nested generalizing text with
  | direct among =>
      obtain ⟨found, own, below⟩ := sets_of_indented printed among
      rw [Nat.mul_one]
      exact ⟨found, own, below.isInfix⟩
  | @deeper outer child depth among nested ih =>
      obtain ⟨middle, own, below⟩ := sets_of_indented printed among
      obtain ⟨found, innermost, lines⟩ := ih own
      refine ⟨found, innermost, ?_⟩
      have moved := (lines.trans (lines_withComment child middle)).map
        (Text.indentLine printer.margin)
      rw [Text.indentedLines_map] at moved
      rw [Nat.mul_succ, Nat.add_comm]
      exact moved.trans below.isInfix

theorem Nested.isInfix {depth : Nat} (nested : Nested inner depth outer)
    (printed : Printer.bare printer outer = .ok text) :
    ∃ found, Printer.bare printer inner = .ok found ∧
      Text.indentBy (printer.margin * depth) (inner.withComment found) <:+: text := by
  obtain ⟨found, own, lines⟩ := nested.lines printed
  refine ⟨found, own, ?_⟩
  have joined := Text.intercalate_isInfix ['\n'] lines
  rwa [Text.intercalate_splitOn] at joined

end Node

end TypeScriptGen
