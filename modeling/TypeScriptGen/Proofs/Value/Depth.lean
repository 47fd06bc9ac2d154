import TypeScriptGen.Proofs.Decimal.Digits
import TypeScriptGen.Proofs.Text.Blocks
import TypeScriptGen.Proofs.Text.Encoded
import TypeScriptGen.Proofs.Text.Laying
import TypeScriptGen.Proofs.Value.Leaves

/-!
# Depth in literals

The literal of a value holds the literals of the values in it, each written for the number of
tables around it. Only tables break lines, and their keys are all that is shown as it is given. So
where no key breaks a line, one level more puts four spaces behind each line feed and changes
nothing else: a value inside others is shown as it is by itself, moved to the right as a block.
-/

namespace TypeScriptGen

namespace Decimal

/-! ## Numbers stand in one line -/

theorem oneLine_of_digits {text : Text} (digits : ∀ c ∈ text, c.isDigit = true) : '\n' ∉ text :=
  fun inside => absurd (digits '\n' inside) (by decide)

theorem oneLine_digits (number : Nat) : '\n' ∉ digits number :=
  oneLine_of_digits fun _ => isDigit_of_mem_digits

theorem oneLine_wholeText (number : Int) : '\n' ∉ wholeText number := by
  cases number with
  | ofNat number => exact oneLine_digits number
  | negSucc number =>
      have digits := oneLine_digits (number + 1)
      simpa [wholeText] using digits

theorem mem_dropZeros {c : Char} {text : Text} (member : c ∈ dropZeros text) : c ∈ text :=
  List.mem_reverse.mp ((List.dropWhile_suffix _).subset (List.mem_reverse.mp member))

theorem oneLine_layout {text : Text} (single : '\n' ∉ text) (point : Int) :
    '\n' ∉ layout text point := by
  have front (count : Nat) : '\n' ∉ text.take count := fun inside =>
    single (List.mem_of_mem_take inside)
  have back (count : Nat) : '\n' ∉ text.drop count := fun inside =>
    single (List.mem_of_mem_drop inside)
  have tail : '\n' ∉ text.tail := fun inside => single (List.mem_of_mem_tail inside)
  have exponent (number : Nat) : '\n' ∉ padded 2 number :=
    oneLine_of_digits fun _ => isDigit_of_mem_padded
  unfold layout
  dsimp only
  split
  · split
    · simp [single]
    · split <;> simp [single, front, back]
  · split <;> split <;> simp [single, front, tail, exponent]

theorem Double.oneLine_text (number : Double) : '\n' ∉ number.text := by
  have digits : '\n' ∉ dropZeros (Decimal.digits number.shortest.1) := fun inside =>
    oneLine_digits _ (mem_dropZeros inside)
  have laid := oneLine_layout digits
  unfold Double.text
  dsimp only
  split
  · decide
  · split <;> split <;> try split
    all_goals simp [laid]

end Decimal

namespace Value

open Text (shifted shifted_append shifted_of_oneLine shifted_intercalate)

variable {value item inner : Value} {items : List Value} {entries : List (Value × Value)}
  {text : Text} {level : Int} {depth : Nat}

/-! ## Values within others -/

/-- A value stands in another with this number of tables around it. -/
inductive Within (inner : Value) : Nat → Value → Prop
  | here : Within inner 0 inner
  | ofList {depth : Nat} {items : List Value} {item : Value} (among : item ∈ items)
      (inside : Within inner depth item) : Within inner depth (.list items)
  | ofTuple {depth : Nat} {items : List Value} {item : Value} (among : item ∈ items)
      (inside : Within inner depth item) : Within inner depth (.tuple items)
  | ofEntry {depth : Nat} {entries : List (Value × Value)} {entry : Value × Value}
      (among : entry ∈ entries) (inside : Within inner depth entry.2) :
      Within inner (depth + 1) (.table entries)

theorem infix_bracket {opening closing : Char} {parts : List Text} (among : text ∈ parts) :
    text <:+: bracket opening closing parts := by
  have joined := Text.infix_intercalate ", ".toList among
  exact (joined.trans (List.suffix_cons opening _).isInfix).trans (List.prefix_append _ _).isInfix

/-- Each entry stands in a line of the braces, behind their margin. -/
theorem infix_braces {lines : List Text} (level : Int) (among : text ∈ lines) :
    text <:+: braces level lines := by
  have line : levelMargin level ++ text ∈ lines.map fun entry => levelMargin level ++ entry :=
    List.mem_map_of_mem among
  have joined := Text.infix_intercalate [',', '\n'] line
  have some : lines.isEmpty = false := by
    rw [List.isEmpty_eq_false_iff_exists_mem]
    exact ⟨text, among⟩
  rw [braces, some, if_neg Bool.false_ne_true]
  refine ((List.suffix_append _ _).isInfix.trans joined).trans ?_
  refine List.IsInfix.trans ?_ (List.prefix_append _ _).isInfix
  refine List.IsInfix.trans ?_ (List.prefix_append _ _).isInfix
  exact (List.suffix_append _ _).isInfix

theorem infix_literal_item (among : item ∈ items) :
    literal level item <:+: bracket '[' ']' (literalAll level items) := by
  rw [literalAll_eq]
  exact infix_bracket (List.mem_map_of_mem among)

theorem literal_table (level : Int) (entries : List (Value × Value)) :
    literal level (.table entries) = braces level (entries.map (entryText (level + 1))) := by
  rw [literal, literalEntries_eq]

namespace Within

/-- The literal of a value holds the literals of the values in it, each for its depth. -/
theorem infix_literal (within : Within inner depth value) (level : Int) :
    literal (level + depth) inner <:+: literal level value := by
  induction within generalizing level with
  | here => exact (Int.add_zero level).symm ▸ List.infix_rfl
  | ofList among inside ih => exact (ih level).trans (infix_literal_item among)
  | ofTuple among inside ih => exact (ih level).trans (infix_literal_item among)
  | @ofEntry depth entries entry among inside ih =>
      have line : entryText (level + 1) entry ∈ entries.map (entryText (level + 1)) :=
        List.mem_map_of_mem among
      have shown : literal (level + 1) entry.2 <:+: entryText (level + 1) entry :=
        (List.suffix_append _ _).isInfix
      have deeper := ih (level + 1)
      rw [Int.add_assoc, Int.add_comm 1] at deeper
      rw [literal_table]
      exact (deeper.trans shown).trans (infix_braces level line)

theorem trans {between : Value} {more : Nat} (within : Within inner depth between)
    (outer : Within between more value) : Within inner (depth + more) value := by
  induction outer with
  | here => exact within
  | ofList among _ ih => exact .ofList among ih
  | ofTuple among _ ih => exact .ofTuple among ih
  | ofEntry among _ ih => exact .ofEntry among ih

/-- What can be written as a whole can be written in parts. -/
theorem holdsOversize (within : Within inner depth value) (fits : value.holdsOversize = false) :
    inner.holdsOversize = false := by
  induction within with
  | here => exact fits
  | ofList among _ ih => exact ih (anyOversize_eq_false_iff.mp fits _ among)
  | ofTuple among _ ih => exact ih (anyOversize_eq_false_iff.mp fits _ among)
  | ofEntry among _ ih => exact ih (entryOversize_eq_false_iff.mp fits _ among).2

end Within

/-! ## Keys in one line -/

/-- No table in the value shows a key over several lines. -/
def OneLineKeys (value : Value) : Prop :=
  ∀ entries depth, Within (.table entries) depth value → ∀ entry ∈ entries, '\n' ∉ display entry.1

theorem OneLineKeys.within (keys : OneLineKeys value) (within : Within inner depth value) :
    OneLineKeys inner := fun entries _ inside => keys entries _ (inside.trans within)

theorem oneLineKeys_list :
    OneLineKeys (.list items) ↔ ∀ item ∈ items, OneLineKeys item := by
  constructor
  · exact fun keys item among => keys.within (.ofList among .here)
  · rintro keys entries depth (_ | ⟨among, inside⟩)
    exact keys _ among entries depth inside

theorem oneLineKeys_tuple :
    OneLineKeys (.tuple items) ↔ ∀ item ∈ items, OneLineKeys item := by
  constructor
  · exact fun keys item among => keys.within (.ofTuple among .here)
  · rintro keys entries depth (_ | _ | ⟨among, inside⟩)
    exact keys _ among entries depth inside

theorem oneLineKeys_table :
    OneLineKeys (.table entries) ↔
      ∀ entry ∈ entries, '\n' ∉ display entry.1 ∧ OneLineKeys entry.2 := by
  constructor
  · intro keys entry among
    exact ⟨keys entries 0 .here entry among, keys.within (.ofEntry among .here)⟩
  · rintro keys others depth (_ | _ | _ | ⟨among, inside⟩)
    · exact fun entry among => (keys entry among).1
    · exact (keys _ among).2 others _ inside

/-! ## One level more -/

theorem levelMargin_succ (fits : 0 ≤ level) :
    levelMargin (level + 1) = Text.spaces indentSize ++ levelMargin level := by
  have size : (indentSize * (level + 1)).toNat = indentSize + (indentSize * level).toNat := by
    simp only [indentSize]
    omega
  rw [levelMargin, size, levelMargin]
  exact List.replicate_append_replicate.symm

theorem braces_of_ne_nil (level : Int) {lines : List Text} (some : lines ≠ []) :
    braces level lines =
      '\x7b' :: '\n' ::
        ([',', '\n'].intercalate (lines.map fun line => levelMargin level ++ line) ++
        '\n' :: (levelMargin (level - 1) ++ ['\x7d'])) := by
  simp [braces, some]

theorem shifted_bracket (margin : Nat) (parts : List Text) :
    shifted margin (bracket '[' ']' parts) = bracket '[' ']' (parts.map (shifted margin)) := by
  have comma : shifted margin ", ".toList = ", ".toList :=
    shifted_of_oneLine margin (by decide)
  have close : shifted margin [']'] = [']'] := shifted_of_oneLine margin (by decide)
  rw [bracket, shifted_append, Text.shifted_cons_of_ne margin (by decide), shifted_intercalate,
    comma, close]
  rfl

/-- The margins of the entries and of the closing brace grow with the level. -/
theorem shifted_braces (positive : 1 ≤ level) (lines : List Text) :
    shifted indentSize (braces level lines) =
      braces (level + 1) (lines.map (shifted indentSize)) := by
  cases lines with
  | nil => rfl
  | cons line lines =>
      have some : line :: lines ≠ [] := List.cons_ne_nil line lines
      have others : (line :: lines).map (shifted indentSize) ≠ [] := List.cons_ne_nil _ _
      have margins (level : Int) : shifted indentSize (levelMargin level) = levelMargin level :=
        shifted_of_oneLine _ (Text.oneLine_spaces _)
      have deeper : ((line :: lines).map (shifted indentSize)).map
            (fun line => levelMargin (level + 1) ++ line) =
          (((line :: lines).map fun line => levelMargin level ++ line).map
            (shifted indentSize)).map fun line => Text.spaces indentSize ++ line := by
        rw [List.map_map, List.map_map, List.map_map]
        refine List.map_congr_left fun line _ => ?_
        simp only [Function.comp_apply]
        rw [shifted_append, margins, levelMargin_succ (by omega), List.append_assoc]
      have closing : levelMargin (level + 1 - 1) =
          Text.spaces indentSize ++ levelMargin (level - 1) := by
        rw [← levelMargin_succ (by omega), Int.sub_add_cancel, Int.add_sub_cancel]
      have brace : shifted indentSize ['\x7d'] = ['\x7d'] := shifted_of_oneLine _ (by decide)
      rw [braces_of_ne_nil level some, braces_of_ne_nil (level + 1) others, deeper, closing,
        List.map_cons, List.map_cons, Text.intercalate_margin,
        Text.shifted_cons_of_ne _ (by decide), Text.shifted_lineFeed, shifted_append,
        shifted_intercalate, Text.shifted_lineFeed, shifted_append, margins, brace]
      simp only [List.append_assoc]
      rfl

mutual

/-- One level more moves the literal by the margin of one level. -/
theorem shifted_literal {level : Int} (positive : 1 ≤ level) :
    ∀ value, OneLineKeys value →
      shifted indentSize (literal level value) = literal (level + 1) value
  | .null => fun _ => rfl
  | .bool true => fun _ => rfl
  | .bool false => fun _ => rfl
  | .int number => fun _ => shifted_of_oneLine _ (Decimal.oneLine_wholeText number)
  | .float number => fun _ => shifted_of_oneLine _ number.oneLine_text
  | .text content => fun _ => shifted_of_oneLine _ (Text.oneLine_encode content)
  | .ragged _ => fun _ => shifted_of_oneLine _ (Text.oneLine_encode _)
  | .list items => fun keys => by
      rw [literal, literal, shifted_bracket, literalAll_eq, literalAll_eq, List.map_map,
        List.map_congr_left (shifted_literal_item positive items (oneLineKeys_list.mp keys))]
  | .tuple items => fun keys => by
      rw [literal, literal, shifted_bracket, literalAll_eq, literalAll_eq, List.map_map,
        List.map_congr_left (shifted_literal_item positive items (oneLineKeys_tuple.mp keys))]
  | .table entries => fun keys => by
      rw [literal_table, literal_table, shifted_braces positive, List.map_map,
        List.map_congr_left (shifted_entryText positive entries (oneLineKeys_table.mp keys))]
  | .moment _ => fun _ => shifted_of_oneLine _ (Text.oneLine_encode _)
  | .node _ => fun _ => shifted_of_oneLine _ (Text.oneLine_encode _)

theorem shifted_literal_item {level : Int} (positive : 1 ≤ level) :
    ∀ items : List Value, (∀ item ∈ items, OneLineKeys item) → ∀ item ∈ items,
      (shifted indentSize ∘ literal level) item = literal (level + 1) item
  | [] => fun _ _ member => absurd member List.not_mem_nil
  | first :: items => fun keys item member => by
      obtain ⟨own, others⟩ := List.forall_mem_cons.mp keys
      rcases List.mem_cons.mp member with same | later
      · rw [same]
        exact shifted_literal positive first own
      · exact shifted_literal_item positive items others item later

theorem shifted_entryText {level : Int} (positive : 1 ≤ level) :
    ∀ entries : List (Value × Value),
      (∀ entry ∈ entries, '\n' ∉ display entry.1 ∧ OneLineKeys entry.2) → ∀ entry ∈ entries,
        (shifted indentSize ∘ entryText (level + 1)) entry = entryText (level + 1 + 1) entry
  | [] => fun _ _ member => absurd member List.not_mem_nil
  | (key, value) :: entries => fun keys entry member => by
      obtain ⟨⟨single, own⟩, others⟩ := List.forall_mem_cons.mp keys
      rcases List.mem_cons.mp member with same | later
      · have colon : shifted indentSize ": ".toList = ": ".toList :=
          shifted_of_oneLine _ (by decide)
        have below : 1 ≤ level + 1 := by omega
        have deeper := shifted_literal below value own
        rw [same, Function.comp_apply, entryText, shifted_append, shifted_append, deeper, colon,
          shifted_of_oneLine _ single]
        rfl
      · exact shifted_entryText positive entries others entry later

end

/-! ## Any number of levels -/

/-- What stands further inside is moved by every level. -/
theorem literal_add (positive : 1 ≤ level) (keys : OneLineKeys value) (depth : Nat) :
    literal (level + depth) value = shifted (indentSize * depth) (literal level value) := by
  induction depth with
  | zero => rw [Int.natCast_zero, Int.add_zero, Nat.mul_zero, Text.shifted_zero]
  | succ depth ih =>
      rw [Int.natCast_succ, ← Int.add_assoc, ← shifted_literal (by omega) value keys, ih,
        Text.shifted_shifted, Nat.mul_succ, Nat.add_comm]

theorem literal?_eq_ok_iff : value.literal? level = .ok text ↔
    value.holdsOversize = false ∧ text = value.literal level := by
  rw [literal?]
  cases value.holdsOversize with
  | true => simp
  | false => simp [eq_comm]

/-- One level more puts four spaces behind each line feed. So a value within others is shown as it
is at the first level, moved to the right for the levels around it. -/
theorem literal?_succ (positive : 1 ≤ level) (keys : OneLineKeys value) :
    value.literal? (level + 1) = (value.literal? level).map (shifted 4) ∧
      ∀ text, value.literal? level = .ok text → ∀ inner depth, Within inner depth value →
        ∃ block, inner.literal? 1 = .ok block ∧
          shifted (4 * ((level - 1).toNat + depth)) block <:+: text := by
  constructor
  · have moved := shifted_literal positive value keys
    rw [literal?, literal?, ← moved]
    split <;> rfl
  · intro text written inner depth within
    obtain ⟨fits, rfl⟩ := literal?_eq_ok_iff.mp written
    refine ⟨literal 1 inner, literal?_eq_ok_iff.mpr ⟨within.holdsOversize fits, rfl⟩, ?_⟩
    have levels : level + depth = 1 + ((level - 1).toNat + depth : Nat) := by omega
    have block := literal_add (Int.le_refl 1) (keys.within within) ((level - 1).toNat + depth)
    rw [← levels] at block
    exact block ▸ within.infix_literal level

/-- A table in a list in a table is moved by one level where it stands, and by a second one with the
whole. -/
theorem literal?_succ_rows :
    let row : Value := .table [(.text "a-b".toList, .text "x\ny".toList)]
    let value : Value := .table [(.text "rows".toList, .list [.null, row])]
    let text := "\x7b\n    rows: [null, \x7b\n        a-b: \"x\\ny\"\n    \x7d]\n\x7d".toList
    1 ≤ (1 : Int) ∧ OneLineKeys value ∧ value.literal? 1 = .ok text ∧ Within row 1 value ∧
      value.literal? (1 + 1) = (value.literal? 1).map (shifted 4) ∧
      ∃ block, row.literal? 1 = .ok block ∧
        shifted (4 * (((1 : Int) - 1).toNat + 1)) block <:+: text := by
  intro row value text
  have nothing : OneLineKeys .null := fun _ _ within => nomatch within
  have content : OneLineKeys (.text "x\ny".toList) := fun _ _ within => nomatch within
  have below : OneLineKeys row :=
    oneLineKeys_table.mpr (List.forall_mem_singleton.mpr ⟨by decide, content⟩)
  have rows : OneLineKeys (.list [.null, row]) :=
    oneLineKeys_list.mpr (List.forall_mem_cons.mpr ⟨nothing, List.forall_mem_singleton.mpr below⟩)
  have keys : OneLineKeys value :=
    oneLineKeys_table.mpr (List.forall_mem_singleton.mpr ⟨by decide, rows⟩)
  have written : value.literal? 1 = .ok text := rfl
  have within : Within row 1 value := .ofEntry (.head _) (.ofList (.tail _ (.head _)) .here)
  obtain ⟨deeper, blocks⟩ := literal?_succ (Int.le_refl 1) keys
  exact ⟨Int.le_refl 1, keys, written, within, deeper, blocks text written row 1 within⟩

end Value

end TypeScriptGen
