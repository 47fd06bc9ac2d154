import TypeScriptGen.Proofs.Text.StringLiteral
import TypeScriptGen.Proofs.Value.Depth

/-!
# The keys in a literal

A table shows each key in front of a colon as it is, without quotes. The literal of a value holds
the lines of every table in it, at the depth of the table, and a key there names its property
exactly if it is an identifier: no text denotes itself between quotes.
-/

namespace TypeScriptGen.Value

open Text (IsLiteral)

variable {entries : List (Value × Value)} {identifier : Text → Prop} {key shown text : Text}
  {value item : Value} {level depth : Int}

/-! ## Tables in a value -/

/-- The table with these entries stands in a value, at this depth where the value is at the given
level. Lists and tuples are at the level of their items. -/
inductive TableAt (entries : List (Value × Value)) (depth : Int) : Value → Int → Prop
  | here : TableAt entries depth (.table entries) depth
  | ofList {items : List Value} {item : Value} {level : Int} (among : item ∈ items)
      (inside : TableAt entries depth item level) : TableAt entries depth (.list items) level
  | ofTuple {items : List Value} {item : Value} {level : Int} (among : item ∈ items)
      (inside : TableAt entries depth item level) : TableAt entries depth (.tuple items) level
  | ofEntry {others : List (Value × Value)} {entry : Value × Value} {level : Int}
      (among : entry ∈ others) (inside : TableAt entries depth entry.2 (level + 1)) :
      TableAt entries depth (.table others) level

theorem TableAt.within (table : TableAt entries depth value level) :
    ∃ tables : Nat, Within (.table entries) tables value ∧ depth = level + tables := by
  induction table with
  | here => exact ⟨0, .here, (Int.add_zero depth).symm⟩
  | ofList among _ ih =>
      obtain ⟨tables, within, same⟩ := ih
      exact ⟨tables, .ofList among within, same⟩
  | ofTuple among _ ih =>
      obtain ⟨tables, within, same⟩ := ih
      exact ⟨tables, .ofTuple among within, same⟩
  | ofEntry among _ ih =>
      obtain ⟨tables, within, same⟩ := ih
      exact ⟨tables + 1, .ofEntry among within, by omega⟩

/-- The literal of a value holds the lines of each table in it. -/
theorem TableAt.infix_literal (table : TableAt entries depth value level) :
    braces depth (entries.map (entryText (depth + 1))) <:+: literal level value := by
  obtain ⟨tables, within, rfl⟩ := table.within
  rw [← literal_table]
  exact within.infix_literal level

/-! ## Names of properties -/

/-- A property is named by its key itself, if this is an identifier, or by a literal that denotes
the key. -/
inductive PropertyName (identifier : Text → Prop) : Text → Text → Prop
  | bare {key : Text} (known : identifier key) : PropertyName identifier key key
  | quoted {quote : Char} {shown key : Text} (mark : quote = '"' ∨ quote = '\'')
      (literal : IsLiteral quote shown key) : PropertyName identifier shown key

/-- The entry of a table begins with a name for its key, and the value follows behind a colon. -/
def NamesKey (identifier : Text → Prop) (level : Int) (key : Text) (item : Value) : Prop :=
  ∃ shown, entryText level (.text key, item) = shown ++ ": ".toList ++ literal level item ∧
    PropertyName identifier shown key

/-- A key is a name for itself only as an identifier. -/
theorem PropertyName.known (named : PropertyName identifier key key) : identifier key := by
  cases named with
  | bare known => exact known
  | quoted mark literal => exact absurd rfl literal.ne

theorem NamesKey.known (named : NamesKey identifier level key item) : identifier key := by
  obtain ⟨shown, split, name⟩ := named
  have front : key ++ ": ".toList = shown ++ ": ".toList := List.append_cancel_right split
  have same : key = shown := List.append_cancel_right front
  subst same
  exact name.known

theorem namesKey_of_identifier (known : identifier key) : NamesKey identifier level key item :=
  ⟨key, rfl, .bare known⟩

/-- Wherever a table stands in a value, what is written for the value holds the lines of this
table, and a key is named there exactly if it is an identifier, whatever counts as one. -/
theorem namesKey_iff (identifier : Text → Prop) (written : value.literal? level = .ok text)
    (table : TableAt entries depth value level) :
    braces depth (entries.map (entryText (depth + 1))) <:+: text ∧
      ∀ key item, (.text key, item) ∈ entries →
        (NamesKey identifier (depth + 1) key item ↔ identifier key) := by
  rw [literal?] at written
  split at written
  · cases written
  · cases written
    exact ⟨table.infix_literal, fun key item _ => ⟨NamesKey.known, namesKey_of_identifier⟩⟩

/-- A table in a list in a table is found, with a header for its key. -/
theorem namesKey_iff_header :
    let entries : List (Value × Value) := [(.text "content-type".toList, .text "json".toList)]
    let value : Value := .table [(.text "headers".toList, .list [.table entries])]
    let text := "\x7b\n    headers: [\x7b\n        content-type: \"json\"\n    \x7d]\n\x7d".toList
    value.literal? 1 = .ok text ∧ TableAt entries 2 value 1 ∧
      braces 2 (entries.map (entryText 3)) <:+: text ∧
      ∀ key item, (.text key, item) ∈ entries →
        (NamesKey (Text.isIdentifier · = true) 3 key item ↔ Text.isIdentifier key = true) := by
  intro entries value text
  have written : value.literal? 1 = .ok text := rfl
  have table : TableAt entries 2 value 1 := .ofEntry (.head _) (.ofList (.head _) .here)
  exact ⟨written, table, namesKey_iff _ written table⟩

/-- The name of a header is written without quotes, as a subtraction. -/
theorem not_namesKey_header :
    let entries : List (Value × Value) := [(.text "content-type".toList, .text "json".toList)]
    (Value.table entries).literal? 1 =
        .ok "\x7b\n    content-type: \"json\"\n\x7d".toList ∧
      TableAt entries 1 (.table entries) 1 ∧
      ¬ NamesKey (Text.isIdentifier · = true) 2 "content-type".toList (.text "json".toList) := by
  intro entries
  refine ⟨rfl, .here, fun named => ?_⟩
  have known := named.known
  exact absurd known (by decide)

end TypeScriptGen.Value
