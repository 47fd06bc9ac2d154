import TypeScriptGen.Proofs.Json.RoundTrip
import TypeScriptGen.Proofs.Value.Leaves

/-!
# Literals found in literals

A search for the literals in code that is given the literal of a value finds the texts of the value
as they are encoded, all of them in their order and nothing else, and each is read as JSON as the
text that it encodes. Numbers may be of any size: a value with one that is too long is not written.
-/

namespace TypeScriptGen.Value

open Syntax (Literal literals encodedLiteral)

variable {value : Value}

/-- Values made of nothing, truth values, whole numbers, texts, lists, tuples and tables with
identifiers for keys. -/
inductive Composed : Value → Prop
  | null : Composed .null
  | bool (flag : Bool) : Composed (.bool flag)
  | int (number : Int) : Composed (.int number)
  | text (content : Text) : Composed (.text content)
  | list {items : List Value} (all : ∀ item ∈ items, Composed item) : Composed (.list items)
  | tuple {items : List Value} (all : ∀ item ∈ items, Composed item) : Composed (.tuple items)
  | table {entries : List (Value × Value)}
      (named : ∀ entry ∈ entries, isIdentifierKey entry.1 = true)
      (all : ∀ entry ∈ entries, Composed entry.2) : Composed (.table entries)

theorem allPlainData_eq (items : List Value) : allPlainData items = items.all isPlainData := by
  induction items with
  | nil => rfl
  | cons item items ih => rw [allPlainData, ih, List.all_cons]

theorem entriesPlainData_eq (entries : List (Value × Value)) :
    entriesPlainData entries =
      entries.all fun entry => isIdentifierKey entry.1 && isPlainData entry.2 := by
  induction entries with
  | nil => rfl
  | cons entry entries ih =>
      obtain ⟨key, value⟩ := entry
      rw [entriesPlainData, ih, List.all_cons]

theorem Composed.isPlainData (composed : Composed value) (fits : value.holdsOversize = false) :
    value.isPlainData = true := by
  induction composed with
  | null | bool | text => rfl
  | int number =>
      rw [Value.isPlainData, Bool.not_eq_true']
      exact fits
  | list _ ih | tuple _ ih =>
      have parts := anyOversize_eq_false_iff.mp fits
      rw [Value.isPlainData, allPlainData_eq, List.all_eq_true]
      exact fun item among => ih item among (parts item among)
  | table named _ ih =>
      have parts := entryOversize_eq_false_iff.mp fits
      rw [Value.isPlainData, entriesPlainData_eq, List.all_eq_true]
      intro entry among
      rw [named entry among, ih entry among (parts entry among).2, Bool.and_self]

theorem encodedLiteral_text (content : Text) :
    (encodedLiteral content).text = Text.encode content := rfl

/-- An encoded text is JSON for the text. -/
theorem read_encode (content : Text) : Json.read (Text.encode content) = .ok (.text content) := by
  have writable : Json.isWritable (.text content) = true := rfl
  obtain ⟨text, written, read⟩ := Json.read_write writable
  have same : Text.encode content = text := congrArg Json.Output.text written
  rw [same, read]
  rfl

/-- The literals in the literal of a value are its encoded texts, in their order, and each is read
as JSON as the text. Only a value with a number that is too long has no literal. -/
theorem literals_literal? (composed : Composed value) (level : Int) :
    value.holdsOversize = true ∧ value.literal? level = .error .oversize ∨
      ∃ text, value.literal? level = .ok text ∧
        (literals text).map Literal.text = value.leaves.map Text.encode ∧
        (literals text).map (fun found => Json.read found.text) =
          value.leaves.map fun leaf => .ok (.text leaf) := by
  rw [literal?]
  cases fits : value.holdsOversize with
  | true => exact .inl ⟨rfl, rfl⟩
  | false =>
      have found := (spells_literal level value (composed.isPlainData fits)).literals_eq
      refine .inr ⟨value.literal level, rfl, ?_, ?_⟩
      · rw [found, List.map_map]
        rfl
      · rw [found, List.map_map]
        refine List.map_congr_left fun leaf _ => ?_
        rw [Function.comp_apply, encodedLiteral_text, read_encode]

/-- A backslash at the end and quotes of both kinds are escaped, so that no boundary moves. -/
theorem literals_literal?_quotes :
    let value : Value := .table [(.text "path".toList, .text "C:\\".toList),
      (.text "$parts".toList, .tuple [.int (-7), .list [.text "it's \"so\"".toList, .null]])]
    Composed value ∧ ∃ text, value.literal? 0 = .ok text ∧
      (literals text).map Literal.text =
        ["\"C:\\\\\"".toList, "\"it's \\\"so\\\"\"".toList] ∧
      (literals text).map (fun found => Json.read found.text) =
        [.ok (.text "C:\\".toList), .ok (.text "it's \"so\"".toList)] := by
  intro value
  have inner : Composed (.list [.text "it's \"so\"".toList, .null]) :=
    .list (List.forall_mem_cons.mpr ⟨.text _, List.forall_mem_singleton.mpr .null⟩)
  have parts : Composed (.tuple [.int (-7), .list [.text "it's \"so\"".toList, .null]]) :=
    .tuple (List.forall_mem_cons.mpr ⟨.int _, List.forall_mem_singleton.mpr inner⟩)
  have composed : Composed value :=
    .table (List.forall_mem_cons.mpr ⟨by decide, List.forall_mem_singleton.mpr (by decide)⟩)
      (List.forall_mem_cons.mpr ⟨.text _, List.forall_mem_singleton.mpr parts⟩)
  refine ⟨composed, (literals_literal? composed 0).resolve_left fun both => ?_⟩
  exact absurd both.1 (by decide +kernel)

end TypeScriptGen.Value
