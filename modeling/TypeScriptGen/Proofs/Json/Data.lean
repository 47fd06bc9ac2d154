import TypeScriptGen.Json.Reader
import TypeScriptGen.Proofs.Decimal.Digits
import TypeScriptGen.Proofs.Outcome.Steps
import TypeScriptGen.Proofs.Value.Tables

/-!
# The data that JSON holds

What is read from JSON text is made of nulls, truth values, numbers, texts, lists
and tables. Its whole numbers are not oversize, and its tables have texts for keys,
no two of them the same.
-/

namespace TypeScriptGen

namespace Json

/-- Data of the kind that JSON text stands for. -/
inductive Data : Value → Prop
  | null : Data .null
  | bool (flag : Bool) : Data (.bool flag)
  | int {number : Int} (small : Decimal.isOversize number = false) : Data (.int number)
  | float (number : Decimal.Double) : Data (.float number)
  | text (content : Text) : Data (.text content)
  | ragged (content : Text.Ragged) : Data (.ragged content)
  | list {items : List Value} (all : ∀ item ∈ items, Data item) : Data (.list items)
  | table {entries : Table} (lawful : Table.Lawful entries)
      (named : ∀ entry ∈ entries, entry.1.IsText) (all : ∀ entry ∈ entries, Data entry.2) :
      Data (.table entries)

/-! ## Scalars -/

theorem readWhole_digits_only {text whole rest : Text}
    (read : readWhole text = some (whole, rest)) : ∀ c ∈ whole, c.isDigit = true := by
  unfold readWhole at read
  split at read
  · cases read
  · next first more =>
      split at read
      · cases read
        exact List.forall_mem_singleton.mpr rfl
      · split at read
        · next digit =>
            cases read
            refine List.forall_mem_cons.mpr ⟨digit, fun c among => ?_⟩
            exact List.all_eq_true.mp (List.all_takeWhile ..) c among
        · cases read

theorem data_readUnsigned {negative : Bool} {text rest : Text} {value : Value}
    (read : readUnsigned negative text = .ok (value, rest)) : Data value := by
  unfold readUnsigned at read
  split at read
  · cases read
  · next whole behind found =>
      dsimp only at read
      split at read
      · split at read
        · cases read
        · next small =>
            cases read
            refine .int (decide_eq_false (Nat.not_le.mpr ?_))
            have below := Decimal.ofDigits_lt (readWhole_digits_only found)
            have limit := Decimal.tenTo_le (Nat.le_of_not_lt small)
            have size : (if negative = true then -(Decimal.ofDigits whole : Int)
                else Decimal.ofDigits whole).natAbs = Decimal.ofDigits whole := by
              split <;> omega
            rw [size]
            exact Nat.lt_of_lt_of_le below limit
      · cases read
        exact .float _

theorem data_words : ∀ found ∈ words, Data found.2 := by
  simp only [words, List.forall_mem_cons, List.not_mem_nil]
  exact ⟨.null, .bool true, .bool false, .float _, .float _, .float _, nofun⟩

theorem data_readScalar {text rest : Text} {value : Value}
    (read : readScalar text = .ok (value, rest)) : Data value := by
  unfold readScalar at read
  split at read
  · next found word =>
      cases read
      obtain ⟨⟨spelling, meaning⟩, among, made⟩ := List.exists_of_findSome?_eq_some word
      dsimp only at made
      split at made
      · cases made
        exact data_words _ among
      · cases made
  · split at read <;> exact data_readUnsigned read

/-- The text that is read behind a quote. -/
theorem text_of_readText {text rest : Text} {value : Value}
    (read : readText text = some (value, rest)) : value.IsText ∧ Data value := by
  obtain ⟨⟨codes, after⟩, -, same⟩ := Option.map_eq_some_iff.mp read
  have made : Value.ofPoints (joinSurrogates codes) = value := congrArg Prod.fst same
  have text : value.IsText := made ▸ Value.isText_ofPoints _
  refine ⟨text, ?_⟩
  rcases Value.isText_iff.mp text with ⟨content, rfl⟩ | ⟨content, rfl⟩
  · exact .text content
  · exact .ragged content

/-! ## Lists and tables -/

/-- The readers read data with this much fuel. -/
structure ReadsData (fuel : Nat) : Prop where
  value {text rest : Text} {value : Value} (read : readValue fuel text = .ok (value, rest)) :
    Data value
  items {text rest : Text} {items : List Value} (read : readItems fuel text = .ok (items, rest)) :
    ∀ item ∈ items, Data item
  entries {text rest : Text} {entries : List (Value × Value)}
    (read : readEntries fuel text = .ok (entries, rest)) :
    ∀ entry ∈ entries, entry.1.IsText ∧ Data entry.2

section Step

variable {fuel : Nat} {text rest : Text}

theorem data_ofList {entries : List (Value × Value)}
    (all : ∀ entry ∈ entries, entry.1.IsText ∧ Data entry.2) :
    Data (.table (Table.ofList entries)) := by
  have kept : ∀ entry ∈ Table.ofList entries, entry.1.IsText ∧ Data entry.2 :=
    Table.forall_insertAll Value.IsText Data nofun all
  exact .table (Table.lawful_ofList entries) (fun entry among => (kept entry among).1)
    fun entry among => (kept entry among).2

theorem ReadsData.value_succ (reads : ReadsData fuel) {value : Value}
    (read : readValue (fuel + 1) text = .ok (value, rest)) : Data value := by
  unfold readValue at read
  split at read
  · split at read
    · next found =>
        cases read
        exact (text_of_readText found).2
    · cases read
  · split at read
    · cases read
      exact .list nofun
    · obtain ⟨⟨items, after⟩, found, made⟩ := exists_of_bind_ok read
      cases made
      exact .list (reads.items found)
  · split at read
    · cases read
      exact .table .nil nofun nofun
    · obtain ⟨⟨entries, after⟩, found, made⟩ := exists_of_bind_ok read
      cases made
      exact data_ofList (reads.entries found)
  · exact data_readScalar read

theorem ReadsData.items_succ (reads : ReadsData fuel) {items : List Value}
    (read : readItems (fuel + 1) text = .ok (items, rest)) : ∀ item ∈ items, Data item := by
  unfold readItems at read
  obtain ⟨⟨item, behind⟩, found, made⟩ := exists_of_bind_ok read
  have own := reads.value found
  dsimp only at made
  split at made
  · obtain ⟨⟨others, after⟩, later, made⟩ := exists_of_bind_ok made
    cases made
    exact List.forall_mem_cons.mpr ⟨own, reads.items later⟩
  · cases made
    exact List.forall_mem_singleton.mpr own
  · cases made

theorem ReadsData.entries_succ (reads : ReadsData fuel) {entries : List (Value × Value)}
    (read : readEntries (fuel + 1) text = .ok (entries, rest)) :
    ∀ entry ∈ entries, entry.1.IsText ∧ Data entry.2 := by
  unfold readEntries at read
  split at read
  · split at read
    · cases read
    · next spelled =>
      have named := (text_of_readText spelled).1
      split at read
      · obtain ⟨⟨value, behind⟩, found, made⟩ := exists_of_bind_ok read
        have own := reads.value found
        dsimp only at made
        split at made
        · obtain ⟨⟨others, after⟩, later, made⟩ := exists_of_bind_ok made
          cases made
          exact List.forall_mem_cons.mpr ⟨⟨named, own⟩, reads.entries later⟩
        · cases made
          exact List.forall_mem_singleton.mpr ⟨named, own⟩
        · cases made
      · cases read
  · cases read

end Step

theorem readsData (fuel : Nat) : ReadsData fuel := by
  induction fuel with
  | zero => exact ⟨nofun, nofun, nofun⟩
  | succ fuel ih => exact ⟨ih.value_succ, ih.items_succ, ih.entries_succ⟩

/-- Whatever is read is data. -/
theorem data_of_read {text : Text} {value : Value} (found : read text = .ok value) :
    Data value := by
  obtain ⟨⟨first, rest⟩, whole, made⟩ := exists_of_bind_ok found
  dsimp only at made
  split at made
  · cases made
    exact (readsData _).value whole
  · cases made

/-! ## No data is oversize -/

theorem Data.holdsOversize_eq_false {value : Value} (data : Data value) :
    value.holdsOversize = false := by
  induction data with
  | null | bool | float | text | ragged => rfl
  | int small => exact small
  | list _ ih => exact Value.anyOversize_eq_false_iff.mpr ih
  | table _ named _ ih =>
      refine Value.entryOversize_eq_false_iff.mpr fun entry among => ⟨?_, ih entry among⟩
      rcases Value.isText_iff.mp (named entry among) with ⟨content, key⟩ | ⟨content, key⟩ <;>
        rw [key] <;> rfl

end Json

end TypeScriptGen
