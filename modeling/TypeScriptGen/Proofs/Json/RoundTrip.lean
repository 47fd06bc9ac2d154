import TypeScriptGen.Proofs.Json.Failures
import TypeScriptGen.Proofs.Json.Reading
import TypeScriptGen.Proofs.Value.Tables

/-!
# Written values read back

A value without floating-point numbers, moments and nodes is written as a whole
when its numbers are not oversize, its texts are not ragged and its keys have texts,
and what is written is read as the same value: tuples come back as lists, and keys
as their texts. So data with texts for keys, no two of a table the same, comes back
as it is, unless a ragged text keeps it from being written.
-/

namespace TypeScriptGen.Json

open Text (encode)

/-! ## What is read back -/

/-- The text of a key, if it has one. -/
def keyName (key : Value) : Text :=
  match keyText key with
  | .ok name => name
  | .error _ => []

mutual

/-- The value that is read where a value was written. -/
def reread : Value → Value
  | .list items => .list (rereadAll items)
  | .tuple items => .list (rereadAll items)
  | .table entries => .table (Table.ofList (rereadEntries entries))
  | value => value

def rereadAll : List Value → List Value
  | [] => []
  | item :: items => reread item :: rereadAll items

def rereadEntries : List (Value × Value) → List (Value × Value)
  | [] => []
  | (key, value) :: entries => (.text (keyName key), reread value) :: rereadEntries entries

end

theorem rereadAll_eq (items : List Value) : rereadAll items = items.map reread := by
  induction items with
  | nil => rfl
  | cons item items ih => rw [rereadAll, ih, List.map_cons]

/-- An entry of a table as it is read back. -/
def rereadEntry (entry : Value × Value) : Value × Value := (.text (keyName entry.1), reread entry.2)

theorem rereadEntries_eq (entries : List (Value × Value)) :
    rereadEntries entries = entries.map rereadEntry := by
  induction entries with
  | nil => rfl
  | cons entry entries ih =>
      obtain ⟨key, value⟩ := entry
      rw [rereadEntries, ih, List.map_cons]
      rfl

mutual

/-- The value is written as a whole, and in a form that is read back. -/
def isWritable : Value → Bool
  | .null => true
  | .bool _ => true
  | .int number => !Decimal.isOversize number
  | .text _ => true
  | .list items => allWritable items
  | .tuple items => allWritable items
  | .table entries => entriesWritable entries
  | _ => false

def allWritable : List Value → Bool
  | [] => true
  | item :: items => isWritable item && allWritable items

def entriesWritable : List (Value × Value) → Bool
  | [] => true
  | (key, value) :: entries =>
      (keyText key).isOk && isWritable value && entriesWritable entries

end

theorem isWritable_table {entries : List (Value × Value)} :
    isWritable (.table entries) = true ↔
      ∀ entry ∈ entries, (keyText entry.1).isOk = true ∧ isWritable entry.2 = true := by
  rw [isWritable]
  induction entries with
  | nil => exact ⟨nofun, fun _ => rfl⟩
  | cons entry entries ih =>
      rw [entriesWritable, Bool.and_eq_true, Bool.and_eq_true, ih, List.forall_mem_cons]

/-! ## Scalars -/

/-- The text of a value as it stands at a level. -/
def valueText (level : Nat) (value : Value) : Text := (writeValue level [] value).text

/-- A value is written as a whole wherever it stands, and read as the found value. -/
structure Kept (level : Nat) (value found : Value) : Prop where
  written : ∀ lead, writeValue level lead value = .ofText (lead ++ valueText level value)
  legible : Legible readValue (valueText level value) found

theorem Kept.of_text {level : Nat} {value found : Value} {text : Text}
    (written : ∀ lead, writeValue level lead value = .ofText (lead ++ text))
    (legible : Legible readValue text found) : Kept level value found := by
  have same : valueText level value = text := congrArg Output.text (written [])
  exact ⟨fun lead => by rw [written, same], same ▸ legible⟩

/-- A text that starts with no quote, bracket or brace is a word or a number. -/
theorem readValue_scalar {c : Char} (plain : c ≠ '"' ∧ c ≠ '[' ∧ c ≠ '\x7b') (fuel : Nat)
    (rest : Text) : readValue (fuel + 1) (c :: rest) = readScalar (c :: rest) := by
  rw [readValue]
  · exact fun _ same => plain.1 (List.cons.inj same).1
  · exact fun _ same => plain.2.1 (List.cons.inj same).1
  · exact fun _ same => plain.2.2 (List.cons.inj same).1

theorem legible_scalar {c : Char} {more : Text} {value : Value}
    (plain : (c ≠ '"' ∧ c ≠ '[' ∧ c ≠ '\x7b') ∧ isGap c = false ∧ c ≠ ']' ∧ c ≠ '\x7d')
    (read : ∀ rest, Ends rest → readScalar (c :: (more ++ rest)) = .ok (value, rest)) :
    Legible readValue (c :: more) value := by
  refine ⟨⟨c, more, rfl, plain.2⟩, fun fuel rest fits ends => ?_⟩
  obtain ⟨fuel, rfl⟩ : ∃ less, fuel = less + 1 := ⟨fuel - 1, by omega⟩
  rw [List.cons_append, readValue_scalar plain.1]
  exact read rest ends

theorem legible_number {number : Int} (small : Decimal.isOversize number = false) :
    Legible readValue (Decimal.wholeText number) (.int number) := by
  cases number with
  | ofNat number =>
      obtain ⟨c, more, same, digit⟩ := Decimal.digits_eq_cons number
      obtain ⟨plain, n, t, f, nan, infinity, sign⟩ := digit_cases digit
      rw [Int.ofNat_eq_natCast, Decimal.wholeText_natCast, same]
      refine legible_scalar plain fun rest ends => ?_
      have found := readUnsigned_digits false small ends
      rw [Int.ofNat_eq_natCast, Int.natAbs_natCast, same, List.cons_append] at found
      have word : readWord (c :: (more ++ rest)) = none := by
        simp [readWord, words, n.symm, t.symm, f.symm, nan.symm, infinity.symm, sign.symm]
      rw [readScalar, word]
      · exact found
      · exact fun _ first => sign (List.cons.inj first).1
  | negSucc number =>
      refine legible_scalar (by decide) fun rest ends => ?_
      have found := readUnsigned_digits true small ends
      obtain ⟨c, more, same, digit⟩ := Decimal.digits_eq_cons (number + 1)
      obtain ⟨_, _, _, _, _, infinity, _⟩ := digit_cases digit
      rw [Int.natAbs_negSucc, same, List.cons_append] at found
      rw [same, List.cons_append]
      have word : readWord ('-' :: c :: (more ++ rest)) = none := by
        simp [readWord, words, infinity.symm]
      rw [readScalar, word]
      exact found

theorem legible_text (content : Text) : Legible readValue (encode content) (.text content) := by
  refine ⟨⟨'"', _, rfl, by decide⟩, fun fuel rest fits _ => ?_⟩
  obtain ⟨fuel, rfl⟩ : ∃ less, fuel = less + 1 := ⟨fuel - 1, by omega⟩
  change readValue (fuel + 1) ('"' :: (content.flatMap Text.encodeChar ++ ['"'] ++ rest)) = _
  rw [List.append_assoc, List.singleton_append, readValue, readText_encoded]

/-! ## Lists -/

/-- The readers of items go on behind a comma. -/
theorem sequence_readItems : Sequence readValue readItems ']' where
  last read skipped := by
    rw [readItems, read]
    simp only [bind, Except.bind, skipped]
    rfl
  more read skipped behind := by
    rw [readItems, read]
    simp only [bind, Except.bind, skipped, behind]
    rfl

theorem isGap_lineBreak (level : Nat) : ∀ c ∈ lineBreak level, isGap c = true := by
  intro c member
  rcases List.mem_cons.mp member with rfl | later
  · rfl
  · rw [List.eq_of_mem_replicate later]
    rfl

theorem ofText_andThen_andThen (first second : Text) (last : Output) :
    (Output.ofText first).andThen ((Output.ofText second).andThen last) =
      (Output.ofText (first ++ second)).andThen last := by
  simp only [Output.andThen, Output.ofText, List.append_assoc]

/-- What stands between two items at a level. -/
def separator (level : Nat) : Text := ',' :: lineBreak level

section Blocks

variable {α : Type} {level : Nat} {closing : Char} {write : α → Text} {more : List α → Output}

/-- Each item goes on behind a separator, and a closing mark ends the items. -/
theorem andThen_more (closed : more [] = .ofText (lineBreak level ++ [closing])) (lead : Text)
    {item : α} {items : List α}
    (next : ∀ other ∈ items, ∀ rest, more (other :: rest) =
      (Output.ofText (separator (level + 1) ++ write other)).andThen (more rest)) :
    (Output.ofText (lead ++ write item)).andThen (more items) =
      .ofText (lead ++ (separator (level + 1)).intercalate ((item :: items).map write) ++
        (lineBreak level ++ [closing])) := by
  induction items generalizing lead item with
  | nil =>
      rw [closed, Output.ofText_andThen, List.map_singleton, List.intercalate_singleton]
  | cons other items ih =>
      have later := @ih (lead ++ write item ++ separator (level + 1)) other
        fun third member => next third (List.mem_cons_of_mem other member)
      have joined : (separator (level + 1)).intercalate ((item :: other :: items).map write) =
          write item ++ separator (level + 1) ++
            (separator (level + 1)).intercalate ((other :: items).map write) :=
        List.intercalate_cons_cons
      rw [next other List.mem_cons_self, ofText_andThen_andThen, ← List.append_assoc, later, joined]
      simp only [List.append_assoc]

end Blocks

/-- Marks around items on lines of their own, or around nothing. -/
def boxText {α : Type} (level : Nat) (opening closing : Char) (write : α → Text)
    (items : List α) : Text :=
  match items with
  | [] => [opening, closing]
  | item :: items =>
      opening :: (lineBreak (level + 1) ++
        ((separator (level + 1)).intercalate ((item :: items).map write) ++ lineBreak level ++
          [closing]))

theorem writeItems_eq (level : Nat) {items : List Value}
    (written : ∀ item ∈ items, ∀ lead, writeValue (level + 1) lead item =
      .ofText (lead ++ valueText (level + 1) item)) :
    writeItems level items = .ofText (boxText level '[' ']' (valueText (level + 1)) items) := by
  cases items with
  | nil => rfl
  | cons item items =>
      rw [writeItems, written item List.mem_cons_self, andThen_more rfl]
      · simp [boxText]
      · intro other member rest
        rw [writeMoreItems, written other (List.mem_cons_of_mem item member)]
        rfl

theorem boxText_append (level : Nat) (opening closing : Char) {α : Type} (write : α → Text)
    (item : α) (items : List α) (rest : Text) :
    boxText level opening closing write (item :: items) ++ rest =
      opening :: (lineBreak (level + 1) ++
        ((',' :: lineBreak (level + 1)).intercalate ((item :: items).map write) ++
          lineBreak level ++ closing :: rest)) := by
  simp [boxText, separator]

/-- A list with its items read is a list. -/
theorem readValue_items {fuel : Nat} {gap start after : Text} {items : List Value}
    (skipped : skipGap gap = start) (opens : ∀ more, start ≠ ']' :: more)
    (read : readItems fuel start = .ok (items, after)) :
    readValue (fuel + 1) ('[' :: gap) = .ok (.list items, after) := by
  rw [readValue, skipped]
  split
  · exact absurd rfl (opens _)
  · rw [read]
    rfl

theorem legible_items (level : Nat) {items : List Value} {found : Value → Value}
    (kept : ∀ item ∈ items, Kept (level + 1) item (found item)) :
    Legible readValue (boxText level '[' ']' (valueText (level + 1)) items)
      (.list (items.map found)) := by
  cases items with
  | nil =>
      refine ⟨⟨'[', _, rfl, by decide⟩, fun fuel rest fits _ => ?_⟩
      obtain ⟨fuel, rfl⟩ : ∃ less, fuel = less + 1 := ⟨fuel - 1, by omega⟩
      rfl
  | cons item items =>
      refine ⟨⟨'[', _, rfl, by decide⟩, fun fuel rest fits _ => ?_⟩
      obtain ⟨fuel, rfl⟩ : ∃ less, fuel = less + 1 := ⟨fuel - 1, by omega⟩
      have size := congrArg List.length
        (boxText_append level '[' ']' (valueText (level + 1)) item items [])
      have inner : ((',' :: lineBreak (level + 1)).intercalate
          ((item :: items).map (valueText (level + 1))) ++ lineBreak level ++ [']']).length <
          fuel := by
        simp only [List.append_nil, List.length_append, List.length_cons] at size fits ⊢
        omega
      obtain ⟨start, skipped, opens, read⟩ := sequence_readItems.reads_behind (.inl rfl)
        (isGap_lineBreak (level + 1)) (isGap_lineBreak (level + 1)) (isGap_lineBreak level)
        (fun other member => (kept other member).legible) inner rest
      rw [boxText_append]
      exact readValue_items skipped opens read

theorem kept_items (level : Nat) {items : List Value} {found : Value → Value}
    (kept : ∀ item ∈ items, Kept (level + 1) item (found item)) :
    Kept level (.list items) (.list (items.map found)) ∧
      Kept level (.tuple items) (.list (items.map found)) := by
  have written := writeItems_eq level fun item member => (kept item member).written
  have legible := legible_items level kept
  exact ⟨.of_text (fun lead => by rw [writeValue, written, Output.ofText_andThen]) legible,
    .of_text (fun lead => by rw [writeValue, written, Output.ofText_andThen]) legible⟩

/-! ## Tables -/

/-- Reads a key, a colon and a value. -/
def readEntry (fuel : Nat) (text : Text) : Except Fault ((Value × Value) × Text) :=
  match text with
  | '"' :: rest =>
      match readText rest with
      | none => .error .malformed
      | some (key, after) =>
          match skipGap after with
          | ':' :: start => (readValue fuel (skipGap start)).map fun found =>
              ((key, found.1), found.2)
          | _ => .error .malformed
  | _ => .error .malformed

/-- An entry that is read consists of a text, a colon and a value. -/
theorem readEntry_cases {fuel : Nat} {text rest : Text} {entry : Value × Value}
    (read : readEntry fuel text = .ok (entry, rest)) :
    ∃ behind key after start value, text = '"' :: behind ∧ readText behind = some (key, after) ∧
      skipGap after = ':' :: start ∧ readValue fuel (skipGap start) = .ok (value, rest) ∧
      entry = (key, value) := by
  unfold readEntry at read
  split at read
  · split at read
    · cases read
    · next found =>
        split at read
        · next start colon =>
            cases value : readValue fuel (skipGap start) with
            | error fault =>
                rw [value] at read
                cases read
            | ok result =>
                rw [value] at read
                cases read
                exact ⟨_, _, _, start, _, rfl, found, colon, value, rfl⟩
        · cases read
  · cases read

theorem sequence_readEntries : Sequence readEntry readEntries '\x7d' where
  last first skipped := by
    obtain ⟨behind, key, after, start, value, rfl, found, colon, read, rfl⟩ := readEntry_cases first
    rw [readEntries, found]
    simp only [bind, Except.bind, colon, read, skipped]
    rfl
  more first skipped later := by
    obtain ⟨behind, key, after, start, value, rfl, found, colon, read, rfl⟩ := readEntry_cases first
    rw [readEntries, found]
    simp only [bind, Except.bind, colon, read, skipped, later]
    rfl

/-- A table with its entries read is a table. -/
theorem readValue_entries {fuel : Nat} {gap start after : Text} {entries : List (Value × Value)}
    (skipped : skipGap gap = start) (opens : ∀ more, start ≠ '\x7d' :: more)
    (read : readEntries fuel start = .ok (entries, after)) :
    readValue (fuel + 1) ('\x7b' :: gap) = .ok (.table (Table.ofList entries), after) := by
  rw [readValue, skipped]
  split
  · exact absurd rfl (opens _)
  · rw [read]
    rfl

/-- An entry as it is written at a level. -/
def entryText (level : Nat) (entry : Value × Value) : Text :=
  encode (keyName entry.1) ++ [':', ' '] ++ valueText level entry.2

theorem legible_entryText {level : Nat} {entry : Value × Value} {found : Value}
    (kept : Kept level entry.2 found) :
    Legible readEntry (entryText level entry) (.text (keyName entry.1), found) := by
  have shape (rest : Text) : entryText level entry ++ rest =
      '"' :: ((keyName entry.1).flatMap Text.encodeChar ++ '"' ::
        ':' :: ([' '] ++ (valueText level entry.2 ++ rest))) := by
    simp [entryText, encode]
  refine ⟨⟨'"', _, rfl, by decide⟩, fun fuel rest fits ends => ?_⟩
  have size := congrArg List.length (shape [])
  simp only [List.append_nil, List.length_append, List.length_cons] at size
  have read := kept.legible.reads fuel rest (by omega) ends
  obtain ⟨c, more, same, gap, _⟩ := kept.legible.opens
  have skipped : skipGap ([' '] ++ (valueText level entry.2 ++ rest)) =
      valueText level entry.2 ++ rest := by
    rw [same, List.cons_append]
    exact skipGap_append (List.forall_mem_singleton.mpr rfl) gap _
  have colon (behind : Text) : skipGap (':' :: behind) = ':' :: behind := rfl
  rw [shape, readEntry, readText_encoded]
  simp only [colon, skipped, read]
  rfl

theorem writeEntries_eq (level : Nat) {entries : List (Value × Value)}
    (named : ∀ entry ∈ entries, keyText entry.1 = .ok (keyName entry.1))
    (written : ∀ entry ∈ entries, ∀ lead, writeValue (level + 1) lead entry.2 =
      .ofText (lead ++ valueText (level + 1) entry.2)) :
    writeEntries level entries =
      .ofText (boxText level '\x7b' '\x7d' (entryText (level + 1)) entries) := by
  have entry (found : Value × Value) (lead : Text) (member : found ∈ entries) :
      (Output.ofText (lead ++ encode (keyName found.1) ++ [':', ' '])).andThen
        (writeValue (level + 1) [] found.2) = .ofText (lead ++ entryText (level + 1) found) := by
    rw [written found member, List.nil_append, Output.ofText_andThen, entryText]
    simp only [List.append_assoc]
  cases entries with
  | nil => rfl
  | cons first entries =>
      obtain ⟨key, value⟩ := first
      have own := entry (key, value) [] List.mem_cons_self
      rw [writeEntries, named (key, value) List.mem_cons_self]
      rw [List.nil_append] at own
      dsimp only at own ⊢
      rw [own, List.nil_append, ofText_andThen_andThen, andThen_more rfl]
      · simp [boxText]
      · intro other member rest
        have among := List.mem_cons_of_mem (key, value) member
        rw [writeMoreEntries, named other among]
        dsimp only
        exact congrArg (fun output => Output.andThen output _) (entry other _ among)

theorem kept_entries (level : Nat) {entries : List (Value × Value)} {found : Value → Value}
    (named : ∀ entry ∈ entries, keyText entry.1 = .ok (keyName entry.1))
    (kept : ∀ entry ∈ entries, Kept (level + 1) entry.2 (found entry.2)) :
    Kept level (.table entries)
      (.table (Table.ofList
        (entries.map fun entry => (.text (keyName entry.1), found entry.2)))) := by
  have written := writeEntries_eq level named fun entry member => (kept entry member).written
  refine .of_text (fun lead => by rw [writeValue, written, Output.ofText_andThen]) ?_
  cases entries with
  | nil =>
      refine ⟨⟨'\x7b', _, rfl, by decide⟩, fun fuel rest fits _ => ?_⟩
      obtain ⟨fuel, rfl⟩ : ∃ less, fuel = less + 1 := ⟨fuel - 1, by omega⟩
      rfl
  | cons entry entries =>
      refine ⟨⟨'\x7b', _, rfl, by decide⟩, fun fuel rest fits _ => ?_⟩
      obtain ⟨fuel, rfl⟩ : ∃ less, fuel = less + 1 := ⟨fuel - 1, by omega⟩
      have size := congrArg List.length
        (boxText_append level '\x7b' '\x7d' (entryText (level + 1)) entry entries [])
      have inner : ((',' :: lineBreak (level + 1)).intercalate
          ((entry :: entries).map (entryText (level + 1))) ++ lineBreak level ++ ['\x7d']).length <
          fuel := by
        simp only [List.append_nil, List.length_append, List.length_cons] at size fits ⊢
        omega
      obtain ⟨start, skipped, opens, read⟩ := sequence_readEntries.reads_behind (.inr rfl)
        (isGap_lineBreak (level + 1)) (isGap_lineBreak (level + 1)) (isGap_lineBreak level)
        (fun other member => legible_entryText (kept other member)) inner rest
      rw [boxText_append]
      exact readValue_entries skipped opens read

/-! ## Values -/

theorem keyText_eq_of_isOk {key : Value} (named : (keyText key).isOk = true) :
    keyText key = .ok (keyName key) := by
  rw [keyName]
  cases same : keyText key with
  | ok name => rfl
  | error failure =>
      rw [same] at named
      cases named

mutual

/-- A writable value is written as a whole and read back. -/
theorem kept_value (level : Nat) :
    ∀ value, isWritable value = true → Kept level value (reread value)
  | .null => fun _ => .of_text (fun _ => rfl) (legible_scalar (by decide) fun _ _ => rfl)
  | .bool true => fun _ => .of_text (fun _ => rfl) (legible_scalar (by decide) fun _ _ => rfl)
  | .bool false => fun _ => .of_text (fun _ => rfl) (legible_scalar (by decide) fun _ _ => rfl)
  | .int number => fun writable => by
      rw [isWritable, Bool.not_eq_true'] at writable
      refine .of_text (fun lead => ?_) (legible_number writable)
      rw [writeValue, leadNumber, writable]
      rfl
  | .float _ => nofun
  | .text content => fun _ => .of_text (fun _ => rfl) (legible_text content)
  | .ragged _ => nofun
  | .list items => fun writable => by
      rw [reread, rereadAll_eq]
      exact (kept_items level (kept_item (level + 1) items writable)).1
  | .tuple items => fun writable => by
      rw [reread, rereadAll_eq]
      exact (kept_items level (kept_item (level + 1) items writable)).2
  | .table entries => fun writable => by
      rw [reread, rereadEntries_eq]
      exact kept_entries level (fun entry member => (kept_entry (level + 1) entries writable entry
        member).1) fun entry member => (kept_entry (level + 1) entries writable entry member).2
  | .moment _ => nofun
  | .node _ => nofun

theorem kept_item (level : Nat) :
    ∀ items, allWritable items = true → ∀ item ∈ items, Kept level item (reread item)
  | [] => fun _ _ member => absurd member List.not_mem_nil
  | first :: items => fun writable item member => by
      rw [allWritable, Bool.and_eq_true] at writable
      rcases List.mem_cons.mp member with same | later
      · rw [same]
        exact kept_value level first writable.1
      · exact kept_item level items writable.2 item later

theorem kept_entry (level : Nat) :
    ∀ entries, entriesWritable entries = true → ∀ entry ∈ entries,
      keyText entry.1 = .ok (keyName entry.1) ∧ Kept level entry.2 (reread entry.2)
  | [] => fun _ _ member => absurd member List.not_mem_nil
  | (key, value) :: entries => fun writable entry member => by
      simp only [entriesWritable, Bool.and_eq_true] at writable
      rcases List.mem_cons.mp member with same | later
      · rw [same]
        exact ⟨keyText_eq_of_isOk writable.1.1, kept_value level value writable.1.2⟩
      · exact kept_entry level entries writable.2 entry later

end

/-- A writable value is written without failure, and its whole text is read back. -/
theorem read_write {value : Value} (writable : isWritable value = true) :
    ∃ text, write value = .ofText text ∧ read text = .ok (reread value) := by
  obtain ⟨written, legible⟩ := kept_value 0 value writable
  obtain ⟨c, more, same, gap, _⟩ := legible.opens
  have skipped : skipGap (valueText 0 value) = valueText 0 value := by
    rw [same]
    have none : ∀ c ∈ ([] : Text), isGap c = true := nofun
    exact skipGap_append none gap more
  have found := legible.reads _ [] (Nat.lt_succ_self _) ends_nil
  rw [List.append_nil] at found
  refine ⟨valueText 0 value, written [], ?_⟩
  rw [read, skipped, found]
  rfl

/-! ## JSON data -/

mutual

/-- Data of null, truth values, numbers, texts, lists and tables, whose keys are texts and not
repeated. -/
def isJsonData : Value → Bool
  | .null => true
  | .bool _ => true
  | .int number => !Decimal.isOversize number
  | .text _ => true
  | .ragged _ => true
  | .list items => allJsonData items
  | .table entries => entriesJsonData entries
  | _ => false

def allJsonData : List Value → Bool
  | [] => true
  | item :: items => isJsonData item && allJsonData items

def entriesJsonData : List (Value × Value) → Bool
  | [] => true
  | (key, value) :: entries =>
      key.points?.isSome && entries.all (fun entry => !key.same entry.1) && isJsonData value &&
        entriesJsonData entries

end

theorem isJsonData_of_isText {value : Value} (text : value.IsText) : isJsonData value = true := by
  rcases Value.isText_iff.mp text with ⟨content, rfl⟩ | ⟨content, rfl⟩ <;> rfl

theorem isJsonData_list {items : List Value} :
    isJsonData (.list items) = true ↔ ∀ item ∈ items, isJsonData item = true := by
  rw [isJsonData]
  induction items with
  | nil => exact ⟨nofun, fun _ => rfl⟩
  | cons item items ih => rw [allJsonData, Bool.and_eq_true, ih, List.forall_mem_cons]

/-- The entries of JSON data have texts for keys, JSON data for values, and no repeated keys. -/
theorem isJsonData_table {entries : List (Value × Value)} :
    isJsonData (.table entries) = true ↔
      Table.Lawful entries ∧
        ∀ entry ∈ entries, entry.1.IsText ∧ isJsonData entry.2 = true := by
  rw [isJsonData]
  induction entries with
  | nil => exact ⟨fun _ => ⟨List.Pairwise.nil, List.forall_mem_nil _⟩, fun _ => rfl⟩
  | cons entry entries ih =>
      obtain ⟨key, value⟩ := entry
      have others : entries.all (fun entry => !key.same entry.1) = true ↔
          ∀ other ∈ entries, key.same other.1 = false := by
        rw [List.all_eq_true]
        simp only [Bool.not_eq_true']
      rw [List.forall_mem_cons, Table.Lawful, List.pairwise_cons, entriesJsonData,
        Bool.and_eq_true, Bool.and_eq_true, Bool.and_eq_true, ih, others, Option.isSome_iff_exists]
      constructor
      · rintro ⟨⟨⟨text, fresh⟩, own⟩, lawful, behind⟩
        exact ⟨⟨fresh, lawful⟩, ⟨text, own⟩, behind⟩
      · rintro ⟨⟨fresh, lawful⟩, ⟨text, own⟩, behind⟩
        exact ⟨⟨⟨text, fresh⟩, own⟩, lawful, behind⟩

/-! ### Data with a surrogate -/

/-- What a ragged text keeps from being written. -/
def tornFailure (torn : Bool) : Option Failure := if torn then some .unencodable else none

theorem tornFailure_or (first second : Bool) :
    (tornFailure first).or (tornFailure second) = tornFailure (first || second) := by
  cases first <;> rfl

theorem entryFailure_eq_torn {entries : List (Value × Value)}
    (torn : ∀ entry ∈ entries, keyFailure entry.1 = tornFailure entry.1.holdsRagged ∧
      writeFailure entry.2 = tornFailure entry.2.holdsRagged) :
    entryFailure entries = tornFailure (Value.entryRagged entries) := by
  induction entries with
  | nil => rfl
  | cons entry entries ih =>
      obtain ⟨⟨key, value⟩, others⟩ := List.forall_mem_cons.mp torn
      rw [entryFailure, Value.entryRagged, key, value, ih others, tornFailure_or, tornFailure_or,
        Bool.or_assoc]

theorem keyFailure_of_isText {key : Value} (text : key.IsText) :
    keyFailure key = tornFailure key.holdsRagged := by
  rcases Value.isText_iff.mp text with ⟨content, rfl⟩ | ⟨content, rfl⟩ <;> rfl

mutual

/-- JSON data is written unless it holds a ragged text. -/
theorem writeFailure_of_isJsonData :
    ∀ value, isJsonData value = true → writeFailure value = tornFailure value.holdsRagged
  | .null | .bool _ | .text _ | .ragged _ => fun _ => rfl
  | .int number => fun data => by
      rw [isJsonData, Bool.not_eq_true'] at data
      rw [writeFailure, data]
      rfl
  | .list items => itemFailure_of_allJsonData items
  | .table entries => fun data => by
      refine entryFailure_eq_torn fun entry among => ?_
      exact ⟨keyFailure_of_isText ((isJsonData_table.mp data).2 entry among).1,
        writeFailure_of_entriesJsonData entries data entry among⟩
  | .float _ | .tuple _ | .moment _ | .node _ => nofun

theorem itemFailure_of_allJsonData :
    ∀ items, allJsonData items = true → itemFailure items = tornFailure (Value.anyRagged items)
  | [] => fun _ => rfl
  | item :: items => fun data => by
      rw [allJsonData, Bool.and_eq_true] at data
      rw [itemFailure, Value.anyRagged, writeFailure_of_isJsonData item data.1,
        itemFailure_of_allJsonData items data.2, tornFailure_or]

theorem writeFailure_of_entriesJsonData :
    ∀ entries, entriesJsonData entries = true →
      ∀ entry ∈ entries, writeFailure entry.2 = tornFailure entry.2.holdsRagged
  | [] => fun _ _ member => absurd member List.not_mem_nil
  | (key, value) :: entries => fun data entry member => by
      rw [entriesJsonData, Bool.and_eq_true, Bool.and_eq_true] at data
      rcases List.mem_cons.mp member with same | later
      · rw [same]
        exact writeFailure_of_isJsonData value data.1.2
      · exact writeFailure_of_entriesJsonData entries data.2 entry later

end

/-! ### Data without surrogates -/

mutual

/-- JSON data without ragged texts is written and read back as it is. -/
theorem writable_of_isJsonData :
    ∀ value, isJsonData value = true → value.holdsRagged = false →
      isWritable value = true ∧ reread value = value
  | .null => fun _ _ => ⟨rfl, rfl⟩
  | .bool _ => fun _ _ => ⟨rfl, rfl⟩
  | .int number => fun data _ => ⟨data, rfl⟩
  | .float _ => nofun
  | .text _ => fun _ _ => ⟨rfl, rfl⟩
  | .ragged _ => nofun
  | .list items => fun data whole => by
      obtain ⟨writable, same⟩ := allWritable_of_allJsonData items data whole
      exact ⟨writable, congrArg Value.list same⟩
  | .tuple _ => nofun
  | .table entries => fun data whole => by
      obtain ⟨writable, same⟩ := entriesWritable_of_entriesJsonData entries data whole
      refine ⟨writable, ?_⟩
      rw [reread, same, Table.ofList_of_lawful (isJsonData_table.mp data).1]
  | .moment _ => nofun
  | .node _ => nofun

theorem allWritable_of_allJsonData :
    ∀ items, allJsonData items = true → Value.anyRagged items = false →
      allWritable items = true ∧ rereadAll items = items
  | [] => fun _ _ => ⟨rfl, rfl⟩
  | item :: items => fun data whole => by
      rw [allJsonData, Bool.and_eq_true] at data
      rw [Value.anyRagged, Bool.or_eq_false_iff] at whole
      obtain ⟨first, same⟩ := writable_of_isJsonData item data.1 whole.1
      obtain ⟨others, kept⟩ := allWritable_of_allJsonData items data.2 whole.2
      exact ⟨by rw [allWritable, first, others]; rfl, by rw [rereadAll, same, kept]⟩

theorem entriesWritable_of_entriesJsonData :
    ∀ entries, entriesJsonData entries = true → Value.entryRagged entries = false →
      entriesWritable entries = true ∧ rereadEntries entries = entries
  | [] => fun _ _ => ⟨rfl, rfl⟩
  | (key, value) :: entries => fun data whole => by
      rw [Value.entryRagged, Bool.or_eq_false_iff, Bool.or_eq_false_iff] at whole
      obtain ⟨⟨plain, inner⟩, behind⟩ := whole
      cases key with
      | text name =>
          rw [entriesJsonData, Bool.and_eq_true, Bool.and_eq_true] at data
          obtain ⟨own, same⟩ := writable_of_isJsonData value data.1.2 inner
          obtain ⟨others, kept⟩ := entriesWritable_of_entriesJsonData entries data.2 behind
          exact ⟨by rw [entriesWritable, own, others]; rfl, by rw [rereadEntries, same, kept]; rfl⟩
      | ragged _ => cases plain
      | _ => cases data

end

end TypeScriptGen.Json
