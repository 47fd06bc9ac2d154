import TypeScriptGen.Proofs.Json.Reading
import TypeScriptGen.Proofs.Text.Delimited
import TypeScriptGen.Proofs.Text.Laying
import TypeScriptGen.Proofs.Value.Leaves

/-!
# What a literal denotes

Literals of TypeScript data are read as JSON is, except that the keys of objects
are bare identifiers and numbers are whole. The literal of plain data is read as
this data at every level of nesting, with tuples as lists and entries in their
order, and nothing of it is left over.
-/

namespace TypeScriptGen.Value

open Json (Fault Legible Ends skipGap)

/-! ## A reader of literals -/

/-- The words among literals. -/
def literalWords : List (Text × Value) :=
  [("null".toList, .null), ("true".toList, .bool true), ("false".toList, .bool false)]

/-- Reads the digits of a whole number. -/
def readInteger (negative : Bool) (text : Text) : Except Fault (Value × Text) :=
  match Json.readWhole text with
  | some (digits, rest) =>
      let size : Int := Decimal.ofDigits digits
      .ok (.int (if negative then -size else size), rest)
  | none => .error .malformed

/-- Reads a word or a whole number. -/
def readAtom (text : Text) : Except Fault (Value × Text) :=
  match literalWords.find? fun word => word.1.isPrefixOf text with
  | some (word, value) => .ok (value, text.drop word.length)
  | none =>
      match text with
      | '-' :: rest => readInteger true rest
      | _ => readInteger false text

/-- Reads an identifier as a key. -/
def readKey : Text → Except Fault (Text × Text)
  | [] => .error .malformed
  | c :: rest =>
      if Text.isIdentifierStart c then
        .ok (c :: rest.takeWhile Text.isIdentifierPart, rest.dropWhile Text.isIdentifierPart)
      else .error .malformed

/-- Reads a key, a colon and a value. -/
def readEntry (value : Text → Except Fault (Value × Text)) (text : Text) :
    Except Fault ((Value × Value) × Text) := do
  let (key, rest) ← readKey text
  match skipGap rest with
  | ':' :: start => do
      let (found, after) ← value (skipGap start)
      pure ((.text key, found), after)
  | _ => .error .malformed

/-- Reads items with commas between them up to a closing mark. -/
def readAll {α : Type} (one : Text → Except Fault (α × Text)) (closing : Char) :
    Nat → Text → Except Fault (List α × Text)
  | 0, _ => .error .malformed
  | fuel + 1, source => do
      let (found, rest) ← one source
      match skipGap rest with
      | [] => .error .malformed
      | c :: more =>
          if c = closing then pure ([found], more)
          else if c = ',' then do
            let (others, after) ← readAll one closing fuel (skipGap more)
            pure (found :: others, after)
          else .error .malformed

/-- Reads a literal at the start of a text; each step into it takes at least one character. -/
def readLiteral : Nat → Text → Except Fault (Value × Text)
  | 0, _ => .error .malformed
  | fuel + 1, source =>
      match source with
      | '"' :: rest =>
          match Json.readText rest with
          | some found => .ok found
          | none => .error .malformed
      | '[' :: rest =>
          match skipGap rest with
          | ']' :: after => .ok (.list [], after)
          | start => do
              let (items, after) ← readAll (readLiteral fuel) ']' fuel start
              pure (.list items, after)
      | '\x7b' :: rest =>
          match skipGap rest with
          | '\x7d' :: after => .ok (.table [], after)
          | start => do
              let (entries, after) ← readAll (readEntry (readLiteral fuel)) '\x7d' fuel start
              pure (.table entries, after)
      | _ => readAtom source

/-- The value that a whole text denotes. -/
def ofLiteral? (text : Text) : Option Value :=
  match readLiteral (text.length + 1) text with
  | .ok (value, []) => some value
  | _ => none

mutual

/-- The data as a literal shows it: tuples are lists. -/
def denoted : Value → Value
  | .list items => .list (denotedAll items)
  | .tuple items => .list (denotedAll items)
  | .table entries => .table (denotedEntries entries)
  | value => value

def denotedAll : List Value → List Value
  | [] => []
  | item :: items => denoted item :: denotedAll items

def denotedEntries : List (Value × Value) → List (Value × Value)
  | [] => []
  | (key, value) :: entries => (key, denoted value) :: denotedEntries entries

end

theorem denotedAll_eq (items : List Value) : denotedAll items = items.map denoted := by
  induction items with
  | nil => rfl
  | cons item items ih => rw [denotedAll, ih, List.map_cons]

theorem denotedEntries_eq (entries : List (Value × Value)) :
    denotedEntries entries = entries.map fun entry => (entry.1, denoted entry.2) := by
  induction entries with
  | nil => rfl
  | cons entry entries ih =>
      obtain ⟨key, value⟩ := entry
      rw [denotedEntries, ih, List.map_cons]

/-! ## Parts of literals -/

/-- A literal that starts with no quote, bracket or brace is a word or a number. -/
theorem readLiteral_atom {c : Char} (plain : c ≠ '"' ∧ c ≠ '[' ∧ c ≠ '\x7b') (fuel : Nat)
    (rest : Text) : readLiteral (fuel + 1) (c :: rest) = readAtom (c :: rest) := by
  rw [readLiteral]
  · exact fun _ same => plain.1 (List.cons.inj same).1
  · exact fun _ same => plain.2.1 (List.cons.inj same).1
  · exact fun _ same => plain.2.2 (List.cons.inj same).1

theorem legible_word {c : Char} {more : Text} {value : Value}
    (plain : (c ≠ '"' ∧ c ≠ '[' ∧ c ≠ '\x7b') ∧ Json.isGap c = false ∧ c ≠ ']' ∧ c ≠ '\x7d')
    (read : ∀ rest, readAtom (c :: more ++ rest) = .ok (value, rest)) :
    Legible readLiteral (c :: more) value := by
  refine ⟨⟨c, more, rfl, plain.2⟩, fun fuel rest fits ends => ?_⟩
  obtain ⟨fuel, rfl⟩ : ∃ less, fuel = less + 1 := ⟨fuel - 1, by omega⟩
  rw [List.cons_append, readLiteral_atom plain.1]
  exact read rest

theorem readInteger_digits (negative : Bool) (number : Nat) {rest : Text} (ends : Ends rest) :
    readInteger negative (Decimal.digits number ++ rest) =
      .ok (.int (if negative then -(number : Int) else number), rest) := by
  simp only [readInteger, Json.readWhole_digits number ends, Decimal.ofDigits_digits]

/-- The form of a whole number is a digit, or a minus sign and a digit, and more. -/
theorem readAtom_wholeText (number : Int) {rest : Text} (ends : Ends rest) :
    readAtom (Decimal.wholeText number ++ rest) = .ok (.int number, rest) := by
  have noWord {c : Char} (letter : c ≠ 'n' ∧ c ≠ 't' ∧ c ≠ 'f') (more : Text) :
      literalWords.find? (fun word => word.1.isPrefixOf (c :: more)) = none := by
    simp [literalWords, letter.1.symm, letter.2.1.symm, letter.2.2.symm]
  cases number with
  | ofNat number =>
      have found := readInteger_digits false number ends
      obtain ⟨c, more, same, digit⟩ := Decimal.digits_eq_cons number
      obtain ⟨_, n, t, f, _, _, sign⟩ := Json.digit_cases digit
      rw [Int.ofNat_eq_natCast, Decimal.wholeText_natCast]
      rw [same, List.cons_append] at found ⊢
      rw [readAtom, noWord ⟨n, t, f⟩]
      · exact found
      · exact fun _ first => sign (List.cons.inj first).1
  | negSucc number =>
      change readAtom ('-' :: (Decimal.digits (number + 1) ++ rest)) = _
      rw [readAtom, noWord (by decide)]
      exact readInteger_digits true (number + 1) ends

theorem legible_int (number : Int) :
    Legible readLiteral (Decimal.wholeText number) (.int number) := by
  obtain ⟨c, more, same, first⟩ := Decimal.wholeText_eq_cons number
  have marks : (c ≠ '"' ∧ c ≠ '[' ∧ c ≠ '\x7b') ∧ Json.isGap c = false ∧ c ≠ ']' ∧ c ≠ '\x7d' := by
    rcases first with digit | rfl
    · exact (Json.digit_cases digit).1
    · decide
  obtain ⟨plain, mark⟩ := marks
  refine ⟨⟨c, more, same, mark⟩, fun fuel rest fits ends => ?_⟩
  obtain ⟨fuel, rfl⟩ : ∃ less, fuel = less + 1 := ⟨fuel - 1, by omega⟩
  have found := readAtom_wholeText number ends
  rw [same, List.cons_append] at found ⊢
  rw [readLiteral_atom plain]
  exact found

theorem legible_text (content : Text) :
    Legible readLiteral (Text.encode content) (.text content) := by
  refine ⟨⟨'"', _, rfl, by decide⟩, fun fuel rest fits _ => ?_⟩
  obtain ⟨fuel, rfl⟩ : ∃ less, fuel = less + 1 := ⟨fuel - 1, by omega⟩
  change readLiteral (fuel + 1) ('"' :: (content.flatMap Text.encodeChar ++ ['"'] ++ rest)) = _
  rw [List.append_assoc, List.singleton_append, readLiteral, Json.readText_encoded]

/-! ## Lists and objects -/

/-- The readers of items and entries go on behind a comma. -/
theorem sequence_readAll {α : Type} (one : Text → Except Fault (α × Text)) {closing : Char}
    (other : closing ≠ ',') : Json.Sequence (fun _ => one) (readAll one closing) closing where
  last read skipped := by
    rw [readAll, read]
    simp only [bind, Except.bind, skipped, if_true]
    rfl
  more read skipped behind := by
    rw [readAll, read]
    simp only [bind, Except.bind, skipped, if_neg other.symm, if_true, behind]
    rfl

/-- With enough fuel for a text, the reader reads it whatever fuel its caller has left. -/
theorem legible_with {α : Type} {read : Nat → Text → Except Fault (α × Text)} {text : Text}
    {value : α} (legible : Legible read text value) {fuel : Nat} (fits : text.length < fuel) :
    Legible (fun _ => read fuel) text value :=
  ⟨legible.opens, fun _ rest _ ends => legible.reads fuel rest fits ends⟩

/-- A list with its items read is a list. -/
theorem readLiteral_items {fuel : Nat} {gap start after : Text} {items : List Value}
    (skipped : skipGap gap = start) (opens : ∀ more, start ≠ ']' :: more)
    (read : readAll (readLiteral fuel) ']' fuel start = .ok (items, after)) :
    readLiteral (fuel + 1) ('[' :: gap) = .ok (.list items, after) := by
  rw [readLiteral, skipped]
  split
  · exact absurd rfl (opens _)
  · rw [read]
    rfl

theorem readLiteral_entries {fuel : Nat} {gap start after : Text} {entries : List (Value × Value)}
    (skipped : skipGap gap = start) (opens : ∀ more, start ≠ '\x7d' :: more)
    (read : readAll (readEntry (readLiteral fuel)) '\x7d' fuel start = .ok (entries, after)) :
    readLiteral (fuel + 1) ('\x7b' :: gap) = .ok (.table entries, after) := by
  rw [readLiteral, skipped]
  split
  · exact absurd rfl (opens _)
  · rw [read]
    rfl

section Joined

variable {α β : Type} {one : Nat → Text → Except Fault (α × Text)} {closing : Char}
  {write : β → Text} {held : β → α} {space pad lead : Text}

/-- Legible items are read up to the closing mark, behind the blanks in front of them. -/
theorem readAll_joined (mark : closing = ']' ∨ closing = '\x7d')
    (leads : ∀ c ∈ lead, Json.isGap c = true) (spaces : ∀ c ∈ space, Json.isGap c = true)
    (pads : ∀ c ∈ pad, Json.isGap c = true) {item : β} {items : List β}
    (legible : ∀ other ∈ item :: items, Legible one (write other) (held other)) {fuel : Nat}
    (fits : ((',' :: space).intercalate ((item :: items).map write) ++ pad ++ [closing]).length <
      fuel) (rest : Text) :
    ∃ start, skipGap (lead ++ ((',' :: space).intercalate ((item :: items).map write) ++ pad ++
        closing :: rest)) = start ∧ (∀ more, start ≠ closing :: more) ∧
      readAll (one fuel) closing fuel start = .ok ((item :: items).map held, rest) := by
  have within : ∀ other ∈ item :: items, (write other).length < fuel := by
    intro other member
    have inside := (Text.infix_intercalate (',' :: space)
      (List.mem_map_of_mem (f := write) member)).length_le
    simp only [List.length_append] at fits
    omega
  exact (sequence_readAll (one fuel) (by rcases mark with rfl | rfl <;> decide)).reads_behind mark
    leads spaces pads
    (fun other member => legible_with (legible other member) (within other member)) fits rest

end Joined

theorem legible_bracket {items : List Value} {write : Value → Text} {held : Value → Value}
    (legible : ∀ item ∈ items, Legible readLiteral (write item) (held item)) :
    Legible readLiteral (bracket '[' ']' (items.map write)) (.list (items.map held)) := by
  refine ⟨⟨'[', _, rfl, by decide⟩, fun fuel rest fits _ => ?_⟩
  obtain ⟨fuel, rfl⟩ : ∃ less, fuel = less + 1 := ⟨fuel - 1, by omega⟩
  cases items with
  | nil => rfl
  | cons item items =>
      have shape : bracket '[' ']' ((item :: items).map write) ++ rest =
          '[' :: ([] ++ ([',', ' '].intercalate ((item :: items).map write) ++ [] ++
            ']' :: rest)) := by
        simp [bracket]
      rw [shape]
      have none : ∀ c ∈ ([] : Text), Json.isGap c = true := nofun
      have blank : ∀ c ∈ [' '], Json.isGap c = true := List.forall_mem_singleton.mpr rfl
      have inner : ([',', ' '].intercalate ((item :: items).map write) ++ [] ++ [']']).length <
          fuel := by simpa [bracket] using fits
      obtain ⟨start, skipped, opens, read⟩ :=
        readAll_joined (.inl rfl) none blank none legible inner rest
      exact readLiteral_items skipped opens read

theorem isGap_levelMargin (level : Int) : ∀ c ∈ levelMargin level, Json.isGap c = true := by
  intro c member
  rw [List.eq_of_mem_replicate member]
  rfl

theorem isGap_line (level : Int) : ∀ c ∈ '\n' :: levelMargin level, Json.isGap c = true := by
  intro c member
  rcases List.mem_cons.mp member with rfl | later
  · rfl
  · exact isGap_levelMargin level c later

theorem legible_braces (level : Int) {entries : List (Value × Value)} {write : Value × Value → Text}
    {held : Value × Value → Value × Value}
    (legible : ∀ entry ∈ entries,
      Legible (fun fuel => readEntry (readLiteral fuel)) (write entry) (held entry)) :
    Legible readLiteral (braces level (entries.map write)) (.table (entries.map held)) := by
  have opens : ∃ more, braces level (entries.map write) = '\x7b' :: more := by
    unfold braces
    split
    · exact ⟨_, rfl⟩
    · exact ⟨_, rfl⟩
  obtain ⟨more, opens⟩ := opens
  refine ⟨⟨'\x7b', more, opens, by decide⟩, fun fuel rest fits _ => ?_⟩
  obtain ⟨fuel, rfl⟩ : ∃ less, fuel = less + 1 := ⟨fuel - 1, by omega⟩
  cases entries with
  | nil => rfl
  | cons entry entries =>
      have shape (behind : Text) : braces level ((entry :: entries).map write) ++ behind =
          '\x7b' :: ('\n' :: levelMargin level ++ ((',' :: '\n' :: levelMargin level).intercalate
            ((entry :: entries).map write) ++ '\n' :: levelMargin (level - 1) ++
              '\x7d' :: behind)) := by
        rw [braces, List.map_cons, if_neg (by simp), Text.intercalate_margin]
        simp
      have size := congrArg List.length (shape [])
      rw [shape]
      have inner : ((',' :: '\n' :: levelMargin level).intercalate ((entry :: entries).map write) ++
          '\n' :: levelMargin (level - 1) ++ ['\x7d']).length < fuel := by
        simp only [List.length_append, List.length_cons, List.length_nil] at size fits ⊢
        omega
      obtain ⟨start, skipped, opens, read⟩ := readAll_joined (.inr rfl) (isGap_line level)
        (isGap_line level) (isGap_line (level - 1)) legible inner rest
      exact readLiteral_entries skipped opens read

/-! ## Entries -/

/-- An identifier starts with no blank and no mark. -/
theorem isGap_of_isIdentifierStart {c : Char} (start : Text.isIdentifierStart c = true) :
    Json.isGap c = false ∧ c ≠ ']' ∧ c ≠ '\x7d' := by
  have part := Text.isReferencePart_of_isIdentifierStart c start
  refine ⟨?_, ?_, ?_⟩
  · rw [Bool.eq_false_iff]
    intro gap
    simp only [Json.isGap, Bool.or_eq_true, beq_iff_eq] at gap
    rcases gap with ((rfl | rfl) | rfl) | rfl <;> revert part <;> decide
  · rintro rfl
    revert part
    decide
  · rintro rfl
    revert part
    decide

/-- A key is read up to the colon behind it. -/
theorem readKey_identifier {key : Text} (identifier : Text.isIdentifier key = true) (rest : Text) :
    readKey (key ++ ':' :: rest) = .ok (key, ':' :: rest) := by
  cases key with
  | nil => cases identifier
  | cons c more =>
      rw [Text.isIdentifier, Bool.and_eq_true] at identifier
      have parts : ∀ d ∈ more, Text.isIdentifierPart d = true := List.all_eq_true.mp identifier.2
      have stops : ∀ d ∈ (':' :: rest).head?, Text.isIdentifierPart d = false := by
        rintro d ⟨⟩
        decide
      rw [List.cons_append, readKey, if_pos identifier.1, Json.takeWhile_append parts stops,
        Json.dropWhile_append parts stops]

theorem readEntry_colon {read : Text → Except Fault (Value × Text)} {source key start after : Text}
    {found : Value} (name : readKey source = .ok (key, ':' :: start))
    (value : read (skipGap start) = .ok (found, after)) :
    readEntry read source = .ok ((.text key, found), after) := by
  have colon : skipGap (':' :: start) = ':' :: start := rfl
  rw [readEntry, name]
  simp only [bind, Except.bind, colon, value]
  rfl

theorem legible_entryText {level : Int} {key : Text} {value found : Value}
    (identifier : Text.isIdentifier key = true)
    (legible : Legible readLiteral (literal level value) found) :
    Legible (fun fuel => readEntry (readLiteral fuel)) (entryText level (.text key, value))
      (.text key, found) := by
  have shape (rest : Text) : entryText level (.text key, value) ++ rest =
      key ++ ':' :: ([' '] ++ (literal level value ++ rest)) := by
    change key ++ ": ".toList ++ literal level value ++ rest = _
    simp
  constructor
  · obtain ⟨c, more, same, start⟩ := Text.exists_cons_of_isIdentifier identifier
    refine ⟨c, more ++ ':' :: ([' '] ++ literal level value), ?_, isGap_of_isIdentifierStart start⟩
    rw [← List.append_nil (entryText _ _), shape, same, List.append_nil, List.cons_append]
  · intro fuel rest fits ends
    have size := congrArg List.length (shape [])
    simp only [List.append_nil, List.length_append, List.length_cons] at size
    have read := legible.reads fuel rest (by omega) ends
    obtain ⟨c, more, same, gap, _⟩ := legible.opens
    have skipped : skipGap ([' '] ++ (literal level value ++ rest)) =
        literal level value ++ rest := by
      rw [same, List.cons_append]
      exact Json.skipGap_append (List.forall_mem_singleton.mpr rfl) gap _
    rw [shape]
    refine readEntry_colon (readKey_identifier identifier _) ?_
    rw [skipped]
    exact read

/-! ## Literals of plain data -/

mutual

/-- The literal of plain data is read as the data, whatever follows that parts it from the rest. -/
theorem legible_literal (level : Int) :
    ∀ value, isPlainData value = true → Legible readLiteral (literal level value) (denoted value)
  | .null => fun _ => legible_word (by decide) fun _ => rfl
  | .bool true => fun _ => legible_word (by decide) fun _ => rfl
  | .bool false => fun _ => legible_word (by decide) fun _ => rfl
  | .int number => fun _ => legible_int number
  | .float _ => nofun
  | .text content => fun _ => legible_text content
  | .ragged _ => nofun
  | .list items => fun plain => by
      rw [literal, denoted, literalAll_eq, denotedAll_eq]
      exact legible_bracket (legible_literal_item level items plain)
  | .tuple items => fun plain => by
      rw [literal, denoted, literalAll_eq, denotedAll_eq]
      exact legible_bracket (legible_literal_item level items plain)
  | .table entries => fun plain => by
      rw [literal, denoted, literalEntries_eq, denotedEntries_eq]
      exact legible_braces level (legible_literal_entry (level + 1) entries plain)
  | .moment _ => nofun
  | .node _ => nofun

theorem legible_literal_item (level : Int) :
    ∀ items, allPlainData items = true → ∀ item ∈ items,
      Legible readLiteral (literal level item) (denoted item)
  | [] => fun _ _ member => absurd member List.not_mem_nil
  | first :: items => fun plain item member => by
      rw [allPlainData, Bool.and_eq_true] at plain
      rcases List.mem_cons.mp member with same | later
      · rw [same]
        exact legible_literal level first plain.1
      · exact legible_literal_item level items plain.2 item later

theorem legible_literal_entry (level : Int) :
    ∀ entries, entriesPlainData entries = true → ∀ entry ∈ entries,
      Legible (fun fuel => readEntry (readLiteral fuel)) (entryText level entry)
        (entry.1, denoted entry.2)
  | [] => fun _ _ member => absurd member List.not_mem_nil
  | (key, value) :: entries => fun plain entry member => by
      simp only [entriesPlainData, Bool.and_eq_true] at plain
      rcases List.mem_cons.mp member with same | later
      · rw [same]
        cases key with
        | text name => exact legible_entryText plain.1.1 (legible_literal level value plain.1.2)
        | _ => cases plain.1.1
      · exact legible_literal_entry level entries plain.2 entry later

end

/-- The literal of plain data denotes the data at every level: it is written, and the whole of it
is read as the value, with tuples as lists and entries in their order. -/
theorem ofLiteral?_literal? (value : Value) (level : Int) (plain : value.isPlainData = true) :
    ∃ text, value.literal? level = .ok text ∧ ofLiteral? text = some value.denoted := by
  refine ⟨value.literal level, ?_, ?_⟩
  · rw [literal?, holdsOversize_of_isPlainData value plain]
    rfl
  · have read := (legible_literal level value plain).reads _ [] (Nat.lt_succ_self _) Json.ends_nil
    rw [List.append_nil] at read
    rw [ofLiteral?, read]

/-- Quotes, a tuple and nested objects are read back, also at a level below zero. -/
theorem ofLiteral?_literal?_nested :
    let value : Value := .table [(.text "a".toList, .tuple [.int (-7), .text "\"\n".toList]),
      (.text "$b".toList, .table [(.text "c".toList, .list [])])]
    value.isPlainData = true ∧
      ∃ text, value.literal? (-1) = .ok text ∧ ofLiteral? text = some value.denoted :=
  ⟨by decide +kernel, ofLiteral?_literal? _ (-1) (by decide +kernel)⟩

end TypeScriptGen.Value
