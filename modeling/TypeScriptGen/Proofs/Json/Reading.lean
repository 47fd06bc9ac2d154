import TypeScriptGen.Json.Reader
import TypeScriptGen.Proofs.Decimal.Digits
import TypeScriptGen.Text.Quoted
import TypeScriptGen.Text.Word

/-!
# Reading what was written

A written text is legible as a value when it is read as this value whatever
stands behind it, as long as that goes on with no number. Encoded texts, whole
numbers and words are legible, and so are items between commas when each of them
is: what a reader must do with one item and what is behind it carries over to
all of them.
-/

namespace TypeScriptGen.Json

open Text (Point encodeChar encode hexDigits)

/-- The number of a control character is read from its four digits. -/
theorem readCodes_hexDigits {code : Nat} (small : code < 32) (rest : Text) :
    readCodes ('\\' :: 'u' :: hexDigits 4 code ++ rest) =
      (readCodes rest).map fun read => (code :: read.1, read.2) := by
  have all : ∀ code < 32, ∃ a b c d, hexDigits 4 code = [a, b, c, d] ∧
      hexNumber [a, b, c, d] = some code := by
    intro code small
    refine ⟨_, _, _, _, rfl, ?_⟩
    revert code
    decide
  obtain ⟨a, b, c, d, digits, number⟩ := all code small
  rw [digits]
  change readCodes ('\\' :: 'u' :: a :: b :: c :: d :: rest) = _
  rw [readCodes, number]
  cases readCodes rest <;> rfl

/-- The code of a character is read as its number. -/
theorem readCodes_encodeChar (c : Char) (rest : Text) :
    readCodes (encodeChar c ++ rest) =
      (readCodes rest).map fun read => (c.toNat :: read.1, read.2) := by
  have named (letter : Char) (other : letter ≠ 'u') (known : escaped letter = some c) :
      readCodes ('\\' :: letter :: rest) =
        (readCodes rest).map fun read => (c.toNat :: read.1, read.2) := by
    rw [readCodes, known]
    · cases readCodes rest <;> rfl
    · intro a b c d more same
      exact fun _ => other same
  unfold encodeChar
  split
  · next special =>
      simp only [Bool.or_eq_true, decide_eq_true_eq] at special
      rcases special with rfl | rfl <;> exact named _ (by decide) (by decide)
  next special =>
  simp only [Bool.or_eq_true, decide_eq_true_eq, not_or] at special
  split
  · next same => exact named 'n' (by decide) (by rw [same]; decide)
  split
  · next same => exact named 'r' (by decide) (by rw [same]; decide)
  split
  · next same => exact named 't' (by decide) (by rw [same]; decide)
  split
  · next same => exact named 'b' (by decide) (by rw [same]; decide)
  split
  · next same => exact named 'f' (by decide) (by rw [same]; decide)
  split
  · next small => exact readCodes_hexDigits small rest
  · next large =>
      rw [List.singleton_append, readCodes]
      · rw [if_neg (by simpa [special.2] using large)]
        cases readCodes rest <;> rfl
      all_goals simp [special]

theorem readCodes_encoded (content rest : Text) :
    readCodes (content.flatMap encodeChar ++ '"' :: rest) =
      some (content.map Char.toNat, rest) := by
  induction content with
  | nil => rfl
  | cons c content ih =>
      rw [List.flatMap_cons, List.append_assoc, readCodes_encodeChar, ih]
      rfl

/-- The number of a character is no surrogate. -/
theorem surrogate_toNat (c : Char) :
    isHighSurrogate c.toNat = false ∧ isLowSurrogate c.toNat = false := by
  have valid : c.toNat < 0xd800 ∨ 0xdfff < c.toNat ∧ c.toNat < 0x110000 := c.valid
  simp only [isHighSurrogate, isLowSurrogate, Bool.and_eq_false_iff, decide_eq_false_iff_not]
  omega

theorem ofCode_toNat (c : Char) : Point.ofCode c.toNat = .char c := by
  have valid : c.toNat < 0xd800 ∨ 0xdfff < c.toNat ∧ c.toNat < 0x110000 := c.valid
  have outside : (Text.firstSurrogate ≤ c.toNat && c.toNat < Text.firstSurrogate + 0x800) =
      false := by
    rw [Bool.and_eq_false_iff, decide_eq_false_iff_not, decide_eq_false_iff_not]
    change ¬0xd800 ≤ c.toNat ∨ ¬c.toNat < 0xe000
    omega
  rw [Point.ofCode, outside, if_neg Bool.false_ne_true, Char.ofNat_toNat]

theorem joinSurrogates_toNat (content : Text) :
    joinSurrogates (content.map Char.toNat) = content.map .char := by
  induction content with
  | nil => rfl
  | cons c content ih =>
      cases content with
      | nil => exact congrArg (· :: []) (ofCode_toNat c)
      | cons d content =>
          rw [List.map_cons, List.map_cons, joinSurrogates, (surrogate_toNat c).1, Bool.false_and,
            if_neg Bool.false_ne_true, ofCode_toNat, ← List.map_cons, ih]
          rfl

/-- An encoded text is read back behind its opening quote. -/
theorem readText_encoded (content rest : Text) :
    readText (content.flatMap encodeChar ++ '"' :: rest) = some (.text content, rest) := by
  have whole : Value.ofPoints (joinSurrogates (content.map Char.toNat)) = .text content := by
    rw [joinSurrogates_toNat, Value.ofPoints_char]
  rw [readText, readCodes_encoded]
  exact congrArg (fun found => some (found, rest)) whole

/-! ## Marks behind a value -/

section Spans

variable {holds : Char → Bool} {front rest : Text}

theorem takeWhile_append (all : ∀ c ∈ front, holds c = true)
    (stops : ∀ c ∈ rest.head?, holds c = false) : (front ++ rest).takeWhile holds = front := by
  rw [List.takeWhile_append_of_pos all]
  cases rest with
  | nil => exact List.append_nil front
  | cons c rest =>
      rw [List.takeWhile_cons_of_neg (by rw [stops c rfl]; exact Bool.false_ne_true)]
      exact List.append_nil front

theorem dropWhile_append (all : ∀ c ∈ front, holds c = true)
    (stops : ∀ c ∈ rest.head?, holds c = false) : (front ++ rest).dropWhile holds = rest := by
  rw [List.dropWhile_append_of_pos all]
  cases rest with
  | nil => rfl
  | cons c rest => exact List.dropWhile_cons_of_neg (by rw [stops c rfl]; exact Bool.false_ne_true)

end Spans

/-- Blanks in front of a mark are skipped. -/
theorem skipGap_append {gap : Text} (blank : ∀ c ∈ gap, isGap c = true) {c : Char}
    (mark : isGap c = false) (rest : Text) : skipGap (gap ++ c :: rest) = c :: rest :=
  dropWhile_append blank fun d first => by
    cases first
    exact mark

/-- Nothing stands in front, or a mark that parts a value from what follows. -/
def Ends (rest : Text) : Prop :=
  ∀ c ∈ rest.head?, c = ',' ∨ c = ']' ∨ c = '\x7d' ∨ isGap c = true

theorem ends_nil : Ends [] := nofun

theorem ends_cons {c : Char} (mark : c = ',' ∨ c = ']' ∨ c = '\x7d' ∨ isGap c = true)
    (rest : Text) : Ends (c :: rest) := by
  intro d first
  cases first
  exact mark

/-- None of the marks that part values belongs to a number. -/
theorem Ends.outside {rest : Text} (ends : Ends rest) {c : Char} (first : c ∈ rest.head?) :
    c.isDigit = false ∧ c ≠ '.' ∧ c ≠ 'e' ∧ c ≠ 'E' := by
  rcases ends c first with rfl | rfl | rfl | gap
  · decide
  · decide
  · decide
  · simp only [isGap, Bool.or_eq_true, beq_iff_eq] at gap
    rcases gap with ((rfl | rfl) | rfl) | rfl <;> decide

/-! ## Numbers -/

/-- A digit is none of the marks and no first letter of a word. -/
theorem digit_cases {c : Char} (digit : c.isDigit = true) :
    ((c ≠ '"' ∧ c ≠ '[' ∧ c ≠ '\x7b') ∧ isGap c = false ∧ c ≠ ']' ∧ c ≠ '\x7d') ∧
      c ≠ 'n' ∧ c ≠ 't' ∧ c ≠ 'f' ∧ c ≠ 'N' ∧ c ≠ 'I' ∧ c ≠ '-' := by
  have ascii := Text.code_lt_of_isDigit c digit
  revert digit
  exact Text.ascii_cases c ascii (by decide +kernel)

theorem readWhole_digits (number : Nat) {rest : Text} (ends : Ends rest) :
    readWhole (Decimal.digits number ++ rest) = some (Decimal.digits number, rest) := by
  have stops : ∀ c ∈ rest.head?, c.isDigit = false := fun c first => (ends.outside first).1
  rcases Nat.eq_zero_or_pos number with rfl | positive
  · rfl
  · obtain ⟨c, more, same, other⟩ := Decimal.head?_digits positive
    have all : ∀ d ∈ c :: more, d.isDigit = true := fun d member =>
      Decimal.isDigit_of_mem_digits (same ▸ member)
    have behind : ∀ d ∈ more, d.isDigit = true := fun d member =>
      all d (List.mem_cons_of_mem c member)
    rw [same, List.cons_append, readWhole, if_neg other, if_pos (all c List.mem_cons_self),
      takeWhile_append behind stops, dropWhile_append behind stops]

theorem readFraction_ends {rest : Text} (ends : Ends rest) : readFraction rest = ([], rest) := by
  unfold readFraction
  split
  · exact absurd rfl (ends.outside rfl).2.1
  · rfl

theorem readPower_ends {rest : Text} (ends : Ends rest) : readPower rest = (none, rest) := by
  cases rest with
  | nil => rfl
  | cons c rest =>
      obtain ⟨_, _, small, large⟩ := ends.outside rfl
      simp [readPower, small, large]

/-- The digits of a number that is not oversize are read as the number, with either sign. -/
theorem readUnsigned_digits (negative : Bool) {number : Int}
    (small : Decimal.isOversize number = false) {rest : Text} (ends : Ends rest) :
    readUnsigned negative (Decimal.digits number.natAbs ++ rest) =
      .ok (.int (if negative then -(number.natAbs : Int) else number.natAbs), rest) := by
  have fits := Nat.not_lt.mpr (Decimal.digits_length_le small)
  simp only [readUnsigned, readWhole_digits _ ends, readFraction_ends ends, readPower_ends ends,
    List.isEmpty_nil, Option.isNone_none, Bool.and_self, if_true, if_neg fits,
    Decimal.ofDigits_digits]

/-! ## Legible texts -/

/-- A text is read as a value, whatever follows that parts it from the rest. Its first character
is neither blank nor a closing mark. -/
structure Legible {α : Type} (read : Nat → Text → Except Fault (α × Text)) (text : Text)
    (value : α) : Prop where
  opens : ∃ c more, text = c :: more ∧ isGap c = false ∧ c ≠ ']' ∧ c ≠ '\x7d'
  reads : ∀ fuel rest, text.length < fuel → Ends rest → read fuel (text ++ rest) = .ok (value, rest)

/-- A reader of all items up to a closing mark uses a reader of one item, and goes on behind a
comma. -/
structure Sequence {α : Type} (one : Nat → Text → Except Fault (α × Text))
    (all : Nat → Text → Except Fault (List α × Text)) (closing : Char) : Prop where
  last : ∀ {fuel : Nat} {text rest after : Text} {found : α}, one fuel text = .ok (found, rest) →
    skipGap rest = closing :: after → all (fuel + 1) text = .ok ([found], after)
  more : ∀ {fuel : Nat} {text rest next after : Text} {found : α} {others : List α},
    one fuel text = .ok (found, rest) → skipGap rest = ',' :: next →
    all fuel (skipGap next) = .ok (others, after) →
    all (fuel + 1) text = .ok (found :: others, after)

section Sequences

variable {α β : Type} {one : Nat → Text → Except Fault (α × Text)}
  {all : Nat → Text → Except Fault (List α × Text)} {closing : Char} {write : β → Text}
  {held : β → α} {gap pad lead : Text}

theorem exists_intercalate (write : β → Text) (separator : Text) (item : β) (items : List β) :
    ∃ more, separator.intercalate ((item :: items).map write) = write item ++ more := by
  cases items with
  | nil => exact ⟨[], by simp⟩
  | cons next items =>
      rw [List.map_cons, List.map_cons, List.intercalate_cons_cons]
      exact ⟨_, List.append_assoc _ _ _⟩

/-- Legible items with commas between them are read up to the closing mark. -/
theorem Sequence.reads (sequence : Sequence one all closing)
    (mark : closing = ']' ∨ closing = '\x7d') (gaps : ∀ c ∈ gap, isGap c = true)
    (pads : ∀ c ∈ pad, isGap c = true) (rest : Text) (item : β) (items : List β) (fuel : Nat)
    (legible : ∀ other ∈ item :: items, Legible one (write other) (held other))
    (fits : ((',' :: gap).intercalate ((item :: items).map write) ++ pad ++ [closing]).length <
      fuel) :
    all fuel ((',' :: gap).intercalate ((item :: items).map write) ++ pad ++ closing :: rest) =
      .ok ((item :: items).map held, rest) := by
  have own := legible item List.mem_cons_self
  obtain ⟨fuel, rfl⟩ : ∃ less, fuel = less + 1 := ⟨fuel - 1, by omega⟩
  induction items generalizing item fuel with
  | nil =>
      have closed : isGap closing = false ∧
          (closing = ',' ∨ closing = ']' ∨ closing = '\x7d' ∨ isGap closing = true) := by
        rcases mark with rfl | rfl <;> decide
      have ends : Ends (pad ++ closing :: rest) := by
        cases pad with
        | nil => exact ends_cons closed.2 rest
        | cons c pad => exact ends_cons (by simp [pads c List.mem_cons_self]) _
      have first := own.reads fuel (pad ++ closing :: rest) (by simp at fits; omega) ends
      simp only [List.map_cons, List.map_nil, List.intercalate_singleton, List.append_assoc]
      exact sequence.last first (skipGap_append pads closed.1 rest)
  | cons next items ih =>
      have later : ∀ other ∈ next :: items, Legible one (write other) (held other) :=
        fun other member => legible other (List.mem_cons_of_mem item member)
      have following := later next List.mem_cons_self
      rw [List.map_cons, List.map_cons, List.intercalate_cons_cons, ← List.map_cons (f := write)]
        at fits ⊢
      simp only [List.append_assoc, List.cons_append, List.length_append, List.length_cons]
        at fits ⊢
      obtain ⟨fuel, rfl⟩ : ∃ less, fuel = less + 1 := ⟨fuel - 1, by omega⟩
      have first := own.reads (fuel + 1) (',' :: (gap ++
        ((',' :: gap).intercalate ((next :: items).map write) ++ (pad ++ closing :: rest))))
        (by omega) (ends_cons (.inl rfl) _)
      -- Behind the comma and the blanks stands the next item.
      obtain ⟨more, split⟩ := exists_intercalate write (',' :: gap) next items
      obtain ⟨c, inner, opened, mark, _, _⟩ := following.opens
      have skipped : skipGap (gap ++ ((',' :: gap).intercalate ((next :: items).map write) ++
          (pad ++ closing :: rest))) =
          (',' :: gap).intercalate ((next :: items).map write) ++ (pad ++ closing :: rest) := by
        rw [split, opened]
        exact skipGap_append gaps mark _
      have others := ih next later following fuel
        (by simp only [List.length_append, List.length_cons]; omega)
      rw [List.append_assoc, ← skipped] at others
      exact sequence.more first rfl others

/-- Behind the blanks in front of them, legible items do not start with the closing mark, and are
read up to it. -/
theorem Sequence.reads_behind (sequence : Sequence one all closing)
    (mark : closing = ']' ∨ closing = '\x7d') (leads : ∀ c ∈ lead, isGap c = true)
    (gaps : ∀ c ∈ gap, isGap c = true) (pads : ∀ c ∈ pad, isGap c = true) {item : β}
    {items : List β} {fuel : Nat}
    (legible : ∀ other ∈ item :: items, Legible one (write other) (held other))
    (fits : ((',' :: gap).intercalate ((item :: items).map write) ++ pad ++ [closing]).length <
      fuel) (rest : Text) :
    ∃ start, skipGap (lead ++ ((',' :: gap).intercalate ((item :: items).map write) ++ pad ++
        closing :: rest)) = start ∧ (∀ more, start ≠ closing :: more) ∧
      all fuel start = .ok ((item :: items).map held, rest) := by
  have read := sequence.reads mark gaps pads rest item items fuel legible fits
  obtain ⟨more, split⟩ := exists_intercalate write (',' :: gap) item items
  obtain ⟨c, inner, opened, plain, notBracket, notBrace⟩ := (legible item List.mem_cons_self).opens
  rw [split, opened] at read ⊢
  refine ⟨_, skipGap_append leads plain _, fun _ same => ?_, read⟩
  rcases mark with rfl | rfl
  · exact notBracket (List.cons.inj same).1
  · exact notBrace (List.cons.inj same).1

end Sequences

end TypeScriptGen.Json
