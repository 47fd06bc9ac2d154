import TypeScriptGen.Proofs.Naming.Answers
import TypeScriptGen.Text.Word

/-!
# Sanitized names are plain names

Cleaning leaves letters, digits, underscores and hyphens of ASCII, and a case style writes nothing
but underscores and the characters that are there, in small or capital letters. So the name in its
style is spelled with letters, digits and underscores, and the guard in front of it makes it a
plain name; a suffix of such characters and a number keep it one.
-/

namespace TypeScriptGen

namespace Text

/-- The text holds ASCII letters, digits and underscores only. -/
def Spelled (text : Text) : Prop := ∀ c ∈ text, isNamePart c = true

instance (text : Text) : Decidable (Spelled text) :=
  List.decidableBAll (fun c => isNamePart c = true) text

variable {c : Char} {first second text : Text}

theorem spelled_append : Spelled (first ++ second) ↔ Spelled first ∧ Spelled second :=
  List.forall_mem_append

theorem isPlainName_append (plain : isPlainName first = true) (spelled : Spelled second) :
    isPlainName (first ++ second) = true := by
  cases first with
  | nil => cases plain
  | cons c rest =>
      rw [isPlainName, Bool.and_eq_true] at plain
      have parts : second.all isNamePart = true := List.all_eq_true.mpr spelled
      rw [List.cons_append, isPlainName, List.all_append, plain.1, plain.2, parts]
      rfl

/-! ## Small and capital letters -/

/-- What holds of the small and the capital form of each ASCII letter, digit and underscore. -/
theorem isNamePart_cases (part : isNamePart c = true) :
    isNamePart c.toLower = true ∧ isNamePart c.toUpper = true := by
  have ascii := code_lt_of_isNamePart c part
  revert part
  exact ascii_cases c ascii (by decide +kernel)

theorem Spelled.lower (spelled : Spelled text) : Spelled (lower text) := by
  have ascii : isAscii text = true :=
    List.all_eq_true.mpr fun c member => decide_eq_true (code_lt_of_isNamePart c (spelled c member))
  rw [lower_eq_map text ascii]
  intro c member
  obtain ⟨other, among, rfl⟩ := List.mem_map.mp member
  exact (isNamePart_cases (spelled other among)).1

theorem Spelled.capitalize (spelled : Spelled text) : Spelled (capitalize text) := by
  cases text with
  | nil => exact spelled
  | cons c rest =>
      have first := spelled c List.mem_cons_self
      rw [Text.capitalize, titleChar, if_pos (code_lt_of_isNamePart c first)]
      intro other member
      rcases List.mem_cons.mp member with rfl | later
      · exact (isNamePart_cases first).2
      · exact spelled other (List.mem_cons_of_mem c later)

end Text

namespace Naming

open Text (Spelled spelled_append)

variable {c : Char} {text : Text}

/-! ## Case styles -/

theorem mem_joinSeparators {inside : Bool} (member : c ∈ joinSeparators inside text) :
    c = '_' ∨ c ∈ text ∧ isSeparator c = false := by
  induction text generalizing inside with
  | nil => cases member
  | cons first rest ih =>
      have later {inside : Bool} (there : c ∈ joinSeparators inside rest) :
          c = '_' ∨ c ∈ first :: rest ∧ isSeparator c = false :=
        (ih there).imp_right fun kept => ⟨List.mem_cons_of_mem first kept.1, kept.2⟩
      rw [joinSeparators] at member
      split at member
      · split at member
        · exact later member
        · exact (List.mem_cons.mp member).elim .inl later
      · next solid =>
          rcases List.mem_cons.mp member with rfl | there
          · exact .inr ⟨List.mem_cons_self, by simpa using solid⟩
          · exact later there

/-- Nothing but underscores comes to what stands behind a character that is kept. -/
theorem mem_behind {first : Char} {rest more : Text} (behind : c ∈ more → c = '_' ∨ c ∈ rest)
    (member : c ∈ first :: more) : c = '_' ∨ c ∈ first :: rest := by
  rcases List.mem_cons.mp member with rfl | later
  · exact .inr List.mem_cons_self
  · exact (behind later).imp_right (List.mem_cons_of_mem first)

theorem mem_breakAcronyms {after : Bool} (member : c ∈ breakAcronyms after text) :
    c = '_' ∨ c ∈ text := by
  induction text generalizing after with
  | nil => cases member
  | cons first rest ih =>
      rw [breakAcronyms] at member
      split at member
      · exact (List.mem_cons.mp member).elim .inl (mem_behind ih)
      · exact mem_behind ih member

theorem mem_breakWords {after : Bool} (member : c ∈ breakWords after text) :
    c = '_' ∨ c ∈ text := by
  induction text generalizing after with
  | nil => cases member
  | cons first rest ih =>
      rw [breakWords] at member
      split at member
      · exact (List.mem_cons.mp member).elim .inl (mem_behind ih)
      · exact mem_behind ih member

theorem mem_joinUnderscores {inside : Bool} (member : c ∈ joinUnderscores inside text) :
    c ∈ text := by
  induction text generalizing inside with
  | nil => cases member
  | cons first rest ih =>
      rw [joinUnderscores] at member
      split at member
      · next low =>
          split at member
          · exact List.mem_cons_of_mem first (ih member)
          · rcases List.mem_cons.mp member with rfl | there
            · exact low ▸ List.mem_cons_self
            · exact List.mem_cons_of_mem first (ih there)
      · rcases List.mem_cons.mp member with rfl | there
        · exact List.mem_cons_self
        · exact List.mem_cons_of_mem first (ih there)

theorem mem_stripWhere {drop : Char → Bool} (member : c ∈ stripWhere drop text) : c ∈ text := by
  have front := (List.dropWhile_suffix drop).subset (List.mem_reverse.mp member)
  exact (List.dropWhile_suffix drop).subset (List.mem_reverse.mp front)

/-- The parted words of a name. -/
def parted (text : Text) : Text := breakWords false (breakAcronyms false (joinSeparators false text))

theorem toSnake_eq (text : Text) :
    toSnake text = stripWhere (fun c => c == '_') (joinUnderscores false (Text.lower (parted text))) :=
  rfl

theorem mem_parted (member : c ∈ parted text) : c = '_' ∨ c ∈ text ∧ isSeparator c = false := by
  rcases mem_breakWords member with low | member
  · exact .inl low
  rcases mem_breakAcronyms member with low | member
  · exact .inl low
  exact mem_joinSeparators member

theorem spelled_toSnake (letters : ∀ c ∈ text, Text.isNamePart c = true ∨ isSeparator c = true) :
    Spelled (toSnake text) := by
  have parted : Spelled (parted text) := by
    intro c member
    rcases mem_parted member with rfl | ⟨member, solid⟩
    · rfl
    · exact (letters c member).resolve_right (by simp [solid])
  intro c member
  exact parted.lower c (mem_joinUnderscores (mem_stripWhere member))

theorem spelled_words (spelled : Spelled (toSnake text)) : ∀ word ∈ snakeParts text,
    Spelled word := by
  intro word member c inside
  have kept : c ∈ (snakeParts text).flatten := List.mem_flatten.mpr ⟨word, member, inside⟩
  rw [snakeParts, Text.splitOn, Text.splitWhere_flatten] at kept
  exact spelled c (List.mem_filter.mp kept).1

theorem spelled_capitalized {words : List Text} (spelled : ∀ word ∈ words, Spelled word) :
    Spelled (words.flatMap Text.capitalize) := by
  intro c member
  obtain ⟨word, among, inside⟩ := List.mem_flatMap.mp member
  exact (spelled word among).capitalize c inside

/-- In each style a name is spelled with letters, digits and underscores. -/
theorem spelled_convert (style : Style)
    (letters : ∀ c ∈ text, Text.isNamePart c = true ∨ isSeparator c = true) :
    Spelled (convert style text) := by
  have snake := spelled_toSnake letters
  have words := spelled_words snake
  cases style with
  | snake => exact snake
  | pascal => exact spelled_capitalized words
  | camel =>
      change Spelled (toCamel text)
      unfold toCamel
      split
      · exact nofun
      · next first rest parts =>
          rw [parts] at words
          obtain ⟨front, behind⟩ := List.forall_mem_cons.mp words
          exact spelled_append.mpr ⟨front, spelled_capitalized behind⟩

namespace Sanitizer

/-! ## Cleaned names -/

theorem isNamePart_or_hyphen_of_isAllowed (allowed : isAllowed c = true) :
    Text.isNamePart c = true ∨ c = '-' := by
  rwa [isAllowed, Bool.or_eq_true, beq_iff_eq] at allowed

theorem mem_guardStart (member : c ∈ guardStart text) : c = '_' ∨ c ∈ text := by
  unfold guardStart at member
  split at member
  · exact .inl (List.mem_singleton.mp member)
  · split at member
    · exact List.mem_cons.mp member
    · exact .inr member

theorem mem_clean {name : Text} (member : c ∈ clean name) :
    Text.isNamePart c = true ∨ c = '-' := by
  unfold clean at member
  dsimp only at member
  split at member
  · have letters : Text.Spelled "value".toList := by decide
    exact .inl (letters c member)
  · rcases mem_guardStart member with rfl | kept
    · exact .inl rfl
    · obtain ⟨given, _, rfl⟩ := List.mem_map.mp (mem_stripWhere kept)
      split
      · next allowed => exact isNamePart_or_hyphen_of_isAllowed allowed
      · exact .inl rfl

/-- The guard makes a plain name of any text that is spelled with letters, digits and
underscores. -/
theorem isPlainName_guardStart (spelled : Spelled text) :
    Text.isPlainName (guardStart text) = true := by
  cases text with
  | nil => rfl
  | cons c rest =>
      have parts : (c :: rest).all Text.isNamePart = true := List.all_eq_true.mpr spelled
      rw [guardStart]
      split
      · rw [Text.isPlainName, parts]
        rfl
      · next other =>
          have start : Text.isNameStart c = true := by
            have part := spelled c List.mem_cons_self
            simp only [Text.isNamePart, Char.isAlphanum, Bool.or_eq_true, other, or_false,
              Bool.false_eq_true] at part
            rwa [Text.isNameStart, Bool.or_eq_true]
          rw [List.all_cons, Bool.and_eq_true] at parts
          rw [Text.isPlainName, start, parts.2]
          rfl

end Sanitizer

theorem Request.isPlainName_base (request : Request) : Text.isPlainName request.base = true := by
  refine Sanitizer.isPlainName_guardStart (spelled_convert request.style fun c member => ?_)
  rcases Sanitizer.mem_clean member with part | rfl
  · exact .inl part
  · exact .inr rfl

namespace Sanitizer

variable {sanitizer : Sanitizer} {request : Request}

/-! ## Names that are given -/

theorem spelled_digits (number : Nat) : Spelled (Decimal.digits number) := by
  intro c member
  have digit : c.isDigit = true := Nat.isDigit_of_mem_toDigits (by decide) (by decide) member
  simp [Text.isNamePart, Char.isAlphanum, digit]

/-- A suffix and a number of any size behind a plain name keep it plain. -/
theorem isPlainName_candidate {reserved : List Text} (suffix : Spelled request.suffix)
    (round : Nat) : Text.isPlainName
      (candidate (allowed reserved request.base request.suffix) request.suffix round) = true := by
  have first : Text.isPlainName (allowed reserved request.base request.suffix) = true := by
    unfold allowed
    split
    · exact Text.isPlainName_append request.isPlainName_base suffix
    · exact request.isPlainName_base
  cases round with
  | zero => exact first
  | succ round =>
      exact Text.isPlainName_append (Text.isPlainName_append first suffix) (spelled_digits _)

/-- All names that the sanitizer remembers are plain. -/
def IsPlain (sanitizer : Sanitizer) : Prop :=
  ∀ pair ∈ sanitizer.answers, Text.isPlainName pair.2 = true

theorem isPlain_fresh (reserved : List Text) : IsPlain (fresh reserved) := nofun

theorem IsPlain.answer (plain : IsPlain sanitizer) (request : Request)
    (suffix : Spelled request.suffix) : Text.isPlainName (sanitizer.answer request) = true := by
  cases held : sanitizer.answers.lookup request.key with
  | some name =>
      rw [(answer_of_known held).1]
      exact plain (request.key, name) (mem_of_lookup held)
  | none =>
      obtain ⟨round, same⟩ := (answer_of_unknown held).1.exists_round
      rw [same]
      exact isPlainName_candidate suffix round

theorem IsPlain.next (plain : IsPlain sanitizer) (request : Request)
    (suffix : Spelled request.suffix) : IsPlain (sanitizer.next request) := by
  cases held : sanitizer.answers.lookup request.key with
  | some name => rwa [(answer_of_known held).2]
  | none =>
      rw [(answer_of_unknown held).2]
      intro pair member
      rcases List.mem_cons.mp member with rfl | there
      · exact plain.answer request suffix
      · exact plain pair there

/-- From any sanitizer on that remembers plain names, all names that are given are plain. -/
theorem IsPlain.exchanges (plain : IsPlain sanitizer) {requests : List Request}
    (suffixes : ∀ request ∈ requests, Spelled request.suffix) :
    ∀ exchange ∈ exchanges sanitizer requests, Text.isPlainName exchange.answer = true := by
  intro exchange member
  have met := forall_exchanges IsPlain
    (fun request among _ held => held.next request (suffixes request among)) plain exchange member
  exact met.2.answer exchange.request (suffixes exchange.request met.1)

end Sanitizer

end Naming

end TypeScriptGen
