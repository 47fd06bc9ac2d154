import TypeScriptGen.Text.Blank
import TypeScriptGen.Text.Word

/-!
# Names that stand whole in a text

A name stands whole where no word character or dollar sign touches it. Readers
that take names as long as possible either take such a name entirely or leave it
alone, and trimming never cuts into it.
-/

namespace TypeScriptGen.Text

/-- An identifier that stands between two texts and is part of no longer name. -/
structure Stands (before name after : Text) : Prop where
  identifier : isIdentifier name = true
  opened : ∀ c ∈ before.getLast?, isReferencePart c = false
  closed : ∀ c ∈ after.head?, isReferencePart c = false

/-- A text of word characters and dollar signs only. -/
def Solid (text : Text) : Prop := ∀ c ∈ text, isReferencePart c = true

/-- A maximal run of word characters and dollar signs between two texts. -/
structure IsRun (before run after : Text) : Prop where
  nonempty : run ≠ []
  solid : Solid run
  opened : ∀ c ∈ before.getLast?, isReferencePart c = false
  closed : ∀ c ∈ after.head?, isReferencePart c = false

/-! ## Characters outside names -/

/-- A test fails for every character of a text when it succeeds for none. -/
theorem eq_false_of_any {test : Char → Bool} {text : Text} (none : text.any test = false) :
    ∀ c ∈ text, test c = false := by
  simpa only [List.any_eq_false, Bool.not_eq_true] using none

theorem code_ge_of_isNamePart (c : Char) (part : isNamePart c = true) : 48 ≤ c.toNat := by
  simp only [isNamePart, Bool.or_eq_true, beq_iff_eq] at part
  rcases part with alphanum | rfl
  · have kinds : ((c.isUpper || c.isLower) || c.isDigit) = true := alphanum
    simp only [Bool.or_eq_true] at kinds
    rcases kinds with (upper | lower) | digit
    · have bounds : c.val ≥ 'A'.val ∧ c.val ≤ 'Z'.val := of_decide_eq_true upper
      exact Nat.le_trans (by decide) bounds.1
    · have bounds : (decide (c.val ≥ 'a'.val) && decide (c.val ≤ 'z'.val)) = true := lower
      exact Nat.le_trans (by decide) (of_decide_eq_true ((Bool.and_eq_true _ _).mp bounds).1)
    · have bounds : (decide (c.val ≥ '0'.val) && decide (c.val ≤ '9'.val)) = true := digit
      exact of_decide_eq_true ((Bool.and_eq_true _ _).mp bounds).1
  · decide

/-- No name starts with a digit. -/
theorem isDigit_of_isIdentifierStart {c : Char} (start : isIdentifierStart c = true) :
    c.isDigit = false := by
  cases digit : c.isDigit with
  | false => rfl
  | true =>
      have bounds : (decide (c.val ≥ '0'.val) && decide (c.val ≤ '9'.val)) = true := digit
      have small : c.val ≤ '9'.val := of_decide_eq_true ((Bool.and_eq_true _ _).mp bounds).2
      simp only [isIdentifierStart, isNameStart, Bool.or_eq_true, beq_iff_eq] at start
      rcases start with (alpha | rfl) | rfl
      · have kinds : (c.isUpper || c.isLower) = true := alpha
        rcases (Bool.or_eq_true _ _).mp kinds with upper | lower
        · have bounds : c.val ≥ 'A'.val ∧ c.val ≤ 'Z'.val := of_decide_eq_true upper
          exact absurd (UInt32.le_trans bounds.1 small) (by decide)
        · have bounds : (decide (c.val ≥ 'a'.val) && decide (c.val ≤ 'z'.val)) = true := lower
          have large : c.val ≥ 'a'.val := of_decide_eq_true ((Bool.and_eq_true _ _).mp bounds).1
          exact absurd (UInt32.le_trans large small) (by decide)
      · exact absurd digit (by decide)
      · exact absurd digit (by decide)

/-- The blank characters beyond ASCII, by their numbers. -/
def wideBlanks : List Nat :=
  [0x85, 0xa0, 0x1680, 0x2000, 0x2001, 0x2002, 0x2003, 0x2004, 0x2005, 0x2006, 0x2007, 0x2008,
    0x2009, 0x200a, 0x2028, 0x2029, 0x202f, 0x205f, 0x3000]

theorem wideBlanks_outside (code : Nat) (member : code ∈ wideBlanks) :
    inRanges wordRanges code = false := by
  have all : wideBlanks.all (fun code => !inRanges wordRanges code) = true := by decide +kernel
  simpa using List.all_eq_true.mp all code member

theorem isBlank_cases (c : Char) (blank : isBlank c = true) :
    c.toNat < 33 ∨ c.toNat ∈ wideBlanks := by
  simp only [isBlank, Bool.or_eq_true, Bool.and_eq_true, decide_eq_true_eq, beq_iff_eq] at blank
  by_cases small : c.toNat < 33
  · exact Or.inl small
  · refine Or.inr ?_
    simp only [wideBlanks, List.mem_cons, List.not_mem_nil, or_false]
    omega

theorem isReferencePart_of_isBlank (c : Char) (blank : isBlank c = true) :
    isReferencePart c = false := by
  have dollar : c ≠ '$' := by
    rintro rfl
    exact absurd blank (by decide)
  have word : isWord c = false := by
    unfold isWord
    rcases isBlank_cases c blank with small | wide
    · rw [if_pos (by omega)]
      cases part : isNamePart c with
      | false => exact part
      | true => exact absurd (code_ge_of_isNamePart c part) (by omega)
    · have large : ¬c.toNat < 128 := by
        simp only [wideBlanks, List.mem_cons, List.not_mem_nil, or_false] at wide
        omega
      rw [if_neg large]
      exact wideBlanks_outside c.toNat wide
  simp [isReferencePart, word, dollar]

theorem isBlank_of_isReferencePart {c : Char} (part : isReferencePart c = true) :
    isBlank c = false := by
  cases blank : isBlank c with
  | false => rfl
  | true =>
      rw [isReferencePart_of_isBlank c blank] at part
      cases part

theorem isReferencePart_of_isIdentifierStart (c : Char) (start : isIdentifierStart c = true) :
    isReferencePart c = true := by
  simp only [isIdentifierStart, Bool.or_eq_true] at start
  rcases start with start | dollar
  · have word := isWord_of_isNamePart c (isNamePart_of_isNameStart c start)
    simp [isReferencePart, word]
  · simp [isReferencePart, dollar]

theorem isReferencePart_of_isDigit {c : Char} (digit : c.isDigit = true) :
    isReferencePart c = true := by
  refine isReferencePart_of_isIdentifierPart c ?_
  simp [isIdentifierPart, isNamePart, Char.isAlphanum, digit]

/-- A solid text holds no line feed. -/
theorem Solid.oneLine {text : Text} (solid : Solid text) : '\n' ∉ text := fun member =>
  absurd (solid '\n' member) (by decide)

theorem solid_of_isIdentifier {text : Text} (identifier : isIdentifier text = true) :
    Solid text := by
  intro c member
  cases text with
  | nil => cases member
  | cons first rest =>
      simp only [isIdentifier, Bool.and_eq_true, List.all_eq_true] at identifier
      rcases List.mem_cons.mp member with rfl | tail
      · exact isReferencePart_of_isIdentifierStart c identifier.1
      · exact isReferencePart_of_isIdentifierPart c (identifier.2 c tail)

/-! ## What readers do with a standing name -/

/-- What is left of a text around a name still holds the name, with the end of what stood in front
of it. -/
def Keeps (before name after rest : Text) : Prop :=
  ∃ front back, before = front ++ back ∧ rest = back ++ (name ++ after)

theorem Keeps.trans {before back name after rest : Text} {front : Text}
    (whole : before = front ++ back) (kept : Keeps back name after rest) :
    Keeps before name after rest := by
  obtain ⟨middle, last, same, left⟩ := kept
  exact ⟨front ++ middle, last, by rw [whole, same, List.append_assoc], left⟩

namespace Stands

variable {before name after : Text}

theorem exists_cons (stands : Stands before name after) :
    ∃ c rest, name = c :: rest ∧ isIdentifierStart c = true := by
  have identifier := stands.identifier
  cases name with
  | nil => cases identifier
  | cons c rest =>
      simp only [isIdentifier, Bool.and_eq_true] at identifier
      exact ⟨c, rest, rfl, identifier.1⟩

theorem solid (stands : Stands before name after) : Solid name :=
  solid_of_isIdentifier stands.identifier

theorem ne_nil (stands : Stands before name after) : name ≠ [] := by
  obtain ⟨c, rest, rfl, _⟩ := stands.exists_cons
  exact List.cons_ne_nil c rest

/-- Less in front of the name does not open it. -/
theorem tail {front : Text} (stands : Stands (front ++ before) name after) :
    Stands before name after := by
  refine ⟨stands.identifier, fun c last => stands.opened c ?_, stands.closed⟩
  rw [Option.mem_def] at last ⊢
  rw [List.getLast?_append, last]
  rfl

/-- Less behind the name does not open it. -/
theorem init {back : Text} (stands : Stands before name (after ++ back)) :
    Stands before name after := by
  refine ⟨stands.identifier, stands.opened, fun c first => stands.closed c ?_⟩
  rw [Option.mem_def] at first ⊢
  rw [List.head?_append, first]
  rfl

/-- An identifier holds no name but itself. -/
theorem eq_of_isIdentifier (stands : Stands before name after)
    (identifier : isIdentifier (before ++ (name ++ after)) = true) :
    before ++ (name ++ after) = name := by
  have solid := solid_of_isIdentifier identifier
  have opening : before = [] := by
    cases last : before.getLast? with
    | none => exact List.getLast?_eq_none_iff.mp last
    | some c =>
        have outside := stands.opened c last
        rw [solid c (List.mem_append_left _ (List.mem_of_getLast? last))] at outside
        cases outside
  have closing : after = [] := by
    cases after with
    | nil => rfl
    | cons c rest =>
        have outside := stands.closed c rfl
        rw [solid c (by simp)] at outside
        cases outside
  simp [opening, closing]

theorem isRun (stands : Stands before name after) : IsRun before name after :=
  ⟨stands.ne_nil, stands.solid, stands.opened, stands.closed⟩

end Stands

namespace IsRun

variable {before name after : Text}

theorem exists_cons (run : IsRun before name after) :
    ∃ c rest, name = c :: rest ∧ isReferencePart c = true := by
  obtain ⟨c, rest, rfl⟩ := List.exists_cons_of_ne_nil run.nonempty
  exact ⟨c, rest, rfl, run.solid c List.mem_cons_self⟩

/-- Less in front of a run does not open it. -/
theorem tail {front : Text} (run : IsRun (front ++ before) name after) :
    IsRun before name after := by
  refine ⟨run.nonempty, run.solid, fun c last => run.opened c ?_, run.closed⟩
  rw [Option.mem_def] at last ⊢
  rw [List.getLast?_append, last]
  rfl

/-- Trimming stops at the run at the latest. -/
theorem trimStart_eq (run : IsRun before name after) :
    trimStart (before ++ (name ++ after)) = trimStart before ++ (name ++ after) := by
  obtain ⟨c, rest, rfl, part⟩ := run.exists_cons
  have visible : ¬isBlank c = true := by simp [isBlank_of_isReferencePart part]
  unfold trimStart
  rw [List.dropWhile_append]
  cases left : before.dropWhile isBlank with
  | nil => simp [List.dropWhile_cons_of_neg visible]
  | cons d more => rfl

theorem trimStart_keeps (run : IsRun before name after) :
    Keeps before name after (trimStart (before ++ (name ++ after))) :=
  ⟨before.takeWhile isBlank, trimStart before, List.takeWhile_append_dropWhile.symm,
    run.trimStart_eq⟩

/-- Taking word characters and dollar signs from the start of the run takes the run. -/
theorem takeWhile_eq (run : IsRun before name after) :
    (name ++ after).takeWhile isReferencePart = name ∧
      (name ++ after).dropWhile isReferencePart = after := by
  rw [List.takeWhile_append_of_pos run.solid, List.dropWhile_append_of_pos run.solid]
  cases after with
  | nil => simp
  | cons c rest =>
      have outside := run.closed c rfl
      simp [outside]

/-- Taking them from elsewhere in front stops before the run. -/
theorem dropWhile_keeps {c : Char} (run : IsRun (c :: before) name after)
    (part : isReferencePart c = true) :
    Keeps before name after ((before ++ (name ++ after)).dropWhile isReferencePart) := by
  refine ⟨before.takeWhile isReferencePart, before.dropWhile isReferencePart,
    List.takeWhile_append_dropWhile.symm, ?_⟩
  rw [List.dropWhile_append]
  cases left : before.dropWhile isReferencePart with
  | cons d more => rfl
  | nil =>
      have whole := List.takeWhile_append_dropWhile (p := isReferencePart) (l := before)
      rw [left, List.append_nil] at whole
      have all : ∀ d ∈ before, isReferencePart d = true := by
        rw [← whole]
        exact List.all_eq_true.mp List.all_takeWhile
      cases last : before.getLast? with
      | none =>
          have outside := run.opened c (by
            rw [List.getLast?_eq_none_iff.mp last]
            rfl)
          rw [part] at outside
          cases outside
      | some d =>
          have outside := run.opened d (by
            rw [List.getLast?_cons, last]
            rfl)
          rw [all d (List.mem_of_getLast? last)] at outside
          cases outside

end IsRun

end TypeScriptGen.Text
