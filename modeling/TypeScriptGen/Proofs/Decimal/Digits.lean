import TypeScriptGen.Decimal.Whole

/-!
# The digits of a number

The digits that a number is written with are digits, do not begin with a zero
unless the number is zero, and spell the number. Numbers that are not oversize
have no more digits than the limit allows. With as many digits, smaller numbers are
written with texts that come first.
-/

namespace TypeScriptGen.Decimal

theorem isDigit_of_mem_digits {number : Nat} {c : Char} (member : c ∈ digits number) :
    c.isDigit = true :=
  Nat.isDigit_of_mem_toDigits (by decide) (by decide) member

theorem isDigit_of_mem_padded {width number : Nat} {c : Char} (member : c ∈ padded width number) :
    c.isDigit = true := by
  rcases List.mem_append.mp member with zero | digit
  · rw [List.eq_of_mem_replicate zero]
    rfl
  · exact isDigit_of_mem_digits digit

theorem digits_eq_cons (number : Nat) :
    ∃ c more, digits number = c :: more ∧ c.isDigit = true := by
  have nonempty : digits number ≠ [] := Nat.toDigits_ne_nil
  obtain ⟨c, more, same⟩ := List.exists_cons_of_ne_nil nonempty
  exact ⟨c, more, same, isDigit_of_mem_digits (same ▸ List.mem_cons_self : c ∈ digits number)⟩

/-- The form of a whole number starts with a digit or a minus sign. -/
theorem wholeText_eq_cons (number : Int) :
    ∃ c more, wholeText number = c :: more ∧ (c.isDigit = true ∨ c = '-') := by
  cases number with
  | ofNat number =>
      obtain ⟨c, more, same, digit⟩ := digits_eq_cons number
      exact ⟨c, more, same, .inl digit⟩
  | negSucc number => exact ⟨'-', _, rfl, .inr rfl⟩

theorem ofDigits_digits (number : Nat) : ofDigits (digits number) = number :=
  Nat.ofDigitChars_toDigits (by decide) (by decide)

theorem digits_of_lt {number : Nat} (small : number < 10) :
    digits number = [number.digitChar] :=
  Nat.toDigits_of_lt_base small

theorem digits_of_ge {number : Nat} (large : 10 ≤ number) :
    digits number = digits (number / 10) ++ [(number % 10).digitChar] := by
  rw [digits, Nat.toDigits_eq_if (by decide), if_neg (by omega)]
  rfl

/-- Only zero has a zero in front. -/
theorem head?_digits {number : Nat} (positive : 0 < number) :
    ∃ c rest, digits number = c :: rest ∧ c ≠ '0' := by
  induction number using Nat.strongRecOn with
  | ind number ih =>
      by_cases small : number < 10
      · refine ⟨number.digitChar, [], digits_of_lt small, ?_⟩
        have all : ∀ digit < 10, 0 < digit → digit.digitChar ≠ '0' := by decide
        exact all number small positive
      · obtain ⟨c, rest, same, other⟩ := ih (number / 10) (by omega) (by omega)
        refine ⟨c, rest ++ [(number % 10).digitChar], ?_, other⟩
        rw [digits_of_ge (by omega), same]
        rfl

theorem digits_length_le_of_lt {number places : Nat} (some : 0 < places)
    (below : number < tenTo places) : (digits number).length ≤ places :=
  (Nat.length_toDigits_le_iff (by decide) some).mpr below

theorem digits_length_le {number : Int} (small : isOversize number = false) :
    (digits number.natAbs).length ≤ digitLimit :=
  digits_length_le_of_lt (by decide) (Nat.lt_of_not_le (of_decide_eq_false small))

/-! ## The numbers that digits spell -/

theorem toNat_of_isDigit {c : Char} (digit : c.isDigit = true) : 48 ≤ c.toNat ∧ c.toNat ≤ 57 := by
  simp only [Char.isDigit, Bool.and_eq_true, decide_eq_true_eq] at digit
  exact digit

theorem digitValue_lt {c : Char} (digit : c.isDigit = true) : digitValue c < 10 := by
  have bounds := toNat_of_isDigit digit
  rw [digitValue]
  omega

theorem lt_of_digitValue_lt {c d : Char} (less : digitValue c < digitValue d) : c < d := by
  have codes : c.toNat < d.toNat := by
    unfold digitValue at less
    omega
  exact Char.lt_def.mpr (UInt32.lt_iff_toNat_lt.mpr codes)

theorem eq_of_digitValue_eq {c d : Char} (one : c.isDigit = true) (other : d.isDigit = true)
    (same : digitValue c = digitValue d) : c = d := by
  have first := toNat_of_isDigit one
  have second := toNat_of_isDigit other
  have codes : c.toNat = d.toNat := by
    unfold digitValue at same
    omega
  exact Char.toNat_inj.mp codes

theorem ofDigits_cons (c : Char) (text : Text) :
    ofDigits (c :: text) = digitValue c * tenTo text.length + ofDigits text := by
  have whole := ofDigits_append [c] text
  rwa [show ofDigits [c] = digitValue c from Nat.zero_add _] at whole

/-- What leads decides, whatever smaller than its weight stands behind it. -/
theorem leading_lt {lead greater rest weight : Nat} (small : rest < weight) (less : lead < greater)
    (behind : Nat) : lead * weight + rest < greater * weight + behind := by
  have room : (lead + 1) * weight ≤ greater * weight := Nat.mul_le_mul_right _ less
  rw [Nat.add_mul, Nat.one_mul] at room
  omega

theorem ofDigits_lt {text : Text} (digits : ∀ c ∈ text, c.isDigit = true) :
    ofDigits text < tenTo text.length := by
  induction text with
  | nil => decide
  | cons c text ih =>
      rw [List.forall_mem_cons] at digits
      have bound := leading_lt (ih digits.2) (digitValue_lt digits.1) 0
      rw [ofDigits_cons, List.length_cons, tenTo_succ]
      omega

theorem tenTo_le {fewer more : Nat} (fits : fewer ≤ more) : tenTo fewer ≤ tenTo more :=
  Nat.pow_le_pow_right (by decide) fits

/-- With as many digits in front, smaller numbers come first. -/
theorem append_lt_append {one other : Text} (width : one.length = other.length)
    (digits : ∀ c ∈ one, c.isDigit = true) (figures : ∀ c ∈ other, c.isDigit = true)
    (less : ofDigits one < ofDigits other) (more rest : Text) : one ++ more < other ++ rest := by
  induction one generalizing other with
  | nil =>
      cases other with
      | nil => cases less
      | cons d other => cases width
  | cons c one ih =>
      cases other with
      | nil => cases width
      | cons d other =>
          rw [List.forall_mem_cons] at digits figures
          have length : one.length = other.length := Nat.succ.inj width
          rw [ofDigits_cons, ofDigits_cons, length] at less
          rcases Nat.lt_trichotomy (digitValue c) (digitValue d) with fewer | same | greater
          · exact List.Lex.rel (lt_of_digitValue_lt fewer)
          · rw [same] at less
            rw [eq_of_digitValue_eq digits.1 figures.1 same]
            exact List.Lex.cons (ih length digits.2 figures.2 (Nat.lt_of_add_lt_add_left less))
          · exact absurd less (Nat.lt_asymm (leading_lt (ofDigits_lt figures.2) greater _))

/-- A number is written with so many digits in one way. -/
theorem ofDigits_inj {one other : Text} (width : one.length = other.length)
    (digits : ∀ c ∈ one, c.isDigit = true) (figures : ∀ c ∈ other, c.isDigit = true)
    (same : ofDigits one = ofDigits other) : one = other := by
  induction one generalizing other with
  | nil => exact (List.eq_nil_of_length_eq_zero width.symm).symm
  | cons c one ih =>
      cases other with
      | nil => cases width
      | cons d other =>
          rw [List.forall_mem_cons] at digits figures
          have length : one.length = other.length := Nat.succ.inj width
          have small := ofDigits_lt digits.2
          rw [length] at small
          rw [ofDigits_cons, ofDigits_cons, length] at same
          have lead : digitValue c = digitValue d := by
            rcases Nat.lt_trichotomy (digitValue c) (digitValue d) with fewer | equal | greater
            · exact absurd same (Nat.ne_of_lt (leading_lt small fewer _))
            · exact equal
            · exact absurd same (Nat.ne_of_gt (leading_lt (ofDigits_lt figures.2) greater _))
          rw [lead] at same
          rw [eq_of_digitValue_eq digits.1 figures.1 lead,
            ih length digits.2 figures.2 (Nat.add_left_cancel same)]

end TypeScriptGen.Decimal
