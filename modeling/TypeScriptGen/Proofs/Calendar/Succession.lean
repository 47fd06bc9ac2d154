import TypeScriptGen.Proofs.Calendar.Days

/-!
# The days in their order

Day follows day to the end of the month, month follows month to the end of the year, and
year follows year. The number of a day is how often one goes on from the first day to
come to it, and later days have later dates.
-/

namespace TypeScriptGen.Calendar

namespace Day

def first : Day := ⟨1, 1, 1⟩

/-- The day after. -/
def next (date : Day) : Day :=
  if date.day < monthLength date.year date.month then { date with day := date.day + 1 }
  else if date.month < 12 then ⟨date.year, date.month + 1, 1⟩
  else ⟨date.year + 1, 1, 1⟩

/-- The day that so many days lead to from the first one. -/
def after : Nat → Day
  | 0 => first
  | days + 1 => (after days).next

/-- A day in a month of a year, which may lie behind the end of the calendar. -/
structure Proper (date : Day) : Prop where
  year : 1 ≤ date.year
  month : 1 ≤ date.month ∧ date.month ≤ 12
  day : 1 ≤ date.day ∧ date.day ≤ monthLength date.year date.month

/-- One date is earlier: in the year, else in the month, else in the day. -/
def Before (one other : Day) : Prop :=
  one.year < other.year ∨ one.year = other.year ∧
    (one.month < other.month ∨ one.month = other.month ∧ one.day < other.day)

variable {date one other : Day}

theorem isValid_iff_proper : date.isValid = true ↔ Proper date ∧ date.year ≤ lastYear := by
  rw [isValid_iff]
  exact ⟨fun ⟨⟨year, last⟩, month, day⟩ => ⟨⟨year, month, day⟩, last⟩,
    fun ⟨⟨year, month, day⟩, last⟩ => ⟨⟨year, last⟩, month, day⟩⟩

theorem monthLength_pos (year : Nat) {month : Nat} (known : 1 ≤ month ∧ month ≤ 12) :
    1 ≤ monthLength year month := by
  have all : ∀ length ∈ monthLengths year, 1 ≤ length := by
    unfold monthLengths
    cases isLeapYear year <;> decide
  have inside : month - 1 < (monthLengths year).length := by
    change _ < 12
    omega
  rw [monthLength, List.getD_eq_getElem?_getD, List.getElem?_eq_getElem inside, Option.getD_some]
  exact all _ (List.getElem_mem inside)

theorem Proper.next (proper : Proper date) : Proper date.next := by
  have months := proper.month
  unfold Day.next
  split
  · next inside => exact ⟨proper.year, proper.month, by dsimp only; omega⟩
  split
  · next inside =>
      have known : 1 ≤ date.month + 1 ∧ date.month + 1 ≤ 12 := by omega
      exact ⟨proper.year, known, Nat.le_refl 1, monthLength_pos _ known⟩
  · have known : 1 ≤ 1 ∧ 1 ≤ 12 := by decide
    exact ⟨Nat.le_add_left 1 _, known, Nat.le_refl 1, monthLength_pos _ known⟩

theorem proper_after (days : Nat) : Proper (after days) := by
  induction days with
  | zero => exact ⟨by decide, by decide, by decide⟩
  | succ days ih => exact ih.next

/-! ## Order -/

theorem before_next (date : Day) : Before date date.next := by
  unfold Day.next Before
  split
  · exact .inr ⟨rfl, .inr ⟨rfl, Nat.lt_succ_self _⟩⟩
  split
  · exact .inr ⟨rfl, .inl (Nat.lt_succ_self _)⟩
  · exact .inl (Nat.lt_succ_self _)

theorem Before.trans {last : Day} (near : Before one other) (far : Before other last) :
    Before one last := by
  unfold Before at *
  omega

theorem before_after {early late : Nat} (less : early < late) :
    Before (after early) (after late) := by
  induction late with
  | zero => cases less
  | succ late ih =>
      rcases Nat.lt_succ_iff_lt_or_eq.mp less with before | rfl
      · exact (ih before).trans (before_next _)
      · exact before_next _

theorem Before.irrefl (date : Day) : ¬Before date date := by
  unfold Before
  omega

theorem after_inj {first second : Nat} (same : after first = after second) : first = second := by
  rcases Nat.lt_trichotomy first second with less | equal | more
  · exact absurd (same ▸ before_after less) (Before.irrefl _)
  · exact equal
  · exact absurd (same ▸ before_after more) (Before.irrefl _)

/-! ## Numbers -/

theorem total_take_succ (lengths : List Nat) (count : Nat) :
    total (lengths.take (count + 1)) = total (lengths.take count) + lengths.getD count 0 := by
  induction lengths generalizing count with
  | nil => simp [total]
  | cons length lengths ih =>
      cases count with
      | zero => simp [total]
      | succ count =>
          rw [List.take_succ_cons, List.take_succ_cons, total, total, ih, List.getD_cons_succ,
            Nat.add_assoc]

theorem number_eq (date : Day) : date.number = daysBefore date.year +
    total ((monthLengths date.year).take (date.month - 1)) + (date.day - 1) := by
  rw [number, foldl_add, Nat.zero_add]

/-- Going on by a day counts one. -/
theorem number_next (proper : Proper date) : date.next.number = date.number + 1 := by
  obtain ⟨year, ⟨january, december⟩, first, last⟩ := proper
  have month : date.month = date.month - 1 + 1 := by omega
  have counted := total_take_succ (monthLengths date.year) (date.month - 1)
  rw [← month] at counted
  change _ = _ + monthLength date.year date.month at counted
  rw [number_eq, number_eq]
  unfold Day.next
  split
  · dsimp only
    omega
  split
  · rw [Nat.add_sub_cancel, counted]
    dsimp only
    omega
  · have whole : (monthLengths date.year).take date.month = monthLengths date.year :=
      List.take_of_length_le (by change 12 ≤ _; omega)
    have days := sum_monthLengths year
    rw [whole] at counted
    simp only [Nat.sub_self, List.take_zero, total]
    omega

theorem number_after (days : Nat) : (after days).number = days := by
  induction days with
  | zero => rfl
  | succ days ih => rw [after, number_next (proper_after days), ih]

/-! ## Every day is reached -/

theorem exists_after_day {year month : Nat} (start : ∃ days, after days = ⟨year, month, 1⟩)
    {day : Nat} (inside : 1 ≤ day ∧ day ≤ monthLength year month) :
    ∃ days, after days = ⟨year, month, day⟩ := by
  induction day with
  | zero => cases inside.1
  | succ day ih =>
      by_cases one : day = 0
      · exact one ▸ start
      · obtain ⟨days, reached⟩ := ih (by omega)
        refine ⟨days + 1, ?_⟩
        rw [after, reached]
        exact if_pos inside.2

/-- The day behind the last one of a month. -/
theorem exists_after_month {year month : Nat} (start : ∃ days, after days = ⟨year, month, 1⟩)
    (known : 1 ≤ month ∧ month ≤ 12) :
    ∃ days, after days = if month < 12 then ⟨year, month + 1, 1⟩ else ⟨year + 1, 1, 1⟩ := by
  obtain ⟨days, reached⟩ :=
    exists_after_day start ⟨monthLength_pos year known, Nat.le_refl (monthLength year month)⟩
  refine ⟨days + 1, ?_⟩
  rw [after, reached]
  exact if_neg (Nat.lt_irrefl _)

theorem exists_after_january {year : Nat} (start : ∃ days, after days = ⟨year, 1, 1⟩)
    {month : Nat} (known : 1 ≤ month ∧ month ≤ 12) : ∃ days, after days = ⟨year, month, 1⟩ := by
  induction month with
  | zero => cases known.1
  | succ month ih =>
      by_cases one : month = 0
      · exact one ▸ start
      · have before : 1 ≤ month ∧ month ≤ 12 := by omega
        have later := exists_after_month (ih before) before
        rwa [if_pos (by omega)] at later

theorem exists_after_year {year : Nat} (positive : 1 ≤ year) :
    ∃ days, after days = ⟨year, 1, 1⟩ := by
  induction year with
  | zero => cases positive
  | succ year ih =>
      by_cases one : year = 0
      · exact one ▸ ⟨0, rfl⟩
      · have december := exists_after_january (ih (by omega)) ⟨by decide, Nat.le_refl 12⟩
        exact exists_after_month december ⟨by decide, Nat.le_refl 12⟩

/-- A day is reached from the first one by as many steps as its number says. -/
theorem after_number (proper : Proper date) : after date.number = date := by
  obtain ⟨days, reached⟩ := exists_after_day
    (exists_after_january (exists_after_year proper.year) proper.month) proper.day
  have same : after days = date := reached
  rw [← same, number_after]

end Day

end TypeScriptGen.Calendar
