import TypeScriptGen.Calendar.Day

/-!
# Days and their numbers

The day with a number before the end of the last year is a day of the calendar,
and its number is the one it was made from: the year is the one whose days hold the
number, and whole months are counted off from what is left of it.
-/

namespace TypeScriptGen.Calendar

/-! ## Years -/

theorem daysBefore_yearOf (number : Nat) :
    1 ≤ yearOf number ∧ daysBefore (yearOf number) ≤ number ∧
      number < daysBefore (yearOf number + 1) := by
  unfold yearOf daysBefore
  dsimp only
  split
  · omega
  split
  · omega
  · omega

theorem yearOf_le_lastYear {number : Nat} (within : number < daysBefore (lastYear + 1)) :
    yearOf number ≤ lastYear := by
  have start := (daysBefore_yearOf number).2.1
  unfold daysBefore lastYear at *
  omega

/-- Going on by one, a quotient grows at the multiples of the divisor. -/
theorem succ_div_eq (number divisor : Nat) : (number + 1) / divisor =
    number / divisor + if (number + 1) % divisor = 0 then 1 else 0 := by
  rw [Nat.succ_div]
  simp only [Nat.dvd_iff_mod_eq_zero]

/-- The days of months of the given lengths. -/
def total : List Nat → Nat
  | [] => 0
  | length :: lengths => length + total lengths

theorem foldl_add (start : Nat) (lengths : List Nat) :
    lengths.foldl Nat.add start = start + total lengths := by
  induction lengths generalizing start with
  | nil => rfl
  | cons length lengths ih => rw [List.foldl_cons, ih, total, Nat.add_eq, Nat.add_assoc]

/-- A year has as many days as lie between its start and that of the next. -/
theorem sum_monthLengths {year : Nat} (positive : 1 ≤ year) :
    daysBefore (year + 1) = daysBefore year + total (monthLengths year) := by
  obtain ⟨number, rfl⟩ : ∃ number, year = number + 1 := ⟨year - 1, by omega⟩
  have days : total (monthLengths (number + 1)) = if isLeapYear (number + 1) then 366 else 365 := by
    unfold monthLengths
    cases isLeapYear (number + 1) <;> rfl
  have multiples : (number + 1) % 400 = 0 → (number + 1) % 100 = 0 := by omega
  have centuries : (number + 1) % 100 = 0 → (number + 1) % 4 = 0 := by omega
  have bounds : number / 100 ≤ number / 4 := by omega
  rw [days]
  simp only [daysBefore, Nat.add_sub_cancel, succ_div_eq, isLeapYear]
  by_cases four : (number + 1) % 4 = 0 <;> by_cases hundred : (number + 1) % 100 = 0 <;>
    by_cases fourHundred : (number + 1) % 400 = 0 <;> simp [four, hundred, fourHundred] <;> omega

/-! ## Months -/

/-- Counting off months ends in one of them, at one of its days. -/
theorem monthAndDay_spec {rest : Nat} {lengths : List Nat} (within : rest < total lengths)
    (month : Nat) : ∃ place left, monthAndDay month lengths rest = (month + place, left + 1) ∧
      place < lengths.length ∧ left < lengths.getD place 0 ∧
      total (lengths.take place) + left = rest := by
  induction lengths generalizing month rest with
  | nil => cases within
  | cons length lengths ih =>
      rw [total] at within
      rw [monthAndDay]
      split
      · next here => exact ⟨0, rest, rfl, Nat.succ_pos _, here, Nat.zero_add rest⟩
      · next behind =>
          have later : rest - length < total lengths := by omega
          obtain ⟨place, left, found, inside, day, counted⟩ := ih later (month + 1)
          refine ⟨place + 1, left, ?_, Nat.succ_lt_succ inside, day, ?_⟩
          · rw [found, Nat.add_assoc, Nat.add_comm 1]
          · rw [List.take_succ_cons, total]
            omega

theorem monthLength_le (year month : Nat) : monthLength year month ≤ 31 := by
  have all : ∀ length ∈ monthLengths year, length ≤ 31 := by
    unfold monthLengths
    cases isLeapYear year <;> decide
  rw [monthLength, List.getD_eq_getElem?_getD]
  cases found : (monthLengths year)[month - 1]? with
  | none => exact Nat.zero_le 31
  | some length => exact all length (List.mem_of_getElem? found)

theorem isValid_iff (date : Day) : date.isValid = true ↔
    (1 ≤ date.year ∧ date.year ≤ lastYear) ∧ (1 ≤ date.month ∧ date.month ≤ 12) ∧
      1 ≤ date.day ∧ date.day ≤ monthLength date.year date.month := by
  simp only [Day.isValid, Bool.and_eq_true, decide_eq_true_eq, and_assoc]

/-- The day with a number before the end of the last year is valid, and has this number. -/
theorem ofNumber_spec {number : Nat} (within : number < daysBefore (lastYear + 1)) :
    (Day.ofNumber number).isValid = true ∧ (Day.ofNumber number).number = number := by
  obtain ⟨positive, start, stop⟩ := daysBefore_yearOf number
  have last := yearOf_le_lastYear within
  have inYear : number - daysBefore (yearOf number) < total (monthLengths (yearOf number)) := by
    have days := sum_monthLengths positive
    omega
  obtain ⟨place, left, found, inside, day, counted⟩ := monthAndDay_spec inYear 1
  have whole : Day.ofNumber number = ⟨yearOf number, 1 + place, left + 1⟩ := by
    rw [Day.ofNumber, found]
  have twelve : (monthLengths (yearOf number)).length = 12 := rfl
  rw [whole]
  constructor
  · simp only [isValid_iff, monthLength, Nat.add_sub_cancel_left]
    omega
  · simp only [Day.number, foldl_add, Nat.add_sub_cancel_left, Nat.add_sub_cancel]
    omega

end TypeScriptGen.Calendar
