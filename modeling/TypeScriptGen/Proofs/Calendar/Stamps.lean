import TypeScriptGen.Proofs.Calendar.Days
import TypeScriptGen.Proofs.Decimal.Digits
import TypeScriptGen.Timestamp

/-!
# Timestamps read back

The plain reader takes the timestamp of a moment for the moment in UTC to the
millisecond, and the timestamp of that moment is the same.
-/

namespace TypeScriptGen

/-! ## Digits of a width -/

namespace Decimal

theorem ofDigits_zeros (count : Nat) : ofDigits (List.replicate count '0') = 0 := by
  induction count with
  | zero => rfl
  | succ count ih => exact ih

section Padded

variable {width number : Nat}

theorem padded_length (positive : 0 < width) (small : number < tenTo width) :
    (padded width number).length = width := by
  have fits := digits_length_le_of_lt positive small
  simp only [padded, List.length_append, List.length_replicate]
  omega

theorem ofDigits_padded (width number : Nat) : ofDigits (padded width number) = number := by
  simp only [padded, ofDigits_append, ofDigits_zeros, ofDigits_digits, Nat.zero_mul, Nat.zero_add]

end Padded

end Decimal

namespace Calendar

open Decimal (padded)

theorem readDigits_padded {width number : Nat} (positive : 0 < width)
    (small : number < Decimal.tenTo width) (rest : Text) :
    readDigits width (padded width number ++ rest) = some (number, rest) := by
  have length := Decimal.padded_length positive small
  have head : (padded width number ++ rest).take width = padded width number :=
    List.take_left' length
  have tail : (padded width number ++ rest).drop width = rest := List.drop_left' length
  have all : (padded width number).all Char.isDigit = true :=
    List.all_eq_true.mpr fun c member => Decimal.isDigit_of_mem_padded member
  simp only [readDigits, head, tail, length, all, decide_true, Bool.and_self, if_true,
    Decimal.ofDigits_padded]

theorem readMark_cons (mark : Char) (rest : Text) : readMark mark (mark :: rest) = some rest :=
  if_pos rfl

/-- The fields of a valid day have as many digits as they are written with. -/
theorem Day.fields_lt {date : Day} (valid : date.isValid = true) : date.year < Decimal.tenTo 4 ∧
    date.month < Decimal.tenTo 2 ∧ date.day < Decimal.tenTo 2 := by
  obtain ⟨⟨_, year⟩, ⟨_, month⟩, _, day⟩ := (isValid_iff date).mp valid
  have length := monthLength_le date.year date.month
  have two : Decimal.tenTo 2 = 100 := rfl
  exact ⟨Nat.lt_succ_of_le year, by omega, by omega⟩

/-- The date of a valid day is read back. -/
theorem readDay_dateText {moment : Moment} (valid : moment.date.isValid = true) (rest : Text) :
    readDay (moment.dateText ++ rest) = some (moment.date, rest) := by
  obtain ⟨year, month, day⟩ := Day.fields_lt valid
  have shape : moment.dateText ++ rest = padded 4 moment.date.year ++
      ('-' :: (padded 2 moment.date.month ++ ('-' :: (padded 2 moment.date.day ++ rest)))) := by
    simp [Moment.dateText]
  rw [shape, readDay, readDigits_padded (by decide) year]
  simp only [bind, Option.bind, readMark_cons]
  rw [readDigits_padded (by decide) month]
  simp only [readMark_cons]
  rw [readDigits_padded (by decide) day]
  rfl

/-- The text of a moment in UTC to the millisecond. -/
def stampText (utc : Moment) : Text :=
  utc.dateText ++ 'T' :: (padded 2 utc.hour ++ ':' :: (padded 2 utc.minute ++ ':' ::
    (padded 2 utc.second ++ '.' :: (padded 3 (utc.microsecond / 1000) ++ ['Z']))))

/-- The moment in UTC to the millisecond. -/
def toMillis (utc : Moment) : Moment :=
  { utc with microsecond := utc.microsecond / 1000 * 1000, offset := some 0 }

theorem fractionMicros_padded {millis : Nat} (small : millis < 1000) :
    fractionMicros (padded 3 millis) = millis * 1000 := by
  have length : (padded 3 millis).length = 3 := Decimal.padded_length (by decide) small
  have whole : (padded 3 millis).take 6 = padded 3 millis := List.take_of_length_le (by omega)
  have thousand : Decimal.tenTo 3 = 1000 := rfl
  simp only [fractionMicros, whole, length, Decimal.ofDigits_append, Decimal.ofDigits_padded,
    Decimal.ofDigits_zeros, List.length_replicate, thousand, Nat.reduceSub, Nat.add_zero]

theorem readSeconds_stamp {second millis : Nat} (one : second < 100) (other : millis < 1000) :
    readSeconds (':' :: (padded 2 second ++ '.' :: (padded 3 millis ++ ['Z']))) =
      some (second, millis * 1000, ['Z']) := by
  have digits : ∀ c ∈ padded 3 millis, c.isDigit = true := fun c =>
    Decimal.isDigit_of_mem_padded
  have front : (padded 3 millis ++ ['Z']).takeWhile Char.isDigit = padded 3 millis := by
    rw [List.takeWhile_append_of_pos digits]
    exact List.append_nil _
  have behind : (padded 3 millis ++ ['Z']).dropWhile Char.isDigit = ['Z'] := by
    rw [List.dropWhile_append_of_pos digits]
    rfl
  have some : (padded 3 millis).isEmpty = false := by
    have length : (padded 3 millis).length = 3 := Decimal.padded_length (by decide) other
    cases same : padded 3 millis with
    | nil =>
        rw [same] at length
        cases length
    | cons _ _ => rfl
  rw [readSeconds, readMark_cons]
  simp only [bind, Option.bind]
  rw [readDigits_padded (by decide) one]
  simp only [readMark_cons, front, behind, some, Bool.false_eq_true, if_false,
    fractionMicros_padded other]
  rfl

theorem toMillis_isValid {utc : Moment} (valid : utc.isValid = true) :
    (toMillis utc).isValid = true := by
  simp only [Moment.isValid, Bool.and_eq_true, decide_eq_true_eq] at valid ⊢
  obtain ⟨⟨fields, micro⟩, _⟩ := valid
  exact ⟨⟨fields, Nat.lt_of_le_of_lt (Nat.div_mul_le_self utc.microsecond 1000) micro⟩, rfl⟩

/-- The text of a valid moment in UTC is read as the moment to the millisecond. -/
theorem ofText?_stampText {utc : Moment} (valid : utc.isValid = true) :
    Moment.ofText? (stampText utc) = some (toMillis utc) := by
  have fields := valid
  simp only [Moment.isValid, Bool.and_eq_true, decide_eq_true_eq] at fields
  obtain ⟨⟨⟨⟨⟨date, hour⟩, minute⟩, second⟩, micro⟩, _⟩ := fields
  change utc.microsecond < 1000000 at micro
  have time : readTime (padded 2 utc.hour ++ ':' :: (padded 2 utc.minute ++ ':' ::
      (padded 2 utc.second ++ '.' :: (padded 3 (utc.microsecond / 1000) ++ ['Z'])))) =
      some (utc.hour, utc.minute, utc.second, utc.microsecond / 1000 * 1000, ['Z']) := by
    rw [readTime, readDigits_padded (by decide) (by change _ < 100; omega)]
    simp only [bind, Option.bind, readMark_cons]
    rw [readDigits_padded (by decide) (by change _ < 100; omega)]
    simp only []
    rw [readSeconds_stamp (by omega) (by omega)]
    rfl
  rw [Moment.ofText?, stampText, readDay_dateText date]
  simp only [bind, Option.bind, time]
  exact if_pos (toMillis_isValid valid)

/-! ## Instants -/

section Instants

open Moment (microsPerSecond microsPerDay)

/-- The moment in UTC at an instant. -/
def momentAt (micros : Nat) : Moment :=
  Moment.ofTimeOfDay (Day.ofNumber (micros / microsPerDay)) (micros % microsPerDay) (some 0)

theorem stamp_eq {moment : Moment} {micros : Nat} (instant : moment.instant = micros)
    (within : micros < Moment.endOfTime) : moment.stamp = some (stampText (momentAt micros)) := by
  have bounds : (0 ≤ moment.instant && moment.instant < Moment.endOfTime) = true := by
    rw [instant]
    simpa using within
  rw [Moment.stamp, Moment.ofInstant?, if_pos bounds, instant, Int.toNat_natCast, Option.map_some]
  simp [stampText, momentAt, Moment.minuteText]

theorem exists_of_stamp {moment : Moment} {text : Text} (found : moment.stamp = some text) :
    ∃ micros : Nat, moment.instant = micros ∧ micros < Moment.endOfTime := by
  unfold Moment.stamp Moment.ofInstant? at found
  split at found
  · next bounds =>
      simp only [Bool.and_eq_true, decide_eq_true_eq] at bounds
      exact ⟨moment.instant.toNat, by omega, by omega⟩
  · cases found

theorem momentAt_isValid {micros : Nat} (within : micros < Moment.endOfTime) :
    (momentAt micros).isValid = true ∧ (momentAt micros).date.number = micros / microsPerDay ∧
      (momentAt micros).timeOfDay = micros % microsPerDay := by
  have day : micros / microsPerDay < daysBefore (lastYear + 1) :=
    Nat.div_lt_of_lt_mul (by rw [Nat.mul_comm]; exact within)
  obtain ⟨valid, number⟩ := ofNumber_spec day
  have time : micros % microsPerDay < 86400 * 1000000 := Nat.mod_lt _ (by decide)
  refine ⟨?_, number, ?_⟩
  · simp only [Moment.isValid, Bool.and_eq_true, decide_eq_true_eq]
    refine ⟨⟨⟨⟨⟨valid, ?_⟩, ?_⟩, ?_⟩, ?_⟩, rfl⟩
    · change micros % microsPerDay / 1000000 / 3600 < 24
      omega
    · exact Nat.mod_lt _ (by decide)
    · exact Nat.mod_lt _ (by decide)
    · exact Nat.mod_lt _ (by decide)
  · simp only [Moment.timeOfDay, momentAt, Moment.ofTimeOfDay, microsPerSecond]
    generalize micros % microsPerDay = time
    omega

/-- The text depends on the milliseconds only. -/
theorem stampText_momentAt {micros : Nat} :
    stampText (momentAt (micros / 1000 * 1000)) = stampText (momentAt micros) := by
  have day : micros / 1000 * 1000 / microsPerDay = micros / microsPerDay := by
    change micros / 1000 * 1000 / 86400000000 = micros / 86400000000
    omega
  have second : micros / 1000 * 1000 % microsPerDay / microsPerSecond =
      micros % microsPerDay / microsPerSecond := by
    change micros / 1000 * 1000 % 86400000000 / 1000000 = micros % 86400000000 / 1000000
    omega
  have milli : micros / 1000 * 1000 % microsPerDay % microsPerSecond / 1000 =
      micros % microsPerDay % microsPerSecond / 1000 := by
    change micros / 1000 * 1000 % 86400000000 % 1000000 / 1000 =
      micros % 86400000000 % 1000000 / 1000
    omega
  simp only [stampText, momentAt, Moment.ofTimeOfDay, Moment.dateText, day, second, milli]

/-- The moment to the millisecond lies at the same instant, less what is finer. -/
theorem toMillis_instant {micros : Nat} (within : micros < Moment.endOfTime) :
    (toMillis (momentAt micros)).instant = ((micros / 1000 * 1000 : Nat) : Int) := by
  obtain ⟨_, number, time⟩ := momentAt_isValid within
  have clock : (toMillis (momentAt micros)).clock = micros / 1000 * 1000 := by
    have millis : (toMillis (momentAt micros)).timeOfDay + (momentAt micros).microsecond % 1000 =
        (momentAt micros).timeOfDay := by
      simp only [Moment.timeOfDay, toMillis]
      omega
    have fine : (momentAt micros).microsecond = micros % microsPerDay % microsPerSecond := rfl
    have date : (toMillis (momentAt micros)).date = (momentAt micros).date := rfl
    rw [Moment.clock, date, number]
    rw [time, fine] at millis
    simp only [microsPerDay, microsPerSecond] at millis ⊢
    omega
  rw [Moment.instant, clock]
  exact Int.sub_zero _

end Instants

end Calendar

end TypeScriptGen
