import TypeScriptGen.Proofs.Calendar.Stamps
import TypeScriptGen.Proofs.Calendar.Succession
import TypeScriptGen.Proofs.Outcome.Steps

/-!
# The instants of timestamps

A moment happens at an instant: its day is counted one by one from the first, and its
offset taken off. A timestamp denotes an instant by its figures, to the millisecond.
Texts that denote instants are in the order of the instants, so each denotes one only,
and an instant is denoted by one text only. The main statement is that the timestamp of a
moment denotes its instant. Of a reader of dates nothing is known but that it takes such a
text for a moment at the instant that the text denotes, and then the text is its own
timestamp.
-/

namespace TypeScriptGen

/-! ## Figures -/

namespace Decimal

/-- Text of so many digits that spell a number. -/
structure Figures (width number : Nat) (text : Text) : Prop where
  width : text.length = width
  digits : ∀ c ∈ text, c.isDigit = true
  value : ofDigits text = number

namespace Figures

variable {width number bigger : Nat} {text other : Text}

theorem lt (figures : Figures width number text) : number < tenTo width := by
  rw [← figures.value, ← figures.width]
  exact ofDigits_lt figures.digits

theorem unique (first : Figures width number text) (second : Figures width number other) :
    text = other :=
  ofDigits_inj (first.width.trans second.width.symm) first.digits second.digits
    (first.value.trans second.value.symm)

theorem append_lt (first : Figures width number text) (second : Figures width bigger other)
    (less : number < bigger) (more rest : Text) : text ++ more < other ++ rest := by
  refine append_lt_append (first.width.trans second.width.symm) first.digits second.digits ?_ _ _
  rwa [first.value, second.value]

/-- Where the figures are the same, what stands behind them decides. -/
theorem append_cons_lt {more rest : Text} {mark : Char} {behind : Prop}
    (first : Figures width number text) (second : Figures width bigger other)
    (order : number < bigger ∨ number = bigger ∧ behind) (decides : behind → more < rest) :
    text ++ mark :: more < other ++ mark :: rest := by
  rcases order with less | ⟨rfl, later⟩
  · exact first.append_lt second less _ _
  · rw [first.unique second]
    exact List.append_left_lt (List.Lex.cons (decides later))

theorem padded {width number : Nat} (positive : 0 < width) (small : number < tenTo width) :
    Figures width number (padded width number) where
  width := padded_length positive small
  digits _ := isDigit_of_mem_padded
  value := ofDigits_padded width number

end Figures

end Decimal

namespace Calendar

open Decimal (Figures)

/-! ## Instants that texts denote -/

/-- The text is a date and a time in UTC, and the number counts the milliseconds to it from the
start of the first day. -/
inductive Denotes : Text → Int → Prop
  | spelled {days hour minute second milli : Nat}
      {year month day hours minutes seconds millis : Text}
      (inYear : Figures 4 (Day.after days).year year)
      (inMonth : Figures 2 (Day.after days).month month)
      (onDay : Figures 2 (Day.after days).day day)
      (clock : hour < 24 ∧ minute < 60 ∧ second < 60)
      (atHour : Figures 2 hour hours) (atMinute : Figures 2 minute minutes)
      (atSecond : Figures 2 second seconds) (fraction : Figures 3 milli millis) :
      Denotes
        (year ++ '-' :: (month ++ '-' :: (day ++ 'T' :: (hours ++ ':' :: (minutes ++ ':' ::
          (seconds ++ '.' :: (millis ++ ['Z'])))))))
        ((((days * 24 + hour) * 60 + minute) * 60 + second) * 1000 + milli : Nat)

namespace Denotes

variable {text other : Text} {early late : Int}

theorem length (denotes : Denotes text early) : text.length = 24 := by
  obtain ⟨inYear, inMonth, onDay, -, atHour, atMinute, atSecond, fraction⟩ := denotes
  simp only [List.length_append, List.length_cons, List.length_nil, inYear.width, inMonth.width,
    onDay.width, atHour.width, atMinute.width, atSecond.width, fraction.width]

/-- The text of an earlier instant comes first. -/
theorem lt (sooner : Denotes text early) (later : Denotes other late) (less : early < late) :
    text < other := by
  obtain @⟨days, hour, minute, second, milli, _, _, _, _, _, _, _, inYear, inMonth, onDay,
    clock, atHour, atMinute, atSecond, fraction⟩ := sooner
  obtain @⟨days', hour', minute', second', milli', _, _, _, _, _, _, _, inYear', inMonth', onDay',
    clock', atHour', atMinute', atSecond', fraction'⟩ := later
  have fine : milli < 1000 ∧ milli' < 1000 := ⟨fraction.lt, fraction'.lt⟩
  have order : days < days' ∨ days = days' ∧ (hour < hour' ∨ hour = hour' ∧
      (minute < minute' ∨ minute = minute' ∧ (second < second' ∨ second = second' ∧
        milli < milli'))) := by
    have counts := Int.ofNat_lt.mp less
    omega
  rcases order with earlier | ⟨rfl, order⟩
  · exact inYear.append_cons_lt inYear' (Day.before_after earlier) fun before =>
      inMonth.append_cons_lt inMonth' before fun before =>
        onDay.append_cons_lt onDay' (.inl before) False.elim
  · rw [inYear.unique inYear', inMonth.unique inMonth', onDay.unique onDay']
    refine List.append_left_lt (List.Lex.cons (List.append_left_lt (List.Lex.cons
      (List.append_left_lt (List.Lex.cons ?_)))))
    exact atHour.append_cons_lt atHour' order fun order =>
      atMinute.append_cons_lt atMinute' order fun order =>
        atSecond.append_cons_lt atSecond' order fun order => fraction.append_lt fraction' order _ _

/-- A text denotes one instant. -/
theorem unique (one : Denotes text early) (too : Denotes text late) : early = late := by
  rcases Int.lt_trichotomy early late with less | same | more
  · exact absurd (one.lt too less) (List.lt_irrefl text)
  · exact same
  · exact absurd (too.lt one more) (List.lt_irrefl text)

/-- An instant is denoted by one text. -/
theorem text_eq (one : Denotes text early) (too : Denotes other early) : text = other := by
  generalize same : early = late at too
  obtain @⟨days, hour, minute, second, milli, _, _, _, _, _, _, _, inYear, inMonth, onDay,
    clock, atHour, atMinute, atSecond, fraction⟩ := one
  obtain @⟨days', hour', minute', second', milli', _, _, _, _, _, _, _, inYear', inMonth', onDay',
    clock', atHour', atMinute', atSecond', fraction'⟩ := too
  have fine : milli < 1000 ∧ milli' < 1000 := ⟨fraction.lt, fraction'.lt⟩
  have counts := Int.ofNat_inj.mp same
  obtain ⟨rfl, rfl, rfl, rfl, rfl⟩ : days = days' ∧ hour = hour' ∧ minute = minute' ∧
      second = second' ∧ milli = milli' := by omega
  rw [inYear.unique inYear', inMonth.unique inMonth', onDay.unique onDay', atHour.unique atHour',
    atMinute.unique atMinute', atSecond.unique atSecond', fraction.unique fraction']

end Denotes

/-! ## Instants of moments -/

/-- The moment is on the day that so many days lead to, and the number counts the microseconds to it
from the start of the first day in UTC. -/
def HappensAt (moment : Moment) (instant : Int) : Prop :=
  ∃ days : Nat, Day.after days = moment.date ∧
    instant = (((((days * 24 + moment.hour) * 60 + moment.minute) * 60 + moment.second) * 1000000 +
      moment.microsecond : Nat) : Int) - moment.offset.getD 0

theorem happensAt_iff {moment : Moment} (valid : moment.isValid = true) {instant : Int} :
    HappensAt moment instant ↔ instant = moment.instant := by
  simp only [Moment.isValid, Bool.and_eq_true] at valid
  have reached := Day.after_number (Day.isValid_iff_proper.mp valid.1.1.1.1.1).1
  have counted (days : Nat) (same : days = moment.date.number) :
      (((days * 24 + moment.hour) * 60 + moment.minute) * 60 + moment.second) * 1000000 +
        moment.microsecond = moment.clock := by
    simp only [Moment.clock, Moment.timeOfDay, Moment.microsPerDay, Moment.microsPerSecond, same]
    omega
  constructor
  · rintro ⟨days, date, rfl⟩
    rw [Moment.instant, counted days (Day.after_inj (date.trans reached.symm))]
  · rintro rfl
    exact ⟨_, reached, by rw [Moment.instant, counted _ rfl]⟩

/-- The instant is on a day of the years up to the last one in UTC. -/
def InCalendar (instant : Int) : Prop :=
  ∃ days micros : Nat, (Day.after days).year ≤ 9999 ∧ micros < 86400000000 ∧
    instant = (days * 86400000000 + micros : Nat)

theorem ofNumber_eq_after {number : Nat} (within : number < daysBefore (lastYear + 1)) :
    Day.ofNumber number = Day.after number := by
  obtain ⟨valid, same⟩ := ofNumber_spec within
  have reached := Day.after_number (Day.isValid_iff_proper.mp valid).1
  rw [same] at reached
  exact reached.symm

theorem after_year_le_iff {days : Nat} :
    (Day.after days).year ≤ lastYear ↔ days < daysBefore (lastYear + 1) := by
  constructor
  · intro early
    -- The days from the first of January of the year behind the last are in no earlier year.
    have january : Day.Proper ⟨lastYear + 1, 1, 1⟩ := ⟨by decide, by decide, by decide, by decide⟩
    have start := Day.after_number january
    rw [show Day.number ⟨lastYear + 1, 1, 1⟩ = daysBefore (lastYear + 1) from rfl] at start
    refine Nat.lt_of_not_le fun beyond => ?_
    rcases Nat.lt_or_eq_of_le beyond with more | rfl
    · have before := Day.before_after more
      rw [start] at before
      unfold Day.Before at before
      dsimp only at before
      omega
    · rw [start] at early
      exact Nat.not_succ_le_self _ early
  · intro within
    have valid := (ofNumber_spec within).1
    rw [ofNumber_eq_after within] at valid
    exact (Day.isValid_iff_proper.mp valid).2

theorem inCalendar_iff {instant : Int} : InCalendar instant ↔
    ∃ micros : Nat, instant = micros ∧ micros < Moment.endOfTime := by
  have size : Moment.endOfTime = daysBefore (lastYear + 1) * 86400000000 := rfl
  constructor
  · rintro ⟨days, micros, year, inDay, same⟩
    have within := after_year_le_iff.mp year
    exact ⟨_, same, by omega⟩
  · rintro ⟨micros, same, within⟩
    refine ⟨micros / 86400000000, micros % 86400000000, after_year_le_iff.mpr ?_, ?_, ?_⟩
    · omega
    · omega
    · rw [same]
      omega

/-! ## Timestamps -/

/-- The timestamp of an instant in the calendar denotes it to the millisecond. -/
theorem denotes_stampText {micros : Nat} (within : micros < Moment.endOfTime) :
    Denotes (stampText (momentAt micros)) (micros / 1000 : Nat) := by
  obtain ⟨valid, -, time⟩ := momentAt_isValid within
  have day : micros / Moment.microsPerDay < daysBefore (lastYear + 1) :=
    Nat.div_lt_of_lt_mul (by rw [Nat.mul_comm]; exact within)
  have date : (momentAt micros).date = Day.after (micros / Moment.microsPerDay) :=
    ofNumber_eq_after day
  generalize momentAt micros = utc at valid time date
  simp only [Moment.isValid, Bool.and_eq_true, decide_eq_true_eq] at valid
  obtain ⟨⟨⟨⟨⟨known, hour⟩, minute⟩, second⟩, micro⟩, _⟩ := valid
  obtain ⟨year, month, inMonth⟩ := Day.fields_lt known
  have two : Decimal.tenTo 2 = 100 := rfl
  have three : Decimal.tenTo 3 = 1000 := rfl
  have counts : micros / 1000 = (((micros / Moment.microsPerDay * 24 + utc.hour) * 60 +
      utc.minute) * 60 + utc.second) * 1000 + utc.microsecond / 1000 := by
    simp only [Moment.timeOfDay, Moment.microsPerDay, Moment.microsPerSecond] at time micro ⊢
    omega
  have shape : stampText utc = Decimal.padded 4 utc.date.year ++ '-' ::
      (Decimal.padded 2 utc.date.month ++ '-' :: (Decimal.padded 2 utc.date.day ++ 'T' ::
        (Decimal.padded 2 utc.hour ++ ':' :: (Decimal.padded 2 utc.minute ++ ':' ::
          (Decimal.padded 2 utc.second ++ '.' ::
            (Decimal.padded 3 (utc.microsecond / 1000) ++ ['Z'])))))) := by
    simp [stampText, Moment.dateText]
  change utc.microsecond < 1000000 at micro
  rw [shape, counts, date]
  rw [date] at year month inMonth
  exact .spelled (.padded (by decide) year) (.padded (by decide) month)
    (.padded (by decide) inMonth) ⟨hour, minute, second⟩ (.padded (by decide) (by omega))
    (.padded (by decide) (by omega)) (.padded (by decide) (by omega))
    (.padded (by decide) (by omega))

/-- The text of an earlier instant comes first, or is the same. -/
theorem stampText_le {micros later : Nat} (order : micros ≤ later)
    (within : later < Moment.endOfTime) :
    stampText (momentAt micros) = stampText (momentAt later) ∨
      stampText (momentAt micros) < stampText (momentAt later) := by
  have one := denotes_stampText (Nat.lt_of_le_of_lt order within)
  have other := denotes_stampText within
  rcases Nat.lt_or_eq_of_le (Nat.div_le_div_right (c := 1000) order) with less | same
  · exact .inr (one.lt other (Int.ofNat_lt.mpr less))
  · rw [same] at one
    exact .inl (one.text_eq other)

/-- A text that denotes an instant is the timestamp there. -/
theorem Denotes.eq_stampText {text : Text} {millis : Int} (denotes : Denotes text millis) :
    ∃ micros : Nat, millis * 1000 = micros ∧ micros < Moment.endOfTime ∧
      text = stampText (momentAt micros) := by
  have known := denotes
  obtain @⟨days, hour, minute, second, milli, _, _, _, _, _, _, _, inYear, -, -, clock, -, -, -,
    fraction⟩ := known
  have fine : milli < 1000 := fraction.lt
  have year : (Day.after days).year < 10000 := inYear.lt
  have within : days < daysBefore (lastYear + 1) :=
    after_year_le_iff.mp (Nat.le_of_lt_succ year)
  have size : Moment.endOfTime = daysBefore (lastYear + 1) * 86400000000 := rfl
  have early : ((((days * 24 + hour) * 60 + minute) * 60 + second) * 1000 + milli) * 1000 <
      Moment.endOfTime := by omega
  have same := denotes_stampText early
  rw [Nat.mul_div_cancel _ (by decide)] at same
  exact ⟨_, (Int.natCast_mul _ _).symm, early, denotes.text_eq same⟩

end Calendar

/-! ## Readers of dates -/

/-- If the text is a timestamp, the reader takes it for a moment at the instant that it denotes. -/
def Clock.ReadsStamp (clock : Clock) (text : Text) : Prop :=
  ∀ millis, Calendar.Denotes text millis → ∃ moment, clock.read (text.map .char) = some moment ∧
    moment.isValid = true ∧ Calendar.HappensAt moment (millis * 1000)

theorem Clock.readsStamp_plain (now : Calendar.Moment) (text : Text) :
    (plain now).ReadsStamp text := by
  intro millis denotes
  obtain ⟨micros, counted, within, rfl⟩ := denotes.eq_stampText
  have valid := Calendar.toMillis_isValid (Calendar.momentAt_isValid within).1
  have whole : micros / 1000 * 1000 = micros := by omega
  refine ⟨_, ?_, valid, (Calendar.happensAt_iff valid).mpr ?_⟩
  · dsimp only [plain]
    rw [Text.Point.map_shown_char]
    exact Calendar.ofText?_stampText (Calendar.momentAt_isValid within).1
  · rw [Calendar.toMillis_instant within, counted, whole]

namespace Timestamp

open Calendar

variable {moment : Moment} {micros : Nat}

theorem ofMoment_eq (happens : moment.instant = micros) (within : micros < Moment.endOfTime) :
    ofMoment moment = .ok (stampText (momentAt micros)) := by
  rw [ofMoment, stamp_eq happens within]

theorem exists_of_ofMoment {text : Text} (made : ofMoment moment = .ok text) :
    ∃ micros : Nat, moment.instant = micros ∧ micros < Moment.endOfTime := by
  unfold ofMoment at made
  split at made
  · next found => exact exists_of_stamp found
  · cases made

section Moments

variable {text : Text} {clock : Clock}

theorem ofValue_moment (made : ofMoment moment = .ok text) (clock : Clock) :
    ofValue clock (.moment moment) = (.ok (.text text), []) := by
  rw [ofValue, made]
  rfl

theorem ofValue_moment_eq_error_iff {failure : Failure} :
    (ofValue clock (.moment moment)).1 = .error failure ↔ ofMoment moment = .error failure := by
  rw [ofValue]
  cases ofMoment moment with
  | ok text => exact ⟨nofun, nofun⟩
  | error found =>
      exact ⟨fun same => congrArg _ (Except.error.inj same),
        fun same => congrArg _ (Except.error.inj same)⟩

theorem ofMoment_of_ofValue (made : ofValue clock (.moment moment) = (.ok (.text text), [])) :
    ofMoment moment = .ok text := by
  obtain ⟨_, stamped, same⟩ := exists_of_map_ok (congrArg Prod.fst made)
  exact Value.text.inj same ▸ stamped

end Moments

theorem ofMoment_eq_error_iff :
    ofMoment moment = .error .outOfCalendar ↔ ¬InCalendar moment.instant := by
  rw [inCalendar_iff]
  constructor
  · rintro failed ⟨micros, happens, within⟩
    rw [ofMoment_eq happens within] at failed
    cases failed
  · intro outside
    unfold ofMoment
    split
    · next found => exact absurd (exists_of_stamp found) outside
    · rfl

/-- A reader that takes the timestamp of a moment for a moment at the instant that it denotes
leaves it as it is. -/
theorem ofValue_stamp {clock : Clock} {text : Text} (made : ofMoment moment = .ok text)
    (reads : clock.ReadsStamp text) : ofValue clock (.text text) = (.ok (.text text), []) := by
  obtain ⟨micros, happens, within⟩ := exists_of_ofMoment made
  obtain rfl := Except.ok.inj (made.symm.trans (ofMoment_eq happens within))
  obtain ⟨again, read, valid, there⟩ := reads _ (denotes_stampText within)
  have instant : again.instant = (micros / 1000 * 1000 : Nat) :=
    ((happensAt_iff valid).mp there).symm
  have early := Nat.lt_of_le_of_lt (Nat.div_mul_le_self micros 1000) within
  simp only [ofValue, Value.points?, read]
  rw [ofMoment_eq instant early, stampText_momentAt]
  rfl

/-- Every moment happens at an instant. There is no timestamp if the instant is outside the
calendar, and otherwise the timestamp denotes it to the millisecond: it has 24 characters, is the
timestamp of each moment at the instant that it denotes, and of itself if the reader takes it for
such a moment, and no later instant has a timestamp that comes before it. -/
theorem ofValue_denotes {moment : Moment} (valid : moment.isValid = true) (clock : Clock) :
    (∃ instant, HappensAt moment instant) ∧ ∀ instant, HappensAt moment instant →
      ((ofValue clock (.moment moment)).1 = .error .outOfCalendar ↔ ¬InCalendar instant) ∧
      (InCalendar instant → ∃ text, ofValue clock (.moment moment) = (.ok (.text text), []) ∧
        text.length = 24 ∧ (∀ millis, Denotes text millis ↔ millis = instant / 1000) ∧
        (∀ again, again.isValid = true → HappensAt again (instant / 1000 * 1000) →
          ofValue clock (.moment again) = (.ok (.text text), [])) ∧
        (clock.ReadsStamp text → ofValue clock (.text text) = (.ok (.text text), [])) ∧
        ∀ later laterInstant laterText, later.isValid = true → HappensAt later laterInstant →
          instant ≤ laterInstant →
          ofValue clock (.moment later) = (.ok (.text laterText), []) →
          text = laterText ∨ text < laterText) := by
  refine ⟨⟨_, (happensAt_iff valid).mpr rfl⟩, fun instant happens => ?_⟩
  obtain rfl := (happensAt_iff valid).mp happens
  refine ⟨ofValue_moment_eq_error_iff.trans ofMoment_eq_error_iff, fun known => ?_⟩
  obtain ⟨micros, same, within⟩ := inCalendar_iff.mp known
  have denotes := denotes_stampText within
  have early : micros / 1000 * 1000 < Moment.endOfTime :=
    Nat.lt_of_le_of_lt (Nat.div_mul_le_self _ _) within
  have made := ofMoment_eq same within
  rw [same]
  refine ⟨_, ofValue_moment made clock, denotes.length,
    fun millis => ⟨fun other => other.unique denotes, ?_⟩, fun again whole there => ?_,
    ofValue_stamp made, fun later laterInstant laterText whole there order stamped => ?_⟩
  · rintro rfl
    exact denotes
  · have instant := (happensAt_iff whole).mp there
    refine ofValue_moment ?_ clock
    rw [ofMoment_eq instant.symm early, stampText_momentAt]
  · obtain rfl := (happensAt_iff whole).mp there
    obtain ⟨after, instant, last⟩ := exists_of_ofMoment (ofMoment_of_ofValue stamped)
    rw [ofValue_moment (ofMoment_eq instant last) clock] at stamped
    cases stamped
    rw [instant] at order
    exact stampText_le (Int.ofNat_le.mp order) last

/-- Past midnight of 1 March to the east of UTC, where it is still 29 February. -/
def pastMidnight : Moment := ⟨⟨2024, 3, 1⟩, 0, 30, 0, 123999, some 19800000000⟩

def leapEvening : Moment := ⟨⟨2024, 2, 29⟩, 19, 0, 0, 124000, none⟩

/-- The last hour of the last year to the west of UTC, where the year is over. -/
def lastHour : Moment := ⟨⟨9999, 12, 31⟩, 23, 0, 0, 0, some (-7200000000)⟩

def eveningClock : Clock := .plain leapEvening

/-- Both outcomes occur, and the timestamp is on the day in UTC. -/
theorem ofValue_denotes_pastMidnight :
    InCalendar 63844830000123999 ∧ ¬InCalendar 315537901200000000 ∧
      (∃ text laterText, ofValue eveningClock (.moment pastMidnight) = (.ok (.text text), []) ∧
        ofValue eveningClock (.moment leapEvening) = (.ok (.text laterText), []) ∧
        text = "2024-02-29T19:00:00.123Z".toList ∧ Denotes text 63844830000123 ∧
        ofValue eveningClock (.text text) = (.ok (.text text), []) ∧
        (text = laterText ∨ text < laterText)) ∧
      (ofValue eveningClock (.moment lastHour)).1 = .error .outOfCalendar := by
  have inside : InCalendar 63844830000123999 :=
    inCalendar_iff.mpr ⟨63844830000123999, rfl, by decide⟩
  have evening : InCalendar 63844830000124000 :=
    inCalendar_iff.mpr ⟨63844830000124000, rfl, by decide⟩
  have outside : ¬InCalendar 315537901200000000 := by
    rw [inCalendar_iff]
    rintro ⟨micros, same, within⟩
    have size : Moment.endOfTime = 315537897600000000 := rfl
    omega
  have night : pastMidnight.isValid = true := by decide
  have still : leapEvening.isValid = true := by decide
  have last : lastHour.isValid = true := by decide
  have here : HappensAt pastMidnight 63844830000123999 :=
    (happensAt_iff night).mpr (by decide +kernel)
  have there : HappensAt leapEvening 63844830000124000 := (happensAt_iff still).mpr rfl
  have beyond : HappensAt lastHour 315537901200000000 := (happensAt_iff last).mpr rfl
  obtain ⟨text, made, -, denotes, -, again, order⟩ :=
    ((ofValue_denotes night eveningClock).2 _ here).2 inside
  obtain ⟨laterText, stamped, -⟩ := ((ofValue_denotes still eveningClock).2 _ there).2 evening
  refine ⟨inside, outside, ⟨text, laterText, made, stamped, ?_, (denotes _).mpr rfl,
    again (Clock.readsStamp_plain _ text), order _ _ _ still there (by decide) stamped⟩, ?_⟩
  · have found : ofMoment pastMidnight = .ok "2024-02-29T19:00:00.123Z".toList := by rfl
    exact Except.ok.inj ((ofMoment_of_ofValue made).symm.trans found)
  · exact ((ofValue_denotes last eveningClock).2 _ beyond).1.mpr outside

end Timestamp

end TypeScriptGen
