import TypeScriptGen.Calendar.Reader
import TypeScriptGen.Failure

/-!
# Timestamps

The text `YYYY-MM-DDTHH:MM:SS.mmmZ` of a moment, of a text that spells one, or of
the present. What a text spells is up to the reader of dates, which belongs to the
clock and not to this library; a text that spells nothing for it is kept as it is,
with a warning.
-/

namespace TypeScriptGen

/-- What an operation reports beside its result. -/
inductive Warning
  | keptTimestamp (found : Value)
  | replacedDefault (old module new : Text)
  | replacedNamespace (old module new : Text)

def Warning.message : Warning → Text
  | .keptTimestamp found =>
      "Could not parse timestamp ".toList ++ found.inspect ++ ", keeping it verbatim".toList
  | .replacedDefault old module new =>
      "Default import '".toList ++ old ++ "' from '".toList ++ module ++ "' replaced by '".toList ++
        new ++ ['\x27']
  | .replacedNamespace old module new =>
      "Namespace import '".toList ++ old ++ "' from '".toList ++ module ++
        "' replaced by '".toList ++ new ++ ['\x27']

/-- The present, and the reader of dates as it reads at present. The reader may take any text for
any moment, or for none. -/
structure Clock where
  now : Calendar.Moment
  read : List Text.Point → Option Calendar.Moment

/-- A clock whose reader knows the one written form of `Moment.ofText?`. -/
def Clock.plain (now : Calendar.Moment) : Clock where
  now := now
  read points := Calendar.Moment.ofText? (points.map Text.Point.shown)

namespace Timestamp

def ofMoment (moment : Calendar.Moment) : Except Failure Text :=
  match moment.stamp with
  | some text => .ok text
  | none => .error .outOfCalendar

/-- The timestamp of a value, with the warnings that it gives rise to. -/
def ofValue (clock : Clock) (value : Value) : Except Failure Value × List Warning :=
  match value with
  | .null => ((ofMoment clock.now).map .text, [])
  | .moment date => ((ofMoment date).map .text, [])
  | other =>
      match other.points? with
      | none => (.error .wrongKind, [])
      | some points =>
          match clock.read points with
          | some date => ((ofMoment date).map .text, [])
          | none => (.ok other, [.keptTimestamp other])

end Timestamp

end TypeScriptGen
