import TypeScriptGen.Failure

/-!
# Logging

Loggers live under one name. Setting logging up puts one handler on the logger
of that name, however often it is done, and sets its level: a number, or one of
the known names.
-/

namespace TypeScriptGen

structure Logger where
  level : Value
  handlers : Nat

namespace Logger

def rootName : Text := "ts_builder".toList

/-- The name of a logger under the root. -/
def nameUnder (name : Text) : Text :=
  if name = rootName || (rootName ++ ['.']).isPrefixOf name then name
  else rootName ++ '.' :: name

def fresh : Logger := ⟨.int 0, 0⟩

def levels : List (Text × Int) :=
  [("CRITICAL".toList, 50), ("FATAL".toList, 50), ("ERROR".toList, 40), ("WARN".toList, 30),
    ("WARNING".toList, 30), ("INFO".toList, 20), ("DEBUG".toList, 10), ("NOTSET".toList, 0)]

def defaultLevel : Int := 20

/-- The level that a value names; null names the default one. -/
def levelOf : Value → Except Failure Value
  | .null => .ok (.int defaultLevel)
  | .int level => .ok (.int level)
  | .bool flag => .ok (.bool flag)
  | .text name =>
      match levels.lookup name with
      | some level => .ok (.int level)
      | none => .error .unknownLevel
  | .ragged _ => .error .unknownLevel
  | _ => .error .wrongKind

/-- Puts the handler in place and sets the level; a level that is unknown changes nothing else. -/
def setUp (logger : Logger) (level : Value) : Logger × Except Failure Unit :=
  let ready := { logger with handlers := 1 }
  match levelOf level with
  | .ok found => ({ ready with level := found }, .ok ())
  | .error failure => (ready, .error failure)

end Logger

end TypeScriptGen
