import Haptics.Log.Level
/-!
# Log entries

The line that a message is written as. Only the most detailed threshold shows where in the program a
message comes from.
-/

namespace Haptics

/-- A place in a program. -/
structure LogPlace where
  file : String
  line : Int
deriving DecidableEq, Repr

structure LogEntry where
  level : LogLevel
  message : String
  place : Option LogPlace := none
deriving DecidableEq, Repr

namespace LogEntry

/-- Where an entry comes from, in brackets. -/
def placeText (e : LogEntry) : String :=
  match e.place with
  | some p => " (" ++ p.file ++ ":" ++ toString p.line ++ ")"
  | none => ""

/-- The line that an entry is written as at a time, if it is written. -/
def line (e : LogEntry) (threshold : LogLevel) (time : String) : Option String :=
  if e.level.writtenUnder threshold then
    some ("[" ++ time ++ "]" ++ e.level.mark ++ e.message ++
      (if threshold = .debug then e.placeText else "") ++ "\n")
  else none

end LogEntry

end Haptics
