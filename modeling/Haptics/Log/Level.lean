/-!
# Log levels

How much a message matters. A log has a threshold, and messages below it are not written; the
threshold `none` writes nothing.
-/

namespace Haptics

inductive LogLevel
  | debug
  | info
  | warn
  | error
  | none
  | undeclared (number : Int)
deriving DecidableEq, Repr

namespace LogLevel

/-- The declared levels, in the order of their numbers. -/
def declared : List LogLevel := [debug, info, warn, error, none]

/-- The level with a number. -/
def ofNumber (n : Int) : LogLevel :=
  if n < 0 then undeclared n else (declared[n.toNat]?).getD (undeclared n)

def number : LogLevel → Int
  | debug => 0
  | info => 1
  | warn => 2
  | error => 3
  | none => 4
  | undeclared n => n

def name : LogLevel → String
  | debug => "debug"
  | info => "info"
  | warn => "warn"
  | error => "error"
  | none => "none"
  | undeclared _ => "unknown"

/-- A character with a capital ASCII letter made small. -/
def small (c : Char) : Char := if 'A' ≤ c ∧ c ≤ 'Z' then Char.ofNat (c.toNat + 32) else c

/-- The level that a configuration names, in capital or small letters. The level `none` cannot be
named. -/
def ofName? (text : String) : Option LogLevel :=
  [debug, info, warn, error].find? fun level => level.name.toList = text.toList.map small

/-- Whether a message is written under a threshold. -/
def writtenUnder (level threshold : LogLevel) : Bool :=
  level ≠ none && decide (threshold.number ≤ level.number)

/-- What stands before a message. -/
def mark : LogLevel → String
  | debug => " [DEBUG] "
  | info => " [INFO]  "
  | warn => " [WARN]  "
  | error => " [ERROR] "
  | none | undeclared _ => ""

end LogLevel

end Haptics
