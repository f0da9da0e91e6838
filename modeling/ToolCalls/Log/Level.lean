import ToolCalls.Decimal.Integer

/-!
# Log levels

Records have one of five severities.  A level is an integer that records are measured against; some
levels have names, and some of them two.
-/

namespace ToolCalls.Log

/-- How grave a record is. -/
inductive Severity where
  | debug | info | warning | error | critical
deriving DecidableEq, Repr

/-- The level of a severity. -/
def Severity.level : Severity → Int
  | debug => 10
  | info => 20
  | warning => 30
  | error => 40
  | critical => 50

/-- The names of levels.  Where a level has two, the first one is used for it. -/
def levelNames : List (Text × Int) :=
  [("CRITICAL".toList, 50), ("FATAL".toList, 50), ("ERROR".toList, 40), ("WARNING".toList, 30),
    ("WARN".toList, 30), ("INFO".toList, 20), ("DEBUG".toList, 10), ("NOTSET".toList, 0)]

/-- The level of a name. -/
def level? (name : Text) : Option Int := levelNames.lookup name

/-- The name of a level; a level without one is given by its number. -/
def levelName (level : Int) : Text :=
  match levelNames.find? fun e => e.2 == level with
  | some (name, _) => name
  | none => "Level ".toList ++ Decimal.ofInt level

/-- The level that applies where a logger and those above it set none. -/
def inheritedLevel : Int := Severity.warning.level

/-- The name of a severity. -/
def Severity.name (s : Severity) : Text := levelName s.level

end ToolCalls.Log
