import ToolCalls.Log.Line
import ToolCalls.Text.Lines

/-!
# Sinks

Where log lines go: to the console, and to a file if one is set up.  A record has to pass the level
of its logger and that of a sink.  The sinks belong to the common logger of this library; records of
other loggers do not come to them.
-/

namespace ToolCalls.Log

/-- Where lines are written. -/
inductive Target where
  | console | file
deriving DecidableEq, Repr

/-- Where and how lines are written. -/
structure Sink where
  target : Target
  level : Int
  structured : Bool
deriving DecidableEq, Repr

/-- A sink's lines for a record. -/
def Sink.lines (s : Sink) (r : Record) : List Text :=
  if s.structured then [r.structuredLine] else Text.lines r.plainLine

/-- The sinks and what has been written to them. -/
structure Sinks where
  /-- The level of the common logger; zero leaves it to the level above. -/
  level : Int := 0
  sinks : List Sink := [⟨.console, 30, true⟩]
  console : List Text := []
  /-- The lines of the file, if there has ever been one. -/
  file? : Option (List Text) := none
  /-- The loggers that entries have come from. -/
  loggers : List Text := []

namespace Sinks

/-- Whether the records of a logger reach the sinks. -/
def reach (s : Sinks) (logger : Text) : Bool := reachesRoot s.loggers logger

/-- The level that the entries of a logger have to reach. -/
def levelOf (s : Sinks) (logger : Text) : Int :=
  if s.reach logger && s.level != 0 then s.level else inheritedLevel

/-- Writes lines to a target. -/
def write (s : Sinks) (target : Target) (lines : List Text) : Sinks :=
  match target with
  | .console => { s with console := s.console ++ lines }
  | .file => { s with file? := some (s.file?.getD [] ++ lines) }

/-- Passes a record on to every sink whose level it reaches.  Of a record that reaches no sinks at
all, the bare message goes to the console. -/
def emit (s : Sinks) (r : Record) : Sinks :=
  if s.reach r.logger then
    (s.sinks.filter fun sink => decide (sink.level ≤ r.severity.level)).foldl
      (fun s sink => s.write sink.target (sink.lines r)) s
  else s.write .console (Text.lines r.message)

/-- Logs an entry in a context with the given fields.  An entry below the level of its logger is not
looked at; any other one may be refused. -/
def log (s : Sinks) (fields : Fields Datum) (e : Entry) : Except Clash Sinks :=
  let s := { s with loggers := e.logger :: s.loggers }
  if e.severity.level < s.levelOf e.logger then .ok s
  else match e.clash? with
    | some clash => .error clash
    | none => .ok (s.emit (e.record fields))

/-- The record that tells of a new set-up. -/
def setupRecord (level : Int) (structured : Bool) : Record where
  severity := .info
  logger := Log.logger "logging"
  message := "Logging initialized".toList
  context := .object [("level".toList, .string (levelName level)),
    ("structured".toList, .boolean structured)]

/-- Sets up the sinks anew: the console, and the file if one is wanted. -/
def setup (s : Sinks) (level : Int) (structured file : Bool) : Sinks :=
  let console : Sink := ⟨.console, level, structured⟩
  let s : Sinks :=
    { s with
      level := level
      sinks := if file then [console, ⟨.file, level, structured⟩] else [console]
      file? := if file then some (s.file?.getD []) else s.file? }
  let r := setupRecord level structured
  if r.severity.level < s.levelOf r.logger then s else s.emit r

end Sinks

end ToolCalls.Log
