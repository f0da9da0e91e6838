import ToolCalls.Json
import ToolCalls.Log.Moment
import ToolCalls.Log.Raised

/-!
# Log lines

A record on a line: either structured, as a JSON object, or plain.  The structured line has the time
and the place of the record first, then its context, its further data, which may replace earlier
fields, and the error it reports.
-/

namespace ToolCalls.Log

/-- When and where a record was made. -/
structure Origin where
  created : Datum
  pid : Datum
  thread : Datum
  file : Text
  line : Int
  function : Text

/-- The fields of the record itself, between its time and its place. -/
def headFields (level message logger : Text) : Fields Datum :=
  [("level".toList, .string level), ("message".toList, .string message),
    ("logger".toList, .string logger)]

/-- The fields of the place of a record. -/
def Origin.fields (o : Origin) : Fields Datum :=
  [("pid".toList, o.pid), ("thread".toList, o.thread), ("file".toList, .string o.file),
    ("line".toList, .integer o.line), ("function".toList, .string o.function)]

/-- The field with the context of a record, if the context is an object and not empty. -/
def contextFields : Datum → Fields Datum
  | .object [] => []
  | .object fields => [(contextKey, .object fields)]
  | _ => []

/-- The fields with the context and the further data of a record. -/
def addData (fields : Fields Datum) (context extra : Datum) : Fields Datum :=
  (fields ++ contextFields context).merge (fieldsOf extra)

/-- Why there is no line for a record. -/
inductive LineError where
  | moment (error : MomentError)
  | misfit (misfit : Misfit)
deriving DecidableEq, Repr

/-- The wording of the error. -/
def LineError.message : LineError → Text
  | moment e => e.message
  | misfit m => m.message

/-- A structured line.  Its time is looked at first, then its message. -/
def structuredLine (origin : Origin) (level logger template : Text) (arguments : List Datum)
    (context extra : Datum) (traceback? : Option Text) : Except LineError Text :=
  match (Moment.ofSeconds origin.created).bind Moment.write, misfit? template arguments with
  | .error e, _ => .error (.moment e)
  | .ok _, some m => .error (.misfit m)
  | .ok timestamp, none =>
    let head := headFields level (message template arguments) logger
    let fields := ("timestamp".toList, .string timestamp) :: head ++ origin.fields
    let fields := addData fields context extra
    let fields := match traceback? with
      | some traceback => fields.put "traceback".toList (.string traceback)
      | none => fields
    .ok (Json.write (.object fields))

/-- The names of the fields that say when and where a record was made. -/
def originKeys : List Text :=
  ["timestamp".toList, "pid".toList, "thread".toList, "file".toList, "line".toList,
    "function".toList]

/-- The fields of a record that do not depend on when and where it was made. -/
def Record.lastingFields (r : Record) : Fields Datum :=
  (addData (headFields r.severity.name r.message r.logger) r.context r.extra).without originKeys

/-- The structured line of a record, as far as it does not depend on when and where it was made. -/
def Record.structuredLine (r : Record) : Text := Json.write (.object r.lastingFields)

/-- The plain line of a record, behind its time. -/
def Record.plainLine (r : Record) : Text :=
  r.severity.name ++ ' ' :: r.logger ++ ':' :: ' ' :: r.message

end ToolCalls.Log
