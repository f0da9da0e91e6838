import ToolCalls.Call

/-!
# Calls as data

Values and calls as structured data, for log records.
-/

namespace ToolCalls

namespace Value

/-- The parts of a value as structured data. -/
def node (kind : Kind) (datum : Datum) (raw : Text) (elements : List Datum)
    (members : List (Text × Datum)) : Datum :=
  .record [("kind".toList, .string kind.name), ("value".toList, datum),
    ("raw".toList, .string raw), ("elements".toList, .list elements),
    ("members".toList, .object members)]

mutual

/-- A value as structured data. -/
def record : Value → Datum
  | string t raw => node .string (.string t) raw [] []
  | integer n raw => node .integer (.integer n) raw [] []
  | float x raw => node .float (.float x) raw [] []
  | boolean b raw => node .boolean (.boolean b) raw [] []
  | null raw elements members => node .null .null raw (records elements) (fieldRecords members)
  | array items raw elements => node .array (.list items) raw (records elements) []
  | object fields raw members => node .object (.object fields) raw [] (fieldRecords members)

/-- Values as structured data. -/
def records : List Value → List Datum
  | [] => []
  | v :: vs => record v :: records vs

/-- Named values as structured data. -/
def fieldRecords : List (Text × Value) → List (Text × Datum)
  | [] => []
  | (key, v) :: rest => (key, record v) :: fieldRecords rest

end

end Value

/-- A call as structured data. -/
def Call.record (c : Call) : Datum :=
  .record [("name".toList, .string c.name),
    ("kwargs".toList, .object (c.arguments.mapValues Value.record)),
    ("content".toList, .string c.content), ("raw".toList, .string c.raw)]

end ToolCalls
