import ToolCalls.Datum

/-!
# Log context

The fields that go into every log record of a task, and the id of the request that the task works
on.  Whoever starts a request also puts its id among the fields.
-/

namespace ToolCalls.Log

/-- The fields of all records of a task, and its request. -/
structure Context where
  fields : Fields Datum := []
  request? : Option Text := none

namespace Context

/-- The name of the field that holds the id of the request. -/
def requestKey : Text := "request_id".toList

/-- The context with more fields. -/
def update (c : Context) (values : Fields Datum) : Context :=
  { c with fields := c.fields.merge values }

/-- The context with one field set. -/
def set (c : Context) (key : Text) (value : Datum) : Context :=
  { c with fields := c.fields.put key value }

/-- The context without fields and without a request. -/
def clear (_ : Context) : Context := {}

/-- The context in a request. -/
def startRequest (c : Context) (id : Text) : Context :=
  { fields := c.fields.put requestKey (.string id), request? := some id }

/-- The context after its request. -/
def endRequest (c : Context) : Context := c.clear

/-- The context with the fields of an earlier one. -/
def restoreFields (c earlier : Context) : Context := { c with fields := earlier.fields }

end Context

end ToolCalls.Log
