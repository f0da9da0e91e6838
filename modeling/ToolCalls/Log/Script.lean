import ToolCalls.Log.Scene

/-!
# Scripts on the log context

A script is a list of actions on the log context of a task.  Basic actions are done at once
(`Scene.perform`).  The others pause the task, run actions inside a scope, or run tasks side by
side; how they go is said where tasks are run.  A `Step` tells what became of an action.
-/

namespace ToolCalls.Log

/-- An action that is done at once. -/
inductive Basic where
  | update (values : Fields Datum)
  | clear
  | endRequest
  /-- Starts a request, with a drawn id if none is given. -/
  | startRequest (id? : Option Text)
  /-- Sets a field in a copy of the context's fields. -/
  | copyThenSet (key : Text) (value : Datum)
  /-- Sets a field in the table that the task holds. -/
  | set (key : Text) (value : Datum)
  | log (entry : Entry)
  /-- Raises an error. -/
  | raise (message : Text)

/-- An action of a script. -/
inductive Action where
  | basic (basic : Basic)
  /-- Lets the other tasks have their turn. -/
  | pause
  /-- Runs actions with more fields; an error from inside is caught, and raised again if asked
  for. -/
  | contextScope (values : Fields Datum) (body : List Action) (rethrow : Bool)
  /-- Runs actions in a request; an error from inside is caught, and raised again if asked for. -/
  | requestScope (id? : Option Text) (body : List Action) (rethrow : Bool)
  /-- Runs tasks side by side. -/
  | together (tasks : List (List Action))

mutual

/-- The number of actions in an action, counting a task as one more. -/
def Action.size : Action → Nat
  | .basic _ | .pause => 1
  | .contextScope _ body _ | .requestScope _ body _ => scriptSize body + 1
  | .together tasks => tasksSize tasks + 1

/-- The number of actions in a script. -/
def scriptSize : List Action → Nat
  | [] => 0
  | action :: actions => action.size + scriptSize actions

/-- The number of actions in the scripts of tasks, counting a task as one more. -/
def tasksSize : List (List Action) → Nat
  | [] => 0
  | task :: tasks => scriptSize task + 1 + tasksSize tasks

end

/-! ## Faults -/

/-- What ends a script before its end. -/
inductive Fault where
  /-- An error that the script raised. -/
  | raised (message : Text)
  /-- An entry was refused. -/
  | clash (clash : Clash)
  /-- The arguments of a kept entry do not go with its template. -/
  | misfit (misfit : Misfit)
  /-- A scope was to set the field whose name stands for the context itself. -/
  | reservedField
deriving DecidableEq, Repr

namespace Fault

/-- The wording of the fault. -/
def message : Fault → Text
  | raised message => message
  | clash c => c.message
  | misfit m => m.message
  | reservedField =>
    "LogContext.context_scope() got multiple values for argument 'self'".toList

/-- The message of a fault that scopes catch: only errors that the script raised are caught. -/
def caught? : Fault → Option Text
  | raised message => some message
  | _ => none

end Fault

/-- The name of the field that no scope can set. -/
def selfKey : Text := "self".toList

/-! ## Steps -/

/-- What an action shows besides the context after it. -/
inductive Shown where
  | nothing
  | id (id : Text)
  | copy (fields : Fields Datum)
  | records (records : List Record)

/-- What is known when a scope has been entered: the fields, or the id of the request. -/
inductive Entered where
  | fields (fields : Fields Datum)
  | request (id : Text)

/-- What became of an action.  The context after it is missing if the action did not come to its
end. -/
inductive Step where
  | basic (basic : Basic) (shown : Shown) (after? : Option Context)
  | pause (after? : Option Context)
  | scope (entered : Entered) (inner : List Step) (caught? : Option Text) (after? : Option Context)
  /-- A scope that was not entered. -/
  | refused
  /-- Tasks that ran side by side, numbered from `first` on. -/
  | together (first count : Nat) (after? : Option Context)

/-- Does a basic action. -/
def Scene.perform (s : Scene) : Basic → Except Fault Shown × Scene
  | .update values => (.ok .nothing, s.become (s.context.update values))
  | .clear => (.ok .nothing, s.become s.context.clear)
  | .endRequest => (.ok .nothing, s.become s.context.endRequest)
  | .startRequest id? =>
    let (id, s) := s.pickId id?
    (.ok (.id id), s.become (s.context.startRequest id))
  | .copyThenSet key value => (.ok (.copy (s.fields.put key value)), s)
  | .set key value => (.ok .nothing, s.set key value)
  | .log entry => match s.log entry with
    | (.ok (some record), s) => match misfit? entry.template entry.arguments with
      | some misfit => (.error (.misfit misfit), s)
      | none => (.ok (.records [record]), s)
    | (.ok none, s) => (.ok (.records []), s)
    | (.error clash, s) => (.error (.clash clash), s)
  | .raise message => (.error (.raised message), s)

end ToolCalls.Log
