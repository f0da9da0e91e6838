import ToolCalls.Log.Record

/-!
# Tasks and their log context

Tasks keep the fields of their log context in tables.  A task that starts others hands its own table
to them, and what one of them sets in that table all holders see (`Scene.set`).  Every other change
gives the task a new table, which the others do not see (`Scene.become`).  A task that has not
looked at its fields yet, and was handed no table, holds none (`Scene.settled`).

A `Scene` is what an action works on: the world that all tasks share, and what its own task holds.
Main statements: `context_become`, `context_settled` and `context_set`.
-/

namespace ToolCalls.Log

/-- What all tasks share. -/
structure World where
  /-- The tables, by their numbers. -/
  tables : List (Fields Datum) := []
  /-- The number of ids drawn so far. -/
  drawn : Nat := 0
  /-- The loggers that entries have come from. -/
  loggers : List Text := []

/-- What a task holds: the number of a table, and a request. -/
structure Slot where
  table? : Option Nat := none
  request? : Option Text := none

/-- What an action works on. -/
structure Scene extends World, Slot

/-- The text of a drawn id. -/
def drawnId (number : Nat) : Text := "<generated-".toList ++ Decimal.ofNat number ++ ['>']

namespace Scene

/-- The fields in the table that the task holds. -/
def fields (s : Scene) : Fields Datum :=
  match s.table? with
  | some n => s.tables.getD n []
  | none => []

/-- The log context of the task. -/
def context (s : Scene) : Context := ⟨s.fields, s.request?⟩

/-- Gives the task the given context, with a new table for its fields. -/
def become (s : Scene) (c : Context) : Scene :=
  { s with
    tables := s.tables ++ [c.fields]
    table? := some s.tables.length
    request? := c.request? }

/-- Gives the task a table if it holds none. -/
def settled (s : Scene) : Scene := if s.table?.isSome then s else s.become s.context

/-- Sets a field in the table that the task holds. -/
def set (s : Scene) (key : Text) (value : Datum) : Scene :=
  let s := s.settled
  match s.table? with
  | some n => { s with tables := s.tables.modify n (·.put key value) }
  | none => s

/-- The id that was given, or one that is drawn.  An empty id counts as none. -/
def pickId (s : Scene) : Option Text → Text × Scene
  | none | some [] => (drawnId (s.drawn + 1), { s with drawn := s.drawn + 1 })
  | some id => (id, s)

/-- Logs an entry and gives the record that is kept of it.  The common logger takes everything;
elsewhere only a warning or more is looked at, and no record of it is kept. -/
def log (s : Scene) (e : Entry) : Except Clash (Option Record) × Scene :=
  let s := { s with loggers := e.logger :: s.loggers }
  let kept := reachesRoot s.loggers e.logger
  if !kept && decide (e.severity.level < inheritedLevel) then (.ok none, s)
  else match e.clash? with
    | some clash => (.error clash, s)
    | none => (.ok (if kept then some (e.record s.fields) else none), s.settled)

@[simp] theorem context_become (s : Scene) (c : Context) : (s.become c).context = c := by
  simp [become, context, fields]

@[simp] theorem context_settled (s : Scene) : s.settled.context = s.context := by
  unfold settled
  split
  · rfl
  · exact context_become s s.context

/-- A field that a task sets in its table is in its own context. -/
theorem context_set {s : Scene} (h : ∀ n, s.table? = some n → n < s.tables.length) (key : Text)
    (value : Datum) : (s.set key value).context = s.context.set key value := by
  cases ht : s.table? with
  | none => simp [set, settled, become, context, fields, Context.set, ht]
  | some n =>
    have hn : n < s.tables.length := h n ht
    simp [set, settled, context, fields, Context.set, ht, List.getD, List.getElem?_eq_getElem hn]

end Scene

end ToolCalls.Log
