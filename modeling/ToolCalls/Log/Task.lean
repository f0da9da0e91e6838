import ToolCalls.Log.Script

/-!
# Tasks

A task works through a script, one action at a time (`Task.advance`).  A scope that has been
entered and not left is a `Frame`: the context to go back to, and what is to be done and has been
done around the scope.  Scopes put the context back when they are left, also when a fault ends them.
-/

namespace ToolCalls.Log

/-- A scope that a task is in. -/
structure Frame where
  entered : Entered
  /-- The context before the scope. -/
  before : Context
  /-- Whether an error that the scope catches is raised again. -/
  rethrow : Bool
  /-- The steps before the scope. -/
  done : List Step
  /-- The actions behind the scope. -/
  todo : List Action

/-- The context behind a scope, given the one at its end.  A scope for fields leaves the request as
it is. -/
def Frame.after (f : Frame) (inside : Context) : Context :=
  match f.entered with
  | .fields _ => inside.restoreFields f.before
  | .request _ => f.before

/-- Whether a task can go on, and if not, why. -/
inductive Status where
  | going
  | paused
  /-- It waits for tasks side by side, of which `missing` have not reported. -/
  | waiting (first count missing : Nat)
  /-- The tasks it waited for have all ended, or one of them had a fault. -/
  | released (first count : Nat) (fault? : Option Fault)
  | ended

/-- A task. -/
structure Task where
  slot : Slot := {}
  /-- The actions to come in the innermost scope. -/
  todo : List Action
  /-- The steps so far in the innermost scope. -/
  done : List Step := []
  /-- The scopes the task is in, the innermost first. -/
  frames : List Frame := []
  status : Status := .going
  /-- The fault that is ending the task or has ended it. -/
  fault? : Option Fault := none
  /-- The number of the task that waits for this one. -/
  parent? : Option Nat := none

/-- What a task asks for after an action. -/
inductive Signal where
  /-- To go on. -/
  | going
  /-- To be woken in the next round. -/
  | paused
  | ended
  /-- To run tasks side by side. -/
  | together (tasks : List (List Action))

/-- What comes of an action of a task. -/
structure Move where
  task : Task
  world : World
  signal : Signal := .going

namespace Task

/-- What the task's actions work on. -/
def scene (t : Task) (w : World) : Scene := { w, t.slot with }

/-- Ends an action that came to its end, leaving its step. -/
def finish (t : Task) (s : Scene) (step : Option Context → Step) : Move :=
  let s := s.settled
  ⟨{ t with slot := s.toSlot, done := t.done ++ [step (some s.context)] }, s.toWorld, .going⟩

/-- Ends an action by a fault, leaving its step. -/
def fail (t : Task) (s : Scene) (step : Step) (fault : Fault) : Move :=
  ⟨{ t with slot := s.toSlot, done := t.done ++ [step], fault? := some fault }, s.toWorld, .going⟩

/-- Enters a scope in the given context. -/
def enter (t : Task) (s : Scene) (entered : Entered) (inside : Context) (body : List Action)
    (rethrow : Bool) : Move :=
  let frame : Frame := ⟨entered, s.context, rethrow, t.done, t.todo⟩
  let s := s.become inside
  ⟨{ t with slot := s.toSlot, todo := body, done := [], frames := frame :: t.frames }, s.toWorld,
    .going⟩

/-- Leaves the innermost scope. -/
def leave (t : Task) (w : World) (frame : Frame) (frames : List Frame) : Move :=
  let s := t.scene w
  let s := s.become (frame.after s.context)
  let caught? := t.fault?.bind Fault.caught?
  let fault? := if caught?.isSome && !frame.rethrow then none else t.fault?
  let after? := if fault?.isSome then none else some s.context
  ⟨{ t with
      slot := s.toSlot
      todo := frame.todo
      done := frame.done ++ [.scope frame.entered t.done caught? after?]
      frames := frames
      fault? := fault? }, s.toWorld, .going⟩

/-- Does an action. -/
def perform (t : Task) (w : World) (action : Action) : Move :=
  let s := t.scene w
  match action with
  | .basic b => match s.perform b with
    | (.ok shown, s) => t.finish s (.basic b shown)
    | (.error fault, s) => t.fail s (.basic b .nothing none) fault
  | .pause => ⟨{ t with status := .paused }, w, .paused⟩
  | .contextScope values body rethrow =>
    if values.keys.contains selfKey then t.fail s .refused .reservedField
    else
      let inside := s.context.update values
      t.enter s (.fields inside.fields) inside body rethrow
  | .requestScope id? body rethrow =>
    let (id, s) := s.pickId id?
    t.enter s (.request id) (s.context.startRequest id) body rethrow
  | .together tasks =>
    if tasks.isEmpty then t.finish s (.together 0 0) else ⟨t, w, .together tasks⟩

/-- The next move of a task that can go on: it leaves a scope that is at its end or has a fault, or
does its next action. -/
def advance (t : Task) (w : World) : Move :=
  match t.fault?, t.todo with
  | none, action :: todo => { t with todo := todo }.perform w action
  | _, _ => match t.frames with
    | frame :: frames => t.leave w frame frames
    | [] => ⟨{ t with status := .ended }, w, .ended⟩

/-- Wakes a task that has paused or waited. -/
def wake (t : Task) (w : World) : Move :=
  let woken := { t with status := .going }
  let s := t.scene w
  match t.status with
  | .paused => woken.finish s .pause
  | .released first count none => woken.finish s (.together first count)
  | .released first count (some fault) => woken.fail s (.together first count none) fault
  | _ => ⟨woken, w, .going⟩

/-- The step of the action that a task is in the middle of. -/
def unfinished (t : Task) : List Step :=
  match t.status with
  | .paused => [.pause none]
  | .waiting first count _ | .released first count _ => [.together first count none]
  | _ => []

/-- All steps of a task so far, those of scopes it is still in included. -/
def steps (t : Task) : List Step :=
  t.frames.foldl (fun inner frame => frame.done ++ [.scope frame.entered inner none none])
    (t.done ++ t.unfinished)

end Task

end ToolCalls.Log
