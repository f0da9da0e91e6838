import ToolCalls.Log.Task

/-!
# Running tasks side by side

The machine runs tasks in rounds.  A round is a list of jobs; what a job asks for is a job of the
next round.  A task has its turn until it pauses, waits or ends.  A task that ends reports to the
one that waits for it, which has its turn again when all have reported or one of them had a fault;
the others then go on by themselves.  With the end of the first task the machine stops after the
round in which that end is noticed.

`runScript` runs a script as the first task.  Every job and every action takes one step of the
machine, so the size of a script bounds the steps that it takes.
-/

namespace ToolCalls.Log

/-- Something to be done in a round. -/
inductive Job where
  /-- A task has its turn. -/
  | turn (task : Nat)
  /-- A task that has ended reports to the one that waits for it. -/
  | report (task : Nat)
  /-- The first task has ended. -/
  | stop

/-- Tasks and the jobs to be done. -/
structure Machine where
  world : World := {}
  /-- All tasks ever started, by their numbers. -/
  tasks : List Task
  /-- The jobs left in this round. -/
  now : List Job
  /-- The jobs of the next round. -/
  next : List Job := []
  /-- The task that has its turn. -/
  running? : Option Nat := none
  stopping : Bool := false

namespace Machine

/-- The machine with a job more in its next round. -/
def schedule (m : Machine) (job : Job) : Machine := { m with next := m.next ++ [job] }

/-- The machine with a task in the given state. -/
def put (m : Machine) (i : Nat) (t : Task) : Machine := { m with tasks := m.tasks.set i t }

/-- Starts tasks that a task wants to run side by side.  Each of them holds what that task holds. -/
def start (m : Machine) (i : Nat) (t : Task) (scripts : List (List Action)) : Machine :=
  let first := m.tasks.length
  let count := scripts.length
  let m := m.put i { t with status := .waiting first count count }
  { m with
    tasks := m.tasks ++ scripts.map fun script =>
      { slot := t.slot, todo := script, parent? := some i }
    next := m.next ++ (List.range count).map fun k => .turn (first + k)
    running? := none }

/-- One move of the task that has its turn. -/
def advance (m : Machine) (i : Nat) : Machine :=
  match m.tasks[i]? with
  | none => { m with running? := none }
  | some t =>
    let move := t.advance m.world
    let m := { m.put i move.task with world := move.world }
    match move.signal with
    | .going => m
    | .paused => { m with running? := none }.schedule (.turn i)
    | .ended => { m with running? := none }.schedule (if t.parent?.isNone then .stop else .report i)
    | .together scripts => m.start i move.task scripts

/-- Wakes a task for its turn. -/
def wake (m : Machine) (i : Nat) : Machine :=
  match m.tasks[i]? with
  | none => m
  | some t =>
    let move := t.wake m.world
    { m.put i move.task with world := move.world, running? := some i }

/-- Reports the end of task `i` to task `p`, which may no longer be waiting for it. -/
def report (m : Machine) (i : Nat) (fault? : Option Fault) (p : Nat) : Machine :=
  match m.tasks[p]? with
  | none => m
  | some t => match t.status with
    | .waiting first count missing =>
      if i < first then m
      else if fault?.isSome || missing == 1 then
        (m.put p { t with status := .released first count fault? }).schedule (.turn p)
      else m.put p { t with status := .waiting first count (missing - 1) }
    | _ => m

/-- Does a job. -/
def handle (m : Machine) : Job → Machine
  | .turn i => m.wake i
  | .report i => match m.tasks[i]?.map fun t => (t.fault?, t.parent?) with
    | some (fault?, some p) => m.report i fault? p
    | _ => m
  | .stop => { m with stopping := true }

/-- One step: a move of the task that has its turn, the next job, or the next round. -/
def step (m : Machine) : Machine :=
  match m.running?, m.now with
  | some i, _ => m.advance i
  | none, job :: now => { m with now := now }.handle job
  | none, [] => if m.stopping then m else { m with now := m.next, next := [] }

/-- The machine after a number of steps. -/
def after (m : Machine) : Nat → Machine
  | 0 => m
  | n + 1 => m.step.after n

theorem after_add (m : Machine) (a b : Nat) : m.after (a + b) = (m.after a).after b := by
  induction a generalizing m with
  | zero => rw [Nat.zero_add]; rfl
  | succ a ih => rw [Nat.succ_add]; exact ih m.step

/-- The machine that is to run a script. -/
def ofScript (script : List Action) : Machine := { tasks := [{ todo := script }], now := [.turn 0] }

/-- The steps of a task. -/
def stepsOf (m : Machine) (i : Nat) : List Step := (m.tasks[i]?.map Task.steps).getD []

/-- The fault that ended the first task. -/
def fault? (m : Machine) : Option Fault := m.tasks.head?.bind (·.fault?)

end Machine

/-- Runs a script from an empty context.  No action takes more than eight steps, those for the jobs
and the rounds that it causes included. -/
def runScript (script : List Action) : Machine :=
  (Machine.ofScript script).after (8 * (scriptSize script + 1))

end ToolCalls.Log
