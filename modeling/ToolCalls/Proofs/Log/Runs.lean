import ToolCalls.Log.Machine

/-!
# What a step of the machine changes

Most steps of the machine only pass turns on.  `Machine.Changes` lists what a step can do to the
world and to the tasks: nothing, a new status for one task, a move of one task, or a move after
which tasks start.  `Machine.changes_step` says that there is nothing else, and `Task.advances` does
the same for the moves of a task that has its turn.  What holds of every task along a run is then
shown by looking at moves alone (`Machine.Changes.forall_tasks`).
-/

namespace ToolCalls.Log

/-- What a step can make of the world and the tasks of a machine. -/
inductive Machine.Changes (m : Machine) : World → List Task → Prop where
  | nothing : Changes m m.world m.tasks
  | status {i : Nat} {t : Task} (ht : m.tasks[i]? = some t) (status : Status) :
      Changes m m.world (m.tasks.set i { t with status := status })
  | wake {i : Nat} {t : Task} (ht : m.tasks[i]? = some t) :
      Changes m (t.wake m.world).world (m.tasks.set i (t.wake m.world).task)
  | advance {i : Nat} {t : Task} (hi : m.running? = some i) (ht : m.tasks[i]? = some t) :
      Changes m (t.advance m.world).world (m.tasks.set i (t.advance m.world).task)
  /-- The task that had its turn waits for the tasks that it starts. -/
  | start {i : Nat} {t : Task} (hi : m.running? = some i) (ht : m.tasks[i]? = some t)
      {scripts : List (List Action)} (hs : (t.advance m.world).signal = .together scripts)
      (status : Status) :
      Changes m (t.advance m.world).world
        (m.tasks.set i { (t.advance m.world).task with status := status } ++
          scripts.map fun script =>
            { slot := (t.advance m.world).task.slot, todo := script, parent? := some i })

namespace Machine

variable {m : Machine}

theorem Changes.of_now {now : List Job} {w : World} {tasks : List Task}
    (h : ({ m with now := now } : Machine).Changes w tasks) : m.Changes w tasks := by
  cases h with
  | nothing => exact .nothing
  | status ht status => exact Changes.status (m := m) ht status
  | wake ht => exact .wake ht
  | advance hi ht => exact .advance hi ht
  | start hi ht hs status => exact Changes.start (m := m) hi ht hs status

theorem changes_advance {i : Nat} (hi : m.running? = some i) :
    m.Changes (m.advance i).world (m.advance i).tasks := by
  unfold advance
  split
  · exact .nothing
  · next t ht =>
    dsimp only
    split
    · exact .advance hi ht
    · exact .advance hi ht
    · exact .advance hi ht
    · next scripts hs => simpa [start, put] using Changes.start hi ht hs _

theorem changes_wake (m : Machine) (i : Nat) : m.Changes (m.wake i).world (m.wake i).tasks := by
  unfold wake
  split
  · exact .nothing
  · next t ht => exact .wake ht

theorem changes_report (m : Machine) (i : Nat) (fault? : Option Fault) (p : Nat) :
    m.Changes (m.report i fault? p).world (m.report i fault? p).tasks := by
  unfold report
  split
  · exact .nothing
  · next t ht =>
    split
    · split
      · exact .nothing
      · split
        · exact .status ht _
        · exact .status ht _
    · exact .nothing

theorem changes_handle (m : Machine) (job : Job) :
    m.Changes (m.handle job).world (m.handle job).tasks := by
  cases job with
  | turn i => exact changes_wake m i
  | report i =>
    rw [handle]
    split
    · exact changes_report m i _ _
    · exact .nothing
  | stop => exact .nothing

/-- What a step changes. -/
theorem changes_step (m : Machine) : m.Changes m.step.world m.step.tasks := by
  unfold step
  split
  · next i _ hi => exact changes_advance hi
  · next job now _ _ => exact (changes_handle { m with now := now } job).of_now
  · split
    · exact .nothing
    · exact .nothing

/-- What changes of status, moves and the start of tasks keep holds of every task after a step.  A
move is also to keep it of the tasks that do not take part. -/
theorem Changes.forall_tasks {w : World} {tasks : List Task} (h : m.Changes w tasks)
    {P : World → Task → Prop} (hall : ∀ t ∈ m.tasks, P m.world t)
    (hstatus : ∀ {w : World} {t : Task} (status : Status), P w t → P w { t with status := status })
    (hwake : ∀ t ∈ m.tasks, P (t.wake m.world).world (t.wake m.world).task ∧
      ∀ u ∈ m.tasks, P (t.wake m.world).world u)
    (hadvance : ∀ {i : Nat} {t : Task}, m.running? = some i → m.tasks[i]? = some t →
      P (t.advance m.world).world (t.advance m.world).task ∧
      (∀ u ∈ m.tasks, P (t.advance m.world).world u) ∧
      ∀ {scripts : List (List Action)}, (t.advance m.world).signal = .together scripts →
        ∀ script ∈ scripts, ∀ parent? : Option Nat,
          P (t.advance m.world).world
            { slot := (t.advance m.world).task.slot, todo := script, parent? := parent? }) :
    ∀ t ∈ tasks, P w t := by
  have hset : ∀ {w : World} {i : Nat} {u : Task}, P w u → (∀ t ∈ m.tasks, P w t) →
      ∀ t ∈ m.tasks.set i u, P w t := by
    intro w i u hu hothers t ht
    rcases List.mem_or_eq_of_mem_set ht with ht | rfl
    · exact hothers t ht
    · exact hu
  cases h with
  | nothing => exact hall
  | status ht status => exact hset (hstatus status (hall _ (List.mem_of_getElem? ht))) hall
  | wake ht =>
    obtain ⟨hmoved, hothers⟩ := hwake _ (List.mem_of_getElem? ht)
    exact hset hmoved hothers
  | advance hi ht =>
    obtain ⟨hmoved, hothers, -⟩ := hadvance hi ht
    exact hset hmoved hothers
  | start hi ht hs status =>
    obtain ⟨hmoved, hothers, hstarted⟩ := hadvance hi ht
    intro t ht
    rcases List.mem_append.1 ht with ht | ht
    · exact hset (hstatus status hmoved) hothers t ht
    · obtain ⟨script, hscript, rfl⟩ := List.mem_map.1 ht
      exact hstarted hs script hscript _

end Machine

/-! ## Moves -/

/-- What a task that has its turn can do.  It leaves a scope if it is at the end of the scope or has
a fault. -/
inductive Task.Advances (t : Task) (w : World) : Move → Prop where
  | finish {b : Basic} {todo : List Action} (htodo : t.todo = .basic b :: todo) {shown : Shown}
      {s : Scene} (hs : (t.scene w).perform b = (.ok shown, s)) :
      Advances t w ({ t with todo := todo }.finish s (.basic b shown))
  | fail {b : Basic} {todo : List Action} (htodo : t.todo = .basic b :: todo) {fault : Fault}
      {s : Scene} (hs : (t.scene w).perform b = (.error fault, s)) :
      Advances t w ({ t with todo := todo }.fail s (.basic b .nothing none) fault)
  | pause {todo : List Action} (htodo : t.todo = .pause :: todo) :
      Advances t w ⟨{ t with todo := todo, status := .paused }, w, .paused⟩
  | refuse {values : Fields Datum} {body todo : List Action} {rethrow : Bool}
      (htodo : t.todo = .contextScope values body rethrow :: todo) :
      Advances t w ({ t with todo := todo }.fail (t.scene w) .refused .reservedField)
  | enterFields {values : Fields Datum} {body todo : List Action} {rethrow : Bool}
      (htodo : t.todo = .contextScope values body rethrow :: todo) :
      Advances t w ({ t with todo := todo }.enter (t.scene w)
        (.fields ((t.scene w).context.update values).fields) ((t.scene w).context.update values)
        body rethrow)
  | enterRequest {id? : Option Text} {body todo : List Action} {rethrow : Bool}
      (htodo : t.todo = .requestScope id? body rethrow :: todo) :
      Advances t w ({ t with todo := todo }.enter ((t.scene w).pickId id?).2
        (.request ((t.scene w).pickId id?).1)
        (((t.scene w).pickId id?).2.context.startRequest ((t.scene w).pickId id?).1) body rethrow)
  /-- There are no tasks to run side by side. -/
  | skip {todo : List Action} (htodo : t.todo = .together [] :: todo) :
      Advances t w ({ t with todo := todo }.finish (t.scene w) (.together 0 0))
  | together {tasks : List (List Action)} {todo : List Action}
      (htodo : t.todo = .together tasks :: todo) :
      Advances t w ⟨{ t with todo := todo }, w, .together tasks⟩
  | leave {f : Frame} {fs : List Frame} (hend : t.fault? = none → t.todo = [])
      (hframes : t.frames = f :: fs) : Advances t w (t.leave w f fs)
  | stop : Advances t w ⟨{ t with status := .ended }, w, .ended⟩

theorem Task.advances (t : Task) (w : World) : t.Advances w (t.advance w) := by
  unfold advance
  split
  · next action todo _ htodo =>
    cases action with
    | basic b =>
      rw [perform]
      split
      · next hs => exact .finish htodo hs
      · next hs => exact .fail htodo hs
    | pause => exact .pause htodo
    | contextScope values body rethrow =>
      rw [perform]
      dsimp only
      split
      · exact .refuse htodo
      · exact .enterFields htodo
    | requestScope id? body rethrow => exact .enterRequest htodo
    | together tasks =>
      rw [perform]
      split
      · next h =>
        obtain rfl := List.isEmpty_iff.1 h
        exact .skip htodo
      · exact .together htodo
  · next hend =>
    split
    · next f fs hframes =>
      refine .leave (fun hfault => ?_) hframes
      cases htodo : t.todo with
      | nil => rfl
      | cons action todo => exact absurd htodo (hend action todo hfault)
    · exact .stop

end ToolCalls.Log
