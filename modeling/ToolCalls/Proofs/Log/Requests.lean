import ToolCalls.Proofs.Log.Runs

/-!
# Requests and the log context

A task has the id of its request in two places: with its request, and among its fields under
`Context.requestKey`.  The two are in step (`Context.InStep`) as long as both are written together.
A scope for fields puts back the fields when it is left but not the request, so a request that
starts or ends inside it is forgotten by the fields alone.
-/

namespace ToolCalls.Log

namespace Context

/-- The entry for the request among the fields is the request. -/
def InStep (c : Context) : Prop := c.fields.get? requestKey = c.request?.map Datum.string

variable {c earlier : Context}

theorem inStep_empty : InStep {} := rfl

theorem InStep.update (h : c.InStep) {values : Fields Datum} (hvalues : requestKey ∉ values.keys) :
    (c.update values).InStep := by
  have hnone : values.reverse.lookup requestKey = none := by
    rw [List.lookup_eq_none_iff]
    rintro ⟨k, v⟩ hmem
    have hk : k ∈ values.keys := List.mem_map.2 ⟨(k, v), List.mem_reverse.1 hmem, rfl⟩
    have hne : requestKey ≠ k := fun heq => hvalues (heq.symm ▸ hk)
    simpa using hne
  unfold InStep Context.update
  rw [Fields.get?_merge, hnone]
  exact h

theorem InStep.set (h : c.InStep) {key : Text} (hkey : key ≠ requestKey) (value : Datum) :
    (c.set key value).InStep :=
  (Fields.get?_put_of_ne c.fields value hkey.symm).trans h

theorem inStep_startRequest (c : Context) (id : Text) : (c.startRequest id).InStep :=
  Fields.get?_put_self c.fields requestKey (.string id)

/-- With its fields put back a context is in step only if its request is the one of before. -/
theorem InStep.restoreFields_iff (h : earlier.InStep) :
    (c.restoreFields earlier).InStep ↔ c.request? = earlier.request? := by
  have hinj : Function.Injective (Option.map Datum.string) := by
    rintro (_ | a) (_ | b) hab <;> simp_all
  unfold InStep restoreFields
  rw [h]
  exact ⟨fun heq => hinj heq.symm, fun heq => by rw [heq]⟩

end Context

/-! ## What tasks share -/

/-- No table is lost, and none has its entry for the request changed. -/
def World.Keeps (w w' : World) : Prop :=
  ∀ (n : Nat) (fields : Fields Datum), w.tables[n]? = some fields →
    ∃ fields', w'.tables[n]? = some fields' ∧
      fields'.get? Context.requestKey = fields.get? Context.requestKey

namespace World.Keeps

variable {w w' w'' : World}

theorem of_tables (h : w'.tables = w.tables) : w.Keeps w' :=
  fun _ fields hn => ⟨fields, h ▸ hn, rfl⟩

theorem trans (h : w.Keeps w') (h' : w'.Keeps w'') : w.Keeps w'' := by
  intro n fields hn
  obtain ⟨fields', hn', hget⟩ := h n fields hn
  obtain ⟨fields'', hn'', hget'⟩ := h' n fields' hn'
  exact ⟨fields'', hn'', hget'.trans hget⟩

end World.Keeps

namespace Scene

variable {s : Scene}

/-- The task holds a table that is there, and its context is in step. -/
structure Sound (s : Scene) : Prop where
  held : ∀ n, s.table? = some n → n < s.tables.length
  inStep : s.context.InStep

theorem keeps_become (s : Scene) (c : Context) : s.toWorld.Keeps (s.become c).toWorld := by
  intro n fields hn
  obtain ⟨hlt, -⟩ := List.getElem?_eq_some_iff.1 hn
  exact ⟨fields, (List.getElem?_append_left hlt).trans hn, rfl⟩

theorem Sound.become {c : Context} (hc : c.InStep) (s : Scene) : (s.become c).Sound where
  held := by simp [Scene.become]
  inStep := by rwa [context_become]

theorem keeps_settled (s : Scene) : s.toWorld.Keeps s.settled.toWorld := by
  unfold settled
  split
  · exact .of_tables rfl
  · exact keeps_become s s.context

theorem Sound.settled (h : s.Sound) : s.settled.Sound := by
  unfold Scene.settled
  split
  · exact h
  · exact .become h.inStep s

theorem keeps_set {key : Text} (hkey : key ≠ Context.requestKey) (value : Datum) (s : Scene) :
    s.toWorld.Keeps (s.set key value).toWorld := by
  refine (keeps_settled s).trans ?_
  unfold Scene.set
  dsimp only
  split
  · next k _ =>
    intro n fields hn
    refine ⟨_, (List.getElem?_modify ..).trans (by rw [hn]; rfl), ?_⟩
    split
    · exact Fields.get?_put_of_ne fields value hkey.symm
    · rfl
  · exact .of_tables rfl

theorem Sound.set (h : s.Sound) {key : Text} (hkey : key ≠ Context.requestKey) (value : Datum) :
    (s.set key value).Sound where
  held := by
    intro n hn
    unfold Scene.set at hn ⊢
    dsimp only at hn ⊢
    split at hn
    · next k hk => simpa using h.settled.held n hn
    · next hk => exact h.settled.held n hn
  inStep := by
    rw [context_set h.held]
    exact h.inStep.set hkey value

@[simp] theorem context_pickId (s : Scene) (id? : Option Text) :
    (s.pickId id?).2.context = s.context := by
  unfold pickId
  split <;> rfl

theorem keeps_pickId (s : Scene) (id? : Option Text) :
    s.toWorld.Keeps (s.pickId id?).2.toWorld := by
  unfold pickId
  split <;> exact .of_tables rfl

end Scene

/-! ## Scripts -/

namespace Basic

/-- Whether the action leaves the entry for the request to those that start and end requests. -/
def sparesRequest : Basic → Bool
  | .update values => !values.keys.contains Context.requestKey
  | .set key _ => key != Context.requestKey
  | _ => true

/-- Whether the task has the same request after the action. -/
def keepsRequest : Basic → Bool
  | .clear | .endRequest | .startRequest _ => false
  | _ => true

end Basic

mutual

/-- Whether `p` holds of all that an action does, the fields that a scope sets included.  It is told
whether that is done directly inside a scope for fields. -/
def Action.all (p : Bool → Basic → Bool) (inside : Bool) : Action → Bool
  | .basic b => p inside b
  | .pause => true
  | .contextScope values body _ => p inside (.update values) && scriptAll p true body
  | .requestScope _ body _ => scriptAll p false body
  | .together tasks => tasksAll p tasks

/-- Whether `p` holds of all that a script does. -/
def scriptAll (p : Bool → Basic → Bool) (inside : Bool) : List Action → Bool
  | [] => true
  | action :: actions => action.all p inside && scriptAll p inside actions

/-- Whether `p` holds of all that tasks do. -/
def tasksAll (p : Bool → Basic → Bool) : List (List Action) → Bool
  | [] => true
  | task :: tasks => scriptAll p false task && tasksAll p tasks

end

/-- Whether a script leaves the entry for the request alone. -/
def sparing (script : List Action) : Bool := scriptAll (fun _ b => b.sparesRequest) false script

/-- Whether a script starts and ends no request directly inside a scope for fields. -/
def steady (script : List Action) : Bool :=
  scriptAll (fun inside b => !inside || b.keepsRequest) false script

theorem tasksAll_iff {p : Bool → Basic → Bool} {tasks : List (List Action)} :
    tasksAll p tasks ↔ ∀ script ∈ tasks, scriptAll p false script := by
  induction tasks with
  | nil => simp [tasksAll]
  | cons task tasks ih => simp [tasksAll, ih]

/-- Whether the scope is one for fields. -/
def Frame.setsFields (f : Frame) : Bool :=
  match f.entered with
  | .fields _ => true
  | .request _ => false

/-- The context behind a scope is in step unless the scope is one for fields and the request has
changed inside it. -/
theorem Frame.inStep_after_iff {f : Frame} (h : f.before.InStep) {inside : Context} :
    (f.after inside).InStep ↔ (f.setsFields → inside.request? = f.before.request?) := by
  unfold after setsFields
  cases f.entered with
  | fields fields => simpa using h.restoreFields_iff
  | request id => simpa using h

theorem Frame.request?_after {f : Frame} {inside : Context}
    (h : f.setsFields → inside.request? = f.before.request?) :
    (f.after inside).request? = f.before.request? := by
  unfold after
  unfold setsFields at h
  cases hentered : f.entered with
  | fields fields => exact h (by rw [hentered])
  | request id => rfl

/-- Whether the innermost of the scopes is one for fields. -/
def insideFields : List Frame → Bool
  | [] => false
  | f :: _ => f.setsFields

/-- Whether `p` holds of all that is to be done in scopes and behind them. -/
def pendingAll (p : Bool → Basic → Bool) (todo : List Action) : List Frame → Bool
  | [] => scriptAll p false todo
  | f :: fs => scriptAll p f.setsFields todo && pendingAll p f.todo fs

theorem pendingAll_cons {p : Bool → Basic → Bool} {action : Action} {todo : List Action}
    {frames : List Frame} :
    pendingAll p (action :: todo) frames ↔
      action.all p (insideFields frames) ∧ pendingAll p todo frames := by
  cases frames with
  | nil => simp [pendingAll, scriptAll, insideFields]
  | cons f fs => simp [pendingAll, scriptAll, insideFields, and_assoc]

/-! ## Moves -/

namespace Scene

variable {s : Scene}

theorem log_cases (s : Scene) (e : Entry) :
    (s.log e).2 = { s with loggers := e.logger :: s.loggers } ∨
      (s.log e).2 = ({ s with loggers := e.logger :: s.loggers } : Scene).settled := by
  unfold log
  dsimp only
  split
  · exact .inl rfl
  · split
    · exact .inl rfl
    · exact .inr rfl

theorem perform_log (s : Scene) (e : Entry) : (s.perform (.log e)).2 = (s.log e).2 := by
  rw [perform]
  split
  · next h =>
    split <;> rw [h]
  · next h => rw [h]
  · next h => rw [h]

theorem keeps_perform {b : Basic} (hb : b.sparesRequest) (s : Scene) :
    s.toWorld.Keeps (s.perform b).2.toWorld := by
  cases b with
  | update values => exact keeps_become s _
  | clear => exact keeps_become s _
  | endRequest => exact keeps_become s _
  | startRequest id? => exact (keeps_pickId s id?).trans (keeps_become _ _)
  | copyThenSet key value => exact .of_tables rfl
  | set key value => exact keeps_set (by simpa [Basic.sparesRequest] using hb) value s
  | log entry =>
    let s' : Scene := { s with loggers := entry.logger :: s.loggers }
    have hkeeps : s.toWorld.Keeps s'.toWorld := .of_tables rfl
    rw [perform_log]
    rcases log_cases s entry with h | h
    · rw [h]; exact hkeeps
    · rw [h]; exact hkeeps.trans (keeps_settled s')
  | raise message => exact .of_tables rfl

theorem Sound.perform (h : s.Sound) {b : Basic} (hb : b.sparesRequest) :
    (s.perform b).2.Sound := by
  cases b with
  | update values => exact .become (h.inStep.update (by simpa [Basic.sparesRequest] using hb)) s
  | clear => exact .become Context.inStep_empty s
  | endRequest => exact .become Context.inStep_empty s
  | startRequest id? => exact .become (Context.inStep_startRequest _ _) _
  | copyThenSet key value => exact h
  | set key value => exact h.set (by simpa [Basic.sparesRequest] using hb) value
  | log entry =>
    have h' : ({ s with loggers := entry.logger :: s.loggers } : Scene).Sound := ⟨h.held, h.inStep⟩
    rw [perform_log]
    rcases log_cases s entry with hlog | hlog
    · rw [hlog]; exact h'
    · rw [hlog]; exact h'.settled
  | raise message => exact h

theorem request?_settled (s : Scene) : s.settled.request? = s.request? :=
  congrArg Context.request? (context_settled s)

theorem request?_perform {b : Basic} (hb : b.keepsRequest) (s : Scene) :
    (s.perform b).2.request? = s.request? := by
  cases b with
  | update values => rfl
  | clear | endRequest | startRequest id? => cases hb
  | copyThenSet key value => rfl
  | set key value =>
    refine Eq.trans ?_ (request?_settled s)
    unfold perform Scene.set
    dsimp only
    split <;> rfl
  | log entry =>
    rw [perform_log]
    rcases log_cases s entry with h | h
    · rw [h]
    · rw [h, request?_settled]
  | raise message => rfl

/-- What other tasks do keeps a task in step. -/
theorem Sound.of_keeps {w w' : World} {t : Task} (h : (t.scene w).Sound) (hw : w.Keeps w') :
    (t.scene w').Sound := by
  cases ht : t.slot.table? with
  | none =>
    refine ⟨fun n hn => ?_, ?_⟩
    · cases ht.symm.trans hn
    · simpa [Context.InStep, context, fields, Task.scene, ht] using h.inStep
  | some n =>
    have hn : n < w.tables.length := h.held n ht
    obtain ⟨fields', hn', hget⟩ := hw n _ (List.getElem?_eq_getElem hn)
    refine ⟨fun k hk => ?_, ?_⟩
    · cases ht.symm.trans hk
      exact (List.getElem?_eq_some_iff.1 hn').1
    · have hbefore := h.inStep
      simp only [Context.InStep, context, fields, Task.scene, ht, List.getD, hn',
        List.getElem?_eq_getElem hn, Option.getD_some] at hbefore ⊢
      rw [hget, hbefore]

end Scene

namespace Task

variable {t : Task} {w : World} {move : Move}

/-- What waking a task can do to it and to the world. -/
theorem wake_cases (t : Task) (w : World) :
    (t.wake w).task.todo = t.todo ∧ (t.wake w).task.frames = t.frames ∧
      ((t.wake w).task.scene (t.wake w).world = t.scene w ∨
        (t.wake w).task.scene (t.wake w).world = (t.scene w).settled) := by
  unfold wake
  dsimp only
  split
  · exact ⟨rfl, rfl, .inr rfl⟩
  · exact ⟨rfl, rfl, .inr rfl⟩
  · exact ⟨rfl, rfl, .inl rfl⟩
  · exact ⟨rfl, rfl, .inl rfl⟩

/-- What holds of all that is pending holds of the next action. -/
theorem all_of_pendingAll {p : Bool → Basic → Bool} {action : Action} {todo : List Action}
    (htodo : t.todo = action :: todo) (h : pendingAll p t.todo t.frames) :
    action.all p (insideFields t.frames) := by
  rw [htodo, pendingAll_cons] at h
  exact h.1

theorem Advances.pendingAll {p : Bool → Basic → Bool} (hmove : t.Advances w move)
    (h : pendingAll p t.todo t.frames) : pendingAll p move.task.todo move.task.frames := by
  cases hmove with
  | finish htodo | fail htodo | pause htodo | refuse htodo | skip htodo | together htodo =>
    rw [htodo, pendingAll_cons] at h
    exact h.2
  | enterFields htodo =>
    rw [htodo, pendingAll_cons, Action.all, Bool.and_eq_true] at h
    exact Bool.and_eq_true_iff.2 ⟨h.1.2, h.2⟩
  | enterRequest htodo =>
    rw [htodo, pendingAll_cons, Action.all] at h
    exact Bool.and_eq_true_iff.2 h
  | leave hend hframes =>
    rw [hframes] at h
    exact (Bool.and_eq_true_iff.1 h).2
  | stop => exact h

theorem Advances.scriptAll_of_together {p : Bool → Basic → Bool} (hmove : t.Advances w move)
    (h : Log.pendingAll p t.todo t.frames) {scripts : List (List Action)}
    (hs : move.signal = .together scripts) : ∀ script ∈ scripts, scriptAll p false script := by
  cases hmove with
  | together htodo =>
    obtain rfl := Signal.together.inj hs
    exact tasksAll_iff.1 (all_of_pendingAll htodo h)
  | _ => cases hs

/-- The task is in step, goes back to contexts that are, and will leave the entry for the request
alone. -/
structure Sound (w : World) (t : Task) : Prop where
  scene : (t.scene w).Sound
  before : ∀ f ∈ t.frames, f.before.InStep
  sparing : Log.pendingAll (fun _ b => b.sparesRequest) t.todo t.frames

/-- The scope that the task leaves with its next move. -/
def leaving? (t : Task) : Option Frame :=
  if t.fault?.isSome || t.todo.isEmpty then t.frames.head? else none

/-- A scope for fields is left with the request that it was entered with. -/
def KeepsRequest (t : Task) : Prop :=
  ∀ f, t.leaving? = some f → f.setsFields → t.slot.request? = f.before.request?

theorem leaving?_eq_some {f : Frame} {fs : List Frame} (hend : t.fault? = none → t.todo = [])
    (hframes : t.frames = f :: fs) : t.leaving? = some f := by
  unfold leaving?
  cases hfault : t.fault? with
  | none => simp [hend hfault, hframes]
  | some fault => simp [hframes]

theorem advance_of_leaving? {f : Frame} (h : t.leaving? = some f) (w : World) :
    ∃ fs, t.frames = f :: fs ∧ t.advance w = t.leave w f fs := by
  unfold leaving? at h
  split at h
  · next hend =>
    cases hframes : t.frames with
    | nil => simp [hframes] at h
    | cons g fs =>
      obtain rfl : g = f := by simpa [hframes] using h
      refine ⟨fs, rfl, ?_⟩
      unfold advance
      split
      · next hfault htodo => simp [hfault, htodo] at hend
      · rw [hframes]
  · cases h

theorem scene_leave (t : Task) (w : World) (f : Frame) (fs : List Frame) :
    (t.leave w f fs).task.scene (t.leave w f fs).world =
      (t.scene w).become (f.after (t.scene w).context) := rfl

theorem keeps_advances (h : t.Sound w) (hmove : t.Advances w move) : w.Keeps move.world := by
  cases hmove with
  | finish htodo hs =>
    have hkeeps := Scene.keeps_perform (all_of_pendingAll htodo h.sparing) (t.scene w)
    rw [hs] at hkeeps
    exact hkeeps.trans (Scene.keeps_settled _)
  | fail htodo hs =>
    have hkeeps := Scene.keeps_perform (all_of_pendingAll htodo h.sparing) (t.scene w)
    rw [hs] at hkeeps
    exact hkeeps
  | pause | refuse | together | stop => exact .of_tables rfl
  | enterFields => exact Scene.keeps_become (t.scene w) _
  | enterRequest => exact (Scene.keeps_pickId (t.scene w) _).trans (Scene.keeps_become _ _)
  | skip => exact Scene.keeps_settled (t.scene w)
  | leave => exact Scene.keeps_become (t.scene w) _

theorem Sound.advances (h : t.Sound w) (hkeeps : t.KeepsRequest) (hmove : t.Advances w move) :
    move.task.Sound move.world := by
  refine ⟨?_, ?_, hmove.pendingAll h.sparing⟩
  · cases hmove with
    | finish htodo hs =>
      have hsound := h.scene.perform (all_of_pendingAll htodo h.sparing)
      rw [hs] at hsound
      exact hsound.settled
    | fail htodo hs =>
      have hsound := h.scene.perform (all_of_pendingAll htodo h.sparing)
      rw [hs] at hsound
      exact hsound
    | pause | refuse | together | stop => exact h.scene
    | enterFields htodo =>
      have hvalues := (Bool.and_eq_true_iff.1 (all_of_pendingAll htodo h.sparing)).1
      refine .become (h.scene.inStep.update ?_) _
      simpa [Basic.sparesRequest] using hvalues
    | enterRequest => exact .become (Context.inStep_startRequest _ _) _
    | skip => exact h.scene.settled
    | @leave f fs hend hframes =>
      -- here alone the entry for the request may be written without the request
      have hbefore : f.before.InStep := h.before f (hframes ▸ List.mem_cons_self)
      exact .become ((Frame.inStep_after_iff hbefore).2
        (hkeeps f (leaving?_eq_some hend hframes))) _
  · cases hmove with
    | enterFields =>
      intro f hf
      rcases List.mem_cons.1 hf with rfl | hf
      · exact h.scene.inStep
      · exact h.before f hf
    | enterRequest =>
      intro f hf
      rcases List.mem_cons.1 hf with rfl | hf
      · simpa using h.scene.inStep
      · exact h.before f hf
    | leave _ hframes => exact fun f hf => h.before f (hframes ▸ List.mem_cons_of_mem _ hf)
    | _ => exact h.before

theorem Sound.of_keeps {w' : World} (h : t.Sound w) (hw : w.Keeps w') : t.Sound w' :=
  ⟨h.scene.of_keeps hw, h.before, h.sparing⟩

theorem keeps_wake (t : Task) (w : World) : w.Keeps (t.wake w).world := by
  obtain ⟨-, -, hscene | hscene⟩ := wake_cases t w
  · exact .of_tables (congrArg (·.tables) hscene)
  · have hkeeps := Scene.keeps_settled (t.scene w)
    rw [← hscene] at hkeeps
    exact hkeeps

theorem Sound.wake (h : t.Sound w) : (t.wake w).task.Sound (t.wake w).world := by
  obtain ⟨htodo, hframes, hscene⟩ := wake_cases t w
  refine ⟨?_, hframes ▸ h.before, ?_⟩
  · rcases hscene with hscene | hscene
    · rw [hscene]; exact h.scene
    · rw [hscene]; exact h.scene.settled
  · rw [htodo, hframes]; exact h.sparing

/-! ### Requests inside scopes for fields -/

/-- In every scope for fields the request is the one that the scope was entered with. -/
def sameRequests (request? : Option Text) : List Frame → Prop
  | [] => True
  | f :: fs => (f.setsFields → request? = f.before.request?) ∧ sameRequests f.before.request? fs

variable {request? other? : Option Text} {frames : List Frame}

theorem sameRequests.of_eq (h : sameRequests request? frames) (heq : other? = request?) :
    sameRequests other? frames :=
  heq.symm ▸ h

theorem sameRequests_of_not_insideFields (hinside : insideFields frames = false)
    (h : sameRequests request? frames) : sameRequests other? frames := by
  cases frames with
  | nil => trivial
  | cons f fs => exact ⟨fun hf => absurd (hinside.symm.trans hf) (by decide), h.2⟩

/-- The request is as it was on entering each scope for fields, and it will stay so. -/
structure Calm (t : Task) : Prop where
  same : sameRequests t.slot.request? t.frames
  steady : Log.pendingAll (fun inside b => !inside || b.keepsRequest) t.todo t.frames

theorem Calm.keepsRequest (h : t.Calm) : t.KeepsRequest := by
  intro f hleaving
  obtain ⟨fs, hframes, -⟩ := advance_of_leaving? hleaving {}
  have hsame := h.same
  rw [hframes] at hsame
  exact hsame.1

theorem sameRequests_perform {b : Basic} {s : Scene}
    (h : sameRequests s.request? frames)
    (hb : (!insideFields frames || b.keepsRequest) = true) :
    sameRequests (s.perform b).2.request? frames := by
  cases hinside : insideFields frames with
  | false => exact sameRequests_of_not_insideFields hinside h
  | true =>
    rw [hinside] at hb
    rwa [Scene.request?_perform hb]

theorem Calm.advances (h : t.Calm) (hmove : t.Advances w move) : move.task.Calm := by
  refine ⟨?_, hmove.pendingAll h.steady⟩
  cases hmove with
  | finish htodo hs =>
    have hsame := sameRequests_perform (s := t.scene w) h.same (all_of_pendingAll htodo h.steady)
    rw [hs] at hsame
    exact hsame.of_eq (Scene.request?_settled _)
  | fail htodo hs =>
    have hsame := sameRequests_perform (s := t.scene w) h.same (all_of_pendingAll htodo h.steady)
    rw [hs] at hsame
    exact hsame
  | pause | refuse | together | stop => exact h.same
  | enterFields => exact ⟨fun _ => rfl, h.same⟩
  | enterRequest =>
    exact ⟨nofun, h.same.of_eq (congrArg Context.request? (Scene.context_pickId (t.scene w) _))⟩
  | skip => exact h.same.of_eq (Scene.request?_settled (t.scene w))
  | leave hend hframes =>
    have hsame := h.same
    rw [hframes] at hsame
    exact hsame.2.of_eq (Frame.request?_after hsame.1)

theorem Calm.wake (h : t.Calm) (w : World) : (t.wake w).task.Calm := by
  obtain ⟨htodo, hframes, hscene⟩ := wake_cases t w
  refine ⟨?_, by rw [htodo, hframes]; exact h.steady⟩
  rw [hframes]
  rcases hscene with hscene | hscene
  · exact h.same.of_eq (congrArg (·.request?) hscene)
  · exact h.same.of_eq ((congrArg (·.request?) hscene).trans (Scene.request?_settled (t.scene w)))

end Task

/-! ## Runs -/

namespace Machine

variable {m : Machine}

/-- All tasks are in step. -/
def InStep (m : Machine) : Prop := ∀ t ∈ m.tasks, (t.scene m.world).context.InStep

/-- If the task that has its turn leaves a scope for fields, then with the request that the scope
was entered with. -/
def KeepsRequest (m : Machine) : Prop :=
  ∀ i t, m.running? = some i → m.tasks[i]? = some t → t.KeepsRequest

def Sound (m : Machine) : Prop := ∀ t ∈ m.tasks, t.Sound m.world

theorem Sound.step (h : m.Sound) (hkeeps : m.KeepsRequest) : m.step.Sound := by
  refine (changes_step m).forall_tasks h ?_ ?_ ?_
  · exact fun status ht => ⟨ht.scene, ht.before, ht.sparing⟩
  · exact fun t ht => ⟨(h t ht).wake, fun u hu => (h u hu).of_keeps (t.keeps_wake m.world)⟩
  · intro i t hi ht
    have hsound : t.Sound m.world := h t (List.mem_of_getElem? ht)
    have hmoved := hsound.advances (hkeeps i t hi ht) (t.advances m.world)
    refine ⟨hmoved, fun u hu => (h u hu).of_keeps (Task.keeps_advances hsound (t.advances m.world)),
      fun hs script hscript parent? => ⟨⟨hmoved.scene.held, hmoved.scene.inStep⟩, nofun, ?_⟩⟩
    exact (t.advances m.world).scriptAll_of_together hsound.sparing hs script hscript

/-- A scope for fields that is left with another request leaves its task out of step. -/
theorem keepsRequest_of_inStep_step (h : m.Sound) (hstep : m.step.InStep) : m.KeepsRequest := by
  intro i t hi ht f hleaving
  have hsound : t.Sound m.world := h t (List.mem_of_getElem? ht)
  obtain ⟨fs, hframes, hmove⟩ := Task.advance_of_leaving? hleaving m.world
  have hlt : i < m.tasks.length := (List.getElem?_eq_some_iff.1 ht).1
  have hstepped : m.step = { m.put i (t.leave m.world f fs).task with
      world := (t.leave m.world f fs).world } := by
    simp only [step, hi, advance, ht, hmove, Task.leave]
  rw [hstepped] at hstep
  have hinStep := hstep _ (List.mem_of_getElem? (List.getElem?_set_self hlt))
  have hbefore : f.before.InStep := hsound.before f (hframes ▸ List.mem_cons_self)
  rw [Task.scene_leave, Scene.context_become] at hinStep
  exact (Frame.inStep_after_iff hbefore).1 hinStep

theorem sound_ofScript {script : List Action} (h : sparing script) : (ofScript script).Sound := by
  intro t ht
  obtain rfl := List.mem_singleton.1 ht
  exact ⟨⟨nofun, Context.inStep_empty⟩, nofun, h⟩

theorem after_succ (m : Machine) (n : Nat) : m.after (n + 1) = (m.after n).step :=
  after_add m n 1

theorem Sound.after (h : m.Sound) {n : Nat} (hkeeps : ∀ k < n, (m.after k).KeepsRequest) :
    (m.after n).Sound := by
  induction n with
  | zero => exact h
  | succ n ih =>
    rw [after_succ]
    exact (ih fun k hk => hkeeps k (by omega)).step (hkeeps n (by omega))

theorem keepsRequest_of_inStep (h : m.Sound) {n : Nat} (hstep : ∀ k ≤ n, (m.after k).InStep) :
    ∀ k < n, (m.after k).KeepsRequest := by
  induction n with
  | zero => exact nofun
  | succ n ih =>
    have hbefore := ih fun k hk => hstep k (by omega)
    intro k hk
    rcases Nat.lt_or_eq_of_le (Nat.le_of_lt_succ hk) with hk | rfl
    · exact hbefore k hk
    · exact keepsRequest_of_inStep_step (h.after hbefore) (after_succ m k ▸ hstep _ (Nat.le_refl _))

theorem keepsRequest_of_steady {script : List Action} (h : steady script) (n : Nat) :
    ((ofScript script).after n).KeepsRequest := by
  suffices hcalm : ∀ t ∈ ((ofScript script).after n).tasks, t.Calm from
    fun i t _ ht => (hcalm t (List.mem_of_getElem? ht)).keepsRequest
  induction n with
  | zero =>
    intro t ht
    obtain rfl := List.mem_singleton.1 ht
    exact ⟨trivial, h⟩
  | succ n ih =>
    rw [after_succ]
    refine (changes_step _).forall_tasks (P := fun _ t => t.Calm) ih ?_ ?_ ?_
    · exact fun status ht => ⟨ht.same, ht.steady⟩
    · exact fun t ht => ⟨(ih t ht).wake _, ih⟩
    · intro i t hi ht
      have hcalm := ih t (List.mem_of_getElem? ht)
      refine ⟨hcalm.advances (t.advances _), ih, fun hs script hscript parent? => ⟨trivial, ?_⟩⟩
      exact (t.advances _).scriptAll_of_together hcalm.steady hs script hscript

/-- Of a script that leaves the entry for the request to those that start and end requests, all
tasks are in step up to some point if and only if every scope for fields left before it is left
with the request that it was entered with.  That is so at every point if no request is started or
ended directly inside a scope for fields. -/
theorem inStep_iff_keepsRequest {script : List Action} (h : sparing script) :
    (∀ n, (∀ k ≤ n, ((ofScript script).after k).InStep) ↔
      ∀ k < n, ((ofScript script).after k).KeepsRequest) ∧
    (steady script → ∀ n, ((ofScript script).after n).InStep) := by
  have hinStep : ∀ n, (∀ k < n, ((ofScript script).after k).KeepsRequest) →
      ((ofScript script).after n).InStep :=
    fun n hkeeps t ht => ((sound_ofScript h).after hkeeps t ht).scene.inStep
  refine ⟨fun n => ⟨keepsRequest_of_inStep (sound_ofScript h), fun hkeeps k hk => ?_⟩,
    fun hsteady n => hinStep n fun k _ => keepsRequest_of_steady hsteady k⟩
  exact hinStep k fun j hj => hkeeps j (by omega)

/-- A request is started before a scope for fields, another one has its own scope inside and ends
there, and errors end both scopes. -/
theorem inStep_iff_keepsRequest_nested :
    let script : List Action :=
      [.basic (.startRequest (some "r".toList)),
        .contextScope [("a".toList, .integer 1)]
          [.requestScope (some "s".toList) [.basic .clear, .basic (.raise "e".toList)] true] false,
        .basic (.update [("b".toList, .integer 2)]), .basic .endRequest]
    sparing script = true ∧ steady script = true ∧
      ∀ n, ((ofScript script).after n).InStep :=
  ⟨by decide, by decide, (inStep_iff_keepsRequest (by decide)).2 (by decide)⟩

/-- A request that is started inside a scope for fields outlives its entry among the fields. -/
theorem not_inStep_request_in_scope :
    let script : List Action := [.contextScope [] [.basic (.startRequest (some "r".toList))] false]
    sparing script = true ∧ ¬ (runScript script).InStep := by
  refine ⟨by decide, fun h => ?_⟩
  have hinStep : Context.InStep ⟨[], some "r".toList⟩ := h _ List.mem_cons_self
  cases hinStep

end Machine

end ToolCalls.Log
