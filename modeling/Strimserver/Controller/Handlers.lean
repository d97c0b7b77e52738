import Strimserver.Controller.Types

/-!
# The handlers of the queue thread

The handlers of `controller.c` as functions on the state that the queue thread
owns. A handler returns the new state together with its return value: an error
can be returned after a change (a path event stores the path status before the
prerequisite of its route is asked), so the state is part of the result in both
cases.

The reconcile pass and the teardown are loops over the stages that other
threads can run between. Their bodies are the functions of one stage:
`reconcileExamine` decides, `fireStage` is the section under the queue lock,
`teardownBump` and `teardownStopped` are the two sides of the call of the stop
operation. `handleReconcile` and `teardownInner` run the loops without
interruption.

The clock and the outcome of the allocations are not state of the controller.
Their values at the points where the source asks for them are arguments.
-/

namespace Strimserver.Controller

variable (cfg : Config)

/-! ## Status and listeners -/

/-- `strim_controller_handle_status`: a private copy of paths and statuses. -/
def handleStatus (c : Core) : ControllerStatus where
  paths := c.paths
  stages st := (c.stages st).status

/-- `notify_listeners`: every registered listener is called, in order, with the
same snapshot. -/
def notifyListeners (c : Core) : Core :=
  { c with calls := (c.listeners.map fun l => (l, handleStatus c)).reverse ++ c.calls }

/-- `handle_add_listener`. -/
def handleAddListener (c : Core) (l : Listener) : Core × Result :=
  if l.fn = 0 then (c, .error .badArg)
  else if maxListeners ≤ c.listeners.length then (c, .error .noMem)
  else
    let c' := { c with listeners := c.listeners ++ [l] }
    ({ c' with calls := (l, handleStatus c') :: c'.calls }, .ok ())

/-- `handle_remove_listener`: the first entry with both pointers is removed. -/
def handleRemoveListener (c : Core) (l : Listener) : Core × Result :=
  if l ∈ c.listeners then ({ c with listeners := c.listeners.erase l }, .ok ())
  else (c, .error .unknown)

/-! ## Path events, control commands and stage events -/

/-- `apply_desired_stage_target`. -/
def applyDesiredStageTarget {κ : Type} (c : Core) (target : Route κ) : Core × Result :=
  let stage := c.stages target.targetStage
  if stage.status.desired = target.targetState then (c, .ok ())
  else if (target.prerequisite.map fun p => p (handleStatus c)).getD 0 ≠ 0 then
    (c, .error .prereq)
  else
    (notifyListeners (c.setStage target.targetStage
      { stage with status := { stage.status with desired := target.targetState } }), .ok ())

/-- `strim_controller_handle_path_event`: the path status is stored first, also
when no route matches. -/
def handlePathEvent (c : Core) (e : PathEvent) : Core × Result :=
  match PathName.ofCode e.path with
  | none => (c, .error .unknown)
  | some path =>
    match PathStatus.ofCode e.status with
    | none => (c, .error .badArg)
    | some status =>
      let c' := { c with paths := Function.update c.paths path status }
      match cfg.pathRoutes.find (path, status) with
      | none => (c', .ok ())
      | some route => applyDesiredStageTarget c' route

/-- `strim_controller_handle_control`. -/
def handleControl (c : Core) (cmd : ControlCommand) : Core × Result :=
  match ControlComponent.ofCode cmd.component with
  | none => (c, .error .unknown)
  | some component =>
    match ControlAction.ofCode cmd.action with
    | none => (c, .error .unknown)
    | some action =>
      match cfg.controlRoutes.find (component, action) with
      | none => (c, .error .unknown)
      | some route => applyDesiredStageTarget c route

/-- `strim_controller_handle_stage_event`: listeners are notified only when the
actual state changes; the in-flight mark is cleared in any case. -/
def handleStageEvent (c : Core) (e : StageEvent) : Core × Result :=
  match StageName.ofCode e.stage with
  | none => (c, .error .unknown)
  | some st =>
    match StageState.ofCode e.state with
    | none => (c, .error .badArg)
    | some state =>
      let stage := c.stages st
      let c' := c.setStage st
        { stage with status := { stage.status with actual := state }, inFlightSince := 0 }
      if stage.status.actual ≠ state then (notifyListeners c', .ok ()) else (c', .ok ())

/-- The branch `ACTION_CLEAR_INFLIGHT` of `run_action`: only the clear of the
live generation wipes the mark. -/
def clearInflight (c : Core) (st : StageName) (generation : UInt64) : Core :=
  let stage := c.stages st
  if stage.opGeneration = generation then c.setStage st { stage with inFlightSince := 0 } else c

/-! ## The reconcile pass -/

/-- A fired operation, `strim_op_job` with its cancel handle. The operation is
the start operation when the target is running, else the stop operation. -/
structure Job where
  stage : StageName
  target : StageState
  timeoutMs : ℤ
  generation : UInt64
  deadlineMs : ℤ
  deriving DecidableEq

/-- The reconcile pass reads the clock to decide about this stage. -/
def readsClock (c : Core) (st : StageName) : Bool :=
  let stage := c.stages st
  decide (stage.status.desired ≠ stage.status.actual ∧ stage.inFlightSince ≠ 0)

/-- The part of the reconcile loop before the queue lock is taken, for one
stage at clock reading `now`: the new state, and the target to fire. -/
def reconcileExamine (c : Core) (st : StageName) (now : ℤ) : Core × Option StageState :=
  let stage := c.stages st
  if stage.status.desired = stage.status.actual then
    (c.setStage st { stage with inFlightSince := 0 }, none)
  else if ¬ (stage.inFlightSince = 0 ∨ cfg.inflightTimeoutMs ≤ now - stage.inFlightSince) then
    (c, none)
  else if cfg.stageOpFor st stage.status.desired = false then (c, none)
  else (c, some stage.status.desired)

/-- How the fire section goes on after its check of the shutdown flag. -/
inductive FireOutcome where
  /-- The allocation of the job failed. -/
  | jobAllocFailed
  /-- `workerpool_submit` refused the job. -/
  | submitFailed
  /-- The job is in the pool. -/
  | launched
  deriving DecidableEq, Repr

/-- The job that the fire section builds after bumping the generation. -/
def fireJob (c : Core) (st : StageName) (target : StageState) (now : ℤ) : Job where
  stage := st
  target := target
  timeoutMs := cfg.inflightTimeoutMs
  generation := (c.stages st).opGeneration + 1
  deadlineMs := now + cfg.inflightTimeoutMs

/-- The section of the reconcile loop under the queue lock, for one stage: the
new state, and the job that was put in the pool. -/
def fireStage (c : Core) (st : StageName) (target : StageState) (now : ℤ) :
    FireOutcome → Core × Option Job
  | .jobAllocFailed => (c, none)
  | .submitFailed =>
    -- The mark and the generation of this fire are taken back.
    let fired := { c.stages st with
      inFlightSince := now, opGeneration := (c.stages st).opGeneration + 1 }
    (c.setStage st { fired with inFlightSince := 0, opGeneration := fired.opGeneration - 1 },
      none)
  | .launched =>
    (c.setStage st { c.stages st with
      inFlightSince := now, opGeneration := (c.stages st).opGeneration + 1 },
      some (fireJob cfg c st target now))

/-- What the reconcile pass asks its environment for, stage by stage: the two
clock readings and the outcome of the fire section. -/
structure ReconcileEnv where
  examineNow : StageName → ℤ
  fireNow : StageName → ℤ
  outcome : StageName → FireOutcome

/-- The body of the reconcile loop for one stage, without interruption. -/
def reconcileStage (env : ReconcileEnv) (c : Core) (st : StageName) : Core × Option Job :=
  match reconcileExamine cfg c st (env.examineNow st) with
  | (c', none) => (c', none)
  | (c', some target) => fireStage cfg c' st target (env.fireNow st) (env.outcome st)

/-- The reconcile loop over a list of stages: the final state and the launched
jobs in order. -/
def reconcileLoop (env : ReconcileEnv) : Core → List StageName → Core × List Job
  | c, [] => (c, [])
  | c, st :: rest =>
    let (c', job) := reconcileStage cfg env c st
    let (c'', jobs) := reconcileLoop env c' rest
    (c'', job.toList ++ jobs)

/-- `strim_controller_handle_reconcile`, run without interruption. -/
def handleReconcile (shuttingDown : Bool) (env : ReconcileEnv) (c : Core) : Core × List Job :=
  if shuttingDown then (c, []) else reconcileLoop cfg env c StageName.all

/-! ## Teardown -/

/-- The teardown stops this stage: it is running and has a stop operation. -/
def tearsDown (c : Core) (st : StageName) : Bool :=
  decide ((c.stages st).status.actual = .running) && cfg.stageOpFor st .stopped

/-- The teardown of one stage up to the call of the stop operation. -/
def teardownBump (c : Core) (st : StageName) : Core :=
  c.setStage st { c.stages st with opGeneration := (c.stages st).opGeneration + 1 }

/-- The teardown of one stage after the stop operation returned, whatever it
returned. -/
def teardownStopped (c : Core) (st : StageName) : Core :=
  c.setStage st { c.stages st with
    status := { desired := .stopped, actual := .stopped }, inFlightSince := 0 }

/-- The body of the teardown loop for one stage, without interruption. -/
def teardownStage (c : Core) (st : StageName) : Core :=
  if tearsDown cfg c st then teardownStopped (teardownBump c st) st else c

/-- `teardown_inner`, run without interruption. -/
def teardownInner (c : Core) : Core := notifyListeners (StageName.all.foldl (teardownStage cfg) c)

/-! ## Dispatch -/

/-- The queued actions, `strim_action` by its kind. A clear carries the stage
and the generation that the failed operation was fired with. -/
inductive Action where
  | pathEvent (e : PathEvent)
  | control (cmd : ControlCommand)
  | stageEvent (e : StageEvent)
  | status
  | addListener (l : Listener)
  | removeListener (l : Listener)
  | reconcile
  | clearInflight (st : StageName) (generation : UInt64)
  | teardown
  deriving DecidableEq

/-- `run_action`, run without interruption: the new state, the result that is
replied, and the jobs that were launched. -/
def runAction (shuttingDown : Bool) (env : ReconcileEnv) (c : Core) :
    Action → Core × Result × List Job
  | .pathEvent e => let r := handlePathEvent cfg c e; (r.1, r.2, [])
  | .control cmd => let r := handleControl cfg c cmd; (r.1, r.2, [])
  | .stageEvent e => let r := handleStageEvent c e; (r.1, r.2, [])
  | .status => (c, .ok (), [])
  | .addListener l => let r := handleAddListener c l; (r.1, r.2, [])
  | .removeListener l => let r := handleRemoveListener c l; (r.1, r.2, [])
  | .reconcile => let r := handleReconcile cfg shuttingDown env c; (r.1, .ok (), r.2)
  | .clearInflight st generation => (clearInflight c st generation, .ok (), [])
  | .teardown => (teardownInner cfg c, .ok (), [])

/-! ## What the handlers leave alone

Path events, control commands and listeners touch neither the in-flight marks and
the generations nor the actual states. A stage event clears one mark, and a clear at
most one.
-/

/-- Same in-flight marks, generations and actual states. -/
def SameFlight (c c' : Core) : Prop :=
  ∀ st, (c'.stages st).inFlightSince = (c.stages st).inFlightSince ∧
    (c'.stages st).opGeneration = (c.stages st).opGeneration ∧
    (c'.stages st).status.actual = (c.stages st).status.actual

variable (c : Core)

theorem SameFlight.refl : SameFlight c c := fun _ => ⟨rfl, rfl, rfl⟩

@[simp] theorem notifyListeners_stages : (notifyListeners c).stages = c.stages := rfl

theorem applyDesiredStageTarget_sameFlight {κ : Type} (target : Route κ) :
    SameFlight c (applyDesiredStageTarget c target).1 := by
  intro st
  unfold applyDesiredStageTarget
  dsimp only
  split
  · exact ⟨rfl, rfl, rfl⟩
  split
  · exact ⟨rfl, rfl, rfl⟩
  rw [notifyListeners_stages]
  by_cases same : st = target.targetStage
  · subst same
    rw [Core.setStage_self]
    exact ⟨rfl, rfl, rfl⟩
  · rw [Core.setStage_of_ne _ _ same]
    exact ⟨rfl, rfl, rfl⟩

theorem handlePathEvent_sameFlight (e : PathEvent) : SameFlight c (handlePathEvent cfg c e).1 := by
  unfold handlePathEvent
  split
  · exact .refl c
  split
  · exact .refl c
  split
  · exact fun _ => ⟨rfl, rfl, rfl⟩
  · exact applyDesiredStageTarget_sameFlight _ _

theorem handleControl_sameFlight (cmd : ControlCommand) :
    SameFlight c (handleControl cfg c cmd).1 := by
  unfold handleControl
  split
  · exact .refl c
  split
  · exact .refl c
  split
  · exact .refl c
  · exact applyDesiredStageTarget_sameFlight _ _

theorem handleAddListener_sameFlight (l : Listener) : SameFlight c (handleAddListener c l).1 := by
  unfold handleAddListener
  split
  · exact .refl c
  split
  · exact .refl c
  · exact fun _ => ⟨rfl, rfl, rfl⟩

theorem handleRemoveListener_sameFlight (l : Listener) :
    SameFlight c (handleRemoveListener c l).1 := by
  unfold handleRemoveListener
  split
  · exact fun _ => ⟨rfl, rfl, rfl⟩
  · exact .refl c

/-- The generations after a stage event, and the mark of every stage. -/
theorem handleStageEvent_flight (e : StageEvent) (st : StageName) :
    ((handleStageEvent c e).1.stages st).opGeneration = (c.stages st).opGeneration ∧
    ((handleStageEvent c e).1.stages st).inFlightSince =
      if StageName.ofCode e.stage = some st ∧ (StageState.ofCode e.state).isSome then 0
      else (c.stages st).inFlightSince := by
  unfold handleStageEvent
  split
  · rename_i none
    simp [none]
  rename_i other name
  split
  · rename_i none
    simp [none]
  rename_i state valid
  dsimp only
  by_cases same : st = other
  · subst same
    split <;> simp [name, valid]
  · have ne : other ≠ st := fun eq => same eq.symm
    split <;> simp [name, ne, Core.setStage_of_ne _ _ same]

/-- The generations after a clear, and the mark of every stage. -/
theorem clearInflight_flight (st other : StageName) (generation : UInt64) :
    ((clearInflight c st generation).stages other).opGeneration = (c.stages other).opGeneration ∧
    ((clearInflight c st generation).stages other).inFlightSince =
      if other = st ∧ (c.stages st).opGeneration = generation then 0
      else (c.stages other).inFlightSince := by
  unfold clearInflight
  dsimp only
  by_cases same : other = st
  · split <;> simp [*]
  split
  · rw [Core.setStage_of_ne _ _ same]
    simp [same]
  · simp [same]

/-- The generations after the decision about a stage, and the mark of every
stage: only a converged stage loses its mark. -/
theorem reconcileExamine_flight (st other : StageName) (now : ℤ) :
    (((reconcileExamine cfg c st now).1).stages other).opGeneration =
      (c.stages other).opGeneration ∧
    (((reconcileExamine cfg c st now).1).stages other).inFlightSince =
      if other = st ∧ (c.stages st).status.desired = (c.stages st).status.actual then 0
      else (c.stages other).inFlightSince := by
  unfold reconcileExamine
  dsimp only
  by_cases same : other = st
  · split
    · simp [*]
    rename_i apart
    split
    · simp [apart]
    · split <;> simp [apart]
  split
  · rw [Core.setStage_of_ne _ _ same]
    simp [same]
  split
  · simp [same]
  · split <;> simp [same]

/-- A decision to fire: the stage is not in flight or timed out, and the state
is unchanged. -/
theorem reconcileExamine_some {c c' : Core} {st : StageName} {now : ℤ} {target : StageState}
    (decided : reconcileExamine cfg c st now = (c', some target)) :
    c' = c ∧ (c.stages st).status.desired ≠ (c.stages st).status.actual ∧
      ((c.stages st).inFlightSince = 0 ∨
        cfg.inflightTimeoutMs ≤ now - (c.stages st).inFlightSince) := by
  unfold reconcileExamine at decided
  dsimp only at decided
  split at decided
  · cases decided
  rename_i apart
  split at decided
  · cases decided
  rename_i due
  split_ifs at decided <;> cases decided
  exact ⟨rfl, apart, not_not.mp due⟩

end Strimserver.Controller
