import Strimserver.Controller.Types

/-!
# The Go controller

The handlers of `controller.go`, which the C port follows. Names, statuses and
states are strings there, paths, stages and routes are maps, and a time is a
`time.Time` whose zero value stands for "not in flight". A time is the number of
nanoseconds since the zero value here; a duration is a 64-bit number of
nanoseconds, so that `Sub` saturates.

A loop over a map visits its keys in an order that the language leaves open. The
order is an argument of the two handlers with such a loop. So are the clock
readings, by the stage and the place of the call.

Log lines are left out, and so is `NewController`.
-/

namespace Strimserver.Oracle

open Strimserver.Controller (Listener)

/-! ## Data -/

/-- `Running`. -/
def running : String := "running"

/-- `Stopped`. -/
def stopped : String := "stopped"

def noTarget : String := ""

def pathStatusValid (s : String) : Bool := s == "unknown" || s == "ready" || s == "not-ready"

def stageStateValid (s : String) : Bool := s == running || s == stopped

/-- `time.Time`, in nanoseconds since the zero value. -/
abbrev Time := ℤ

/-- The least and the greatest `time.Duration`. -/
def minDuration : ℤ := -2 ^ 63

@[inherit_doc minDuration]
def maxDuration : ℤ := 2 ^ 63 - 1

/-- `Time.Sub`. -/
def timeSub (t u : Time) : ℤ := max minDuration (min maxDuration (t - u))

/-- `StageStatus`. -/
structure StageStatus where
  desired : String
  actual : String
  deriving DecidableEq

/-- `Stage`. Of the map `Ops` only the keys matter. -/
structure Stage where
  status : StageStatus
  ops : String → Bool
  inFlightSince : Time

/-- `InFlight`. -/
def Stage.inFlight (s : Stage) : Bool := decide (s.inFlightSince ≠ 0)

theorem Stage.inFlight_iff (s : Stage) : s.inFlight = true ↔ s.inFlightSince ≠ 0 :=
  decide_eq_true_iff

/-- `ControllerStatus`. -/
@[ext] structure ControllerStatus where
  paths : String → Option String
  stages : String → Option StageStatus

/-- `StageTarget`. A prerequisite reads the status, and returns the text of an
error or nothing. -/
structure StageTarget where
  stage : String
  state : String
  prerequisite : Option (ControllerStatus → Option String)

/-- The errors of the handlers, with the values they print. -/
inductive Error where
  /-- `control not implemented: %+v`. -/
  | controlNotImplemented (component action : String)
  /-- `invalid path name: %+v`. -/
  | invalidPathName (path status : String)
  /-- `invalid path status: %+v`. -/
  | invalidPathStatus (path status : String)
  /-- `invalid stage name: %+v`. -/
  | invalidStageName (stage state : String)
  /-- `invalid stage state: %+v`. -/
  | invalidStageState (stage state : String)
  /-- `cannot set stage %q desired state to %q, prerequisite not satisfied: %w`. -/
  | prerequisite (stage state cause : String)
  /-- Not an error value: the read of a field of a stage that is not in the map
  ends the program. `NewController` refuses routes to such stages. -/
  | nilStage
  deriving DecidableEq

/-- `Controller`. `calls` records the invocations of listeners, the newest first. -/
structure Controller where
  paths : String → Option String
  stages : String → Option Stage
  pathEventRoutes : String × String → Option StageTarget
  commandRoutes : String × String → Option StageTarget
  inflightTimeout : ℤ
  listeners : List Listener
  calls : List (Listener × ControllerStatus)

def Controller.setStage (c : Controller) (name : String) (stage : Stage) : Controller :=
  { c with stages := Function.update c.stages name (some stage) }

/-! ## Handlers -/

/-- `handleStatus`. -/
def handleStatus (c : Controller) : ControllerStatus where
  paths := c.paths
  stages name := (c.stages name).map Stage.status

/-- `notifyListeners`. -/
def notifyListeners (c : Controller) : Controller :=
  { c with calls := (c.listeners.map fun l => (l, handleStatus c)).reverse ++ c.calls }

/-- `applyDesiredStageTarget`. -/
def applyDesiredStageTarget (c : Controller) (target : StageTarget) :
    Controller × Except Error Unit :=
  match c.stages target.stage with
  | none => (c, .error .nilStage)
  | some stage =>
    if stage.status.desired = target.state then (c, .ok ())
    else
      match target.prerequisite.bind fun p => p (handleStatus c) with
      | some cause => (c, .error (.prerequisite target.stage target.state cause))
      | none =>
        (notifyListeners (c.setStage target.stage
          { stage with status := { stage.status with desired := target.state } }), .ok ())

/-- `handleControl`. -/
def handleControl (c : Controller) (component action : String) : Controller × Except Error Unit :=
  match c.commandRoutes (component, action) with
  | none => (c, .error (.controlNotImplemented component action))
  | some target => applyDesiredStageTarget c target

/-- `handlePathEvent`. -/
def handlePathEvent (c : Controller) (path status : String) : Controller × Except Error Unit :=
  match c.paths path with
  | none => (c, .error (.invalidPathName path status))
  | some _ =>
    if pathStatusValid status = false then (c, .error (.invalidPathStatus path status))
    else
      let c' := { c with paths := Function.update c.paths path (some status) }
      match c'.pathEventRoutes (path, status) with
      | none => (c', .ok ())
      | some target => applyDesiredStageTarget c' target

/-- `handleStageEvent`. -/
def handleStageEvent (c : Controller) (name state : String) : Controller × Except Error Unit :=
  match c.stages name with
  | none => (c, .error (.invalidStageName name state))
  | some stage =>
    if stageStateValid state = false then (c, .error (.invalidStageState name state))
    else
      let c' := c.setStage name
        { stage with status := { stage.status with actual := state }, inFlightSince := 0 }
      if stage.status.actual ≠ state then (notifyListeners c', .ok ()) else (c', .ok ())

/-! ## The reconcile pass -/

/-- `planReconcile`: the target, and whether the operation before it timed out. -/
def planReconcile (inflightTimeout : ℤ) (stage : Stage) (now : Time) : String × Bool :=
  if stage.inFlight = false then (stage.status.desired, false)
  else if timeSub now stage.inFlightSince < inflightTimeout then (noTarget, false)
  else (stage.status.desired, true)

/-- The clock readings of a pass: the one of `planReconcile`, and the one that
marks the stage. -/
structure ReconcileEnv where
  planNow : String → Time
  fireNow : String → Time

/-- The body of the loop of `handleReconcile`: the new state, and the operation
that a goroutine was started for. -/
def reconcileStage (env : ReconcileEnv) (c : Controller) (name : String) :
    Controller × Option (String × String) :=
  match c.stages name with
  | none => (c, none)
  | some stage =>
    if stage.status.desired = stage.status.actual then
      (c.setStage name { stage with inFlightSince := 0 }, none)
    else
      let target := (planReconcile c.inflightTimeout stage (env.planNow name)).1
      if target = noTarget then (c, none)
      else if stage.ops target = false then (c, none)
      else
        (c.setStage name { stage with inFlightSince := env.fireNow name }, some (name, target))

/-- `handleReconcile`, with the order in which the stages are visited. -/
def handleReconcile (env : ReconcileEnv) : Controller → List String →
    Controller × List (String × String)
  | c, [] => (c, [])
  | c, name :: rest =>
    let (c', fired) := reconcileStage env c name
    let (c'', later) := handleReconcile env c' rest
    (c'', fired.toList ++ later)

/-! ## Teardown -/

/-- The body of the loop of `Teardown`. -/
def teardownStage (c : Controller) (name : String) : Controller :=
  match c.stages name with
  | none => c
  | some stage =>
    if stage.status.actual ≠ running then c
    else if stage.ops stopped = false then c
    else c.setStage name
      { stage with status := ⟨stopped, stopped⟩, inFlightSince := 0 }

/-- `Teardown`, with the order in which the stages are visited. -/
def teardown (c : Controller) (order : List String) : Controller :=
  notifyListeners (order.foldl teardownStage c)

/-! ## Actions -/

/-- The actions on the channel, with what the language and the clock leave open. -/
inductive Input where
  | pathEvent (path status : String)
  | control (component action : String)
  | stageEvent (stage state : String)
  | reconcile (order : List String) (env : ReconcileEnv)
  | teardown (order : List String)

/-- One action: the new state, what the handler returns, and the operations
that were fired. -/
def act (c : Controller) : Input → Controller × Except Error Unit × List (String × String)
  | .pathEvent path status => let r := handlePathEvent c path status; (r.1, r.2, [])
  | .control component action => let r := handleControl c component action; (r.1, r.2, [])
  | .stageEvent stage state => let r := handleStageEvent c stage state; (r.1, r.2, [])
  | .reconcile order env => let r := handleReconcile env c order; (r.1, .ok (), r.2)
  | .teardown order => (teardown c order, .ok (), [])

end Strimserver.Oracle
