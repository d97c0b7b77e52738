import Strimserver.Library.Machine
import Strimserver.Oracle.Handlers

/-!
# The Go controller as a system

The actions channel, the goroutine that takes the actions off it, the goroutines of the operations,
and a clock that does not go back. An operation ends at any time, with an error or without. The
goroutine of one that fails sends a closure that resets the mark of its stage.

Anyone may send the other actions. A send that waits for room on the channel has not happened yet,
so the channel is a list without a bound. A pass reads the clock up to twice for each stage; the
readings are part of its label, and follow one another.

An operation is known by its place among the fires. It is *excused* once its stage has had an event,
or its desired and actual state agree, or it has failed itself: from then on its stage need not wait
for it. -/

namespace Strimserver.Oracle

open Strimserver.Controller (Listener)
open Library

/-! ## Listeners -/

/-- `handleAddListener`, for a listener that is not nil. -/
def handleAddListener (c : Controller) (l : Listener) : Controller :=
  { c with listeners := c.listeners ++ [l], calls := (l, handleStatus c) :: c.calls }

/-- `handleRemoveListener`: whether the listener was registered. -/
def handleRemoveListener (c : Controller) (l : Listener) : Controller × Bool :=
  ({ c with listeners := c.listeners.erase l }, c.listeners.contains l)

/-! ## States -/

/-- What is sent to `Run`. -/
inductive Action where
  | pathEvent (path status : String)
  | control (component action : String)
  | stageEvent (stage state : String)
  | addListener (l : Listener)
  | removeListener (l : Listener)
  | status
  | reconcile
  /-- Sent by the goroutine of an operation that has failed. -/
  | clear (stage : String) (op : ℕ)
  | teardown
  deriving DecidableEq

/-- Where an operation stands. -/
inductive OpPhase where
  | running
  /-- The operation has failed, and the closure is to be sent. -/
  | failed
  | ended
  deriving DecidableEq

/-- An operation that was fired. -/
structure Op where
  stage : String
  firedAt : Time
  phase : OpPhase
  excused : Bool

/-- The controller with its goroutines. -/
structure System where
  controller : Controller
  queue : List Action
  /-- In the order of the fires. -/
  ops : List Op
  clock : Time

/-- The desired and the actual state of a stage agree. -/
def Controller.converged (c : Controller) (name : String) : Bool :=
  (c.stages name).any fun stage => stage.status.desired = stage.status.actual

def System.excuse (s : System) (name : String) : System :=
  { s with ops := s.ops.map fun op => { op with excused := op.excused || op.stage = name } }

/-! ## Actions -/

/-- The body of the loop of `handleReconcile`. -/
def System.visit (env : ReconcileEnv) (s : System) (name : String) : System :=
  let settled := if s.controller.converged name then s.excuse name else s
  let (c, fired) := reconcileStage env s.controller name
  { settled with
    controller := c
    ops := settled.ops ++ fired.toList.map fun op => ⟨op.1, env.fireNow op.1, .running, false⟩
    clock := env.fireNow name }

/-- The body of the loop of `Teardown`. -/
def System.tearDown (s : System) (name : String) : System :=
  let torn := { s with controller := teardownStage s.controller name }
  if torn.controller.converged name then torn.excuse name else torn

/-- The closure of an operation that has failed. -/
def clearMark (c : Controller) (name : String) : Controller :=
  match c.stages name with
  | none => c
  | some stage => c.setStage name { stage with inFlightSince := 0 }

/-- An action, with the order and the readings of its pass. -/
def System.perform (order : List String) (env : ReconcileEnv) (s : System) : Action → System
  | .pathEvent path status => { s with controller := (handlePathEvent s.controller path status).1 }
  | .control component action =>
    { s with controller := (handleControl s.controller component action).1 }
  | .stageEvent stage state =>
    let result := handleStageEvent s.controller stage state
    let s := { s with controller := result.1 }
    match result.2 with
    | .ok () => s.excuse stage
    | .error _ => s
  | .addListener l => { s with controller := handleAddListener s.controller l }
  | .removeListener l => { s with controller := (handleRemoveListener s.controller l).1 }
  | .status => s
  | .reconcile => order.foldl (System.visit env) s
  | .clear stage _ => { s with controller := clearMark s.controller stage }
  | .teardown =>
    let s := order.foldl System.tearDown s
    { s with controller := notifyListeners s.controller }

/-! ## Steps -/

/-- The steps of the goroutines. -/
inductive Label where
  /-- Someone sends an action. -/
  | submit (a : Action)
  /-- `Run` takes the next action. -/
  | run (order : List String) (env : ReconcileEnv)
  /-- The operation returns. -/
  | opReturns (op : ℕ) (error : Bool)
  /-- The goroutine of an operation that has failed sends its closure. -/
  | opSubmits (op : ℕ)
  | tick (now : Time)

/-- The closures that only operations send. -/
def Action.isClear : Action → Bool
  | clear .. => true
  | _ => false

def readingsFollow (env : ReconcileEnv) : Time → List String → Bool
  | _, [] => true
  | clock, name :: rest =>
    decide (clock ≤ env.planNow name) && decide (env.planNow name ≤ env.fireNow name) &&
      readingsFollow env (env.fireNow name) rest

def Op.returned (op : Op) (error : Bool) : Op :=
  { op with phase := if error then .failed else .ended, excused := op.excused || error }

/-- A step of the goroutines. -/
def System.step (s : System) : Label → Option System
  | .submit a => if a.isClear then none else some { s with queue := s.queue ++ [a] }
  | .run order env =>
    match s.queue with
    | [] => none
    | a :: rest =>
      if readingsFollow env s.clock order then
        some (System.perform order env { s with queue := rest } a)
      else none
  | .opReturns i error =>
    s.ops[i]?.bind fun op =>
      if op.phase = .running then
        some { s with ops := s.ops.set i (op.returned error) }
      else none
  | .opSubmits i =>
    s.ops[i]?.bind fun op =>
      if op.phase = .failed then
        some { s with
          ops := s.ops.set i { op with phase := .ended }
          queue := s.queue ++ [.clear op.stage i] }
      else none
  | .tick now => if s.clock ≤ now then some { s with clock := now } else none

def system (c : Controller) (clock : Time) : Machine System Label where
  initial s := s = ⟨c, [], [], clock⟩
  step := System.step

/-- A controller with one stage, which should run. -/
def oneStage : Controller where
  paths _ := none
  stages name := if name = "s" then some ⟨⟨running, stopped⟩, fun _ => true, 0⟩ else none
  pathEventRoutes _ := none
  commandRoutes _ := none
  inflightTimeout := 10
  listeners := []
  calls := []

end Strimserver.Oracle
