import Strimserver.Controller.New
import Strimserver.Library.Machine

/-!
# The controller with its threads

The queue thread, the workers of the pool, the main thread and any number of
submitting threads over one controller. A section under the queue lock, a
section under the lock of the wait group and a section under the lock of the
pool is one step. Code of the queue thread between two such sections touches
only the state that the queue thread owns and is one step as well; it reads the
shutdown flag and bumps the generations, which are atomic.

A step is chosen by its label, which also carries what the step asks of its
environment: the clock reading, whether an allocation succeeds, what an
operation returns. So a run is a list of labels and stands for one interleaving.

`log` records what happened, the newest first. No step reads it: it is there so
that statements about a run are statements about the states of the run.
-/

namespace Strimserver.Controller

open Library

/-! ## States -/

/-- A queued action. The ticket is the submitter that waits for the reply; a
self-allocated action has none. -/
structure Entry where
  act : Action
  ticket : Option ℕ
  deriving DecidableEq

/-- Where the queue thread is in `strim_controller_run`. -/
inductive QueueThread where
  /-- At the top of the loop. -/
  | idle
  /-- In `run_action`, before the handler of the dequeued action. -/
  | dispatching (entry : Entry)
  /-- In the reconcile loop, before the first of the listed stages. -/
  | reconciling (rest : List StageName)
  /-- In the reconcile loop, decided to fire, before the queue lock. -/
  | firing (st : StageName) (target : StageState) (rest : List StageName)
  /-- In the teardown loop, before the first of the listed stages. -/
  | tearingDown (ticket : Option ℕ) (rest : List StageName)
  /-- In the stop operation that the teardown called for this stage. -/
  | stopping (ticket : Option ℕ) (st : StageName) (rest : List StageName)
  /-- After the handler, before the reply. -/
  | replying (ticket : Option ℕ) (result : Result)
  /-- `strim_controller_run` returned. -/
  | returned

/-- Where a worker is in `run_stage_op`. -/
inductive Phase where
  /-- In the operation. -/
  | running
  /-- The operation failed; before the check whether it is superseded. -/
  | failed
  /-- Not superseded; before the clear is put on the queue. -/
  | clearing
  /-- Before `wg_done`. -/
  | finishing
  deriving DecidableEq

/-- A worker that has taken a job and is not yet past `wg_done`. -/
structure Worker where
  job : Job
  phase : Phase
  deriving DecidableEq

/-- `STRIM_CTRL_WORKERS`. -/
def poolSize : ℕ := 4

/-- Where the main thread is: it calls `begin_shutdown`, then `wait_for_ops`. -/
inductive MainThread where
  | running | shutdownBegun | opsWaited
  deriving DecidableEq

/-- What the log records. -/
inductive Event where
  /-- `now_ms` was read. -/
  | clock (now : ℤ)
  /-- A reconcile pass found desired and actual equal. -/
  | converged (st : StageName)
  /-- A job was put in the pool. -/
  | fired (job : Job) (now : ℤ)
  /-- The pool refused a job. -/
  | submitFailed (st : StageName)
  /-- A stage event was handled. -/
  | stageHandled (st : StageName)
  /-- A clear was handled. -/
  | clearHandled (st : StageName) (generation : UInt64)
  /-- The teardown bumped the generation and called the stop operation. -/
  | stopInvoked (st : StageName)
  /-- The stop operation of the teardown returned. -/
  | stopReturned (st : StageName)
  /-- A fired operation returned, with success or not. -/
  | opReturned (job : Job) (ok : Bool)
  /-- `request_reconcile` was called while the queue was open. -/
  | requested
  /-- A reconcile pass started. Once the shutdown has begun it ends at once. -/
  | reconcileStarted
  /-- The handler of the action with this ticket is done. -/
  | handled (ticket : Option ℕ)
  /-- The submit with this ticket returned. -/
  | submitReturned (ticket : ℕ)
  deriving DecidableEq

/-- The controller with its threads. -/
structure Sys where
  core : Core
  queue : List Entry
  (qClosed reconcileQueued shuttingDown : Bool)
  thread : QueueThread
  /-- `ops_wg.count`. -/
  opsWg : ℕ
  /-- The jobs waiting in the pool. -/
  pool : List Job
  workers : List Worker
  /-- The tickets whose reply is set and whose submit has not returned. -/
  replied : List ℕ
  nextTicket : ℕ
  main : MainThread
  log : List Event

/-- The threads before their first step. -/
def Sys.start (c : Core) : Sys where
  core := c
  queue := []
  qClosed := false
  reconcileQueued := false
  shuttingDown := false
  thread := .idle
  opsWg := 0
  pool := []
  workers := []
  replied := []
  nextTicket := 0
  main := .running
  log := []

/-- The operation jobs that are queued in the pool or running and not yet past
`wg_done`. -/
def Sys.liveJobs (s : Sys) : List Job := s.pool ++ s.workers.map Worker.job

/-! ## Labels -/

/-- The steps of the threads. -/
inductive Label where
  /-- The enqueueing section of `queue_submit`. -/
  | submit (act : Action)
  /-- The submitter sees its reply and returns. -/
  | submitReturn (ticket : ℕ)
  | requestReconcile (allocated : Bool)
  /-- `strim_controller_begin_shutdown`, called by a thread other than main. -/
  | beginShutdown
  /-- `strim_controller_close`, its store of the flag. -/
  | closeFlag
  /-- `strim_controller_close`, its section under the queue lock. -/
  | closeQueue
  /-- The main thread calls `strim_controller_begin_shutdown`. -/
  | mainBeginShutdown
  /-- The main thread returns from `strim_controller_wait_for_ops`. -/
  | mainWaitReturn
  /-- The queue thread takes the head of the queue. -/
  | dequeue
  /-- The queue thread finds the queue closed and drained. -/
  | runReturn
  /-- The queue thread runs the handler, or enters its loop. -/
  | dispatch
  /-- The reconcile loop decides about its next stage. -/
  | examine (now : ℤ)
  /-- The fire section of the reconcile loop. -/
  | fire (now : ℤ) (outcome : FireOutcome)
  /-- The reconcile loop is done. -/
  | passDone
  /-- The teardown loop visits its next stage. -/
  | tearDown
  /-- The stop operation that the teardown called returns. -/
  | stopReturn
  /-- The teardown loop is done; the listeners are notified. -/
  | tornDown
  /-- The section of `run_action` that sets the reply. -/
  | reply
  /-- A worker takes the head of the pool. -/
  | workerStart
  /-- The operation of a worker returns. -/
  | opReturn (i : ℕ) (ok : Bool)
  /-- A worker asks whether its failed operation is superseded. -/
  | checkSuperseded (i : ℕ)
  /-- A worker puts the clear of its failed operation on the queue. -/
  | enqueueClear (i : ℕ) (allocated : Bool)
  /-- A worker calls `wg_done`. -/
  | wgDone (i : ℕ)

/-- The actions that a thread submits and waits for. -/
def Action.blocking : Action → Bool
  | .reconcile => false
  | .clearInflight _ _ => false
  | _ => true

/-! ## Steps -/

/-- `wg_done` on the counter. -/
def wgDone (count : ℕ) : ℕ := if 0 < count then count - 1 else count

/-- `enqueue_locked`. -/
def Sys.enqueueLocked (s : Sys) (entry : Entry) : Sys := { s with queue := s.queue ++ [entry] }

/-- A handler has run: its state is installed and its reply is due. -/
def Sys.handled (s : Sys) (ticket : Option ℕ) (r : Core × Result) (events : List Event) : Sys :=
  { s with
    core := r.1
    thread := .replying ticket r.2
    log := .handled ticket :: events ++ s.log }

def stageHandledEvents (e : StageEvent) : List Event :=
  match StageName.ofCode e.stage, StageState.ofCode e.state with
  | some st, some _ => [.stageHandled st]
  | _, _ => []

/-- The switch of `run_action`. The reconcile pass and the teardown only enter
their loops here. -/
def Sys.dispatch (cfg : Config) (s : Sys) (entry : Entry) : Sys :=
  match entry.act with
  | .pathEvent e => s.handled entry.ticket (handlePathEvent cfg s.core e) []
  | .control cmd => s.handled entry.ticket (handleControl cfg s.core cmd) []
  | .stageEvent e => s.handled entry.ticket (handleStageEvent s.core e) (stageHandledEvents e)
  | .status => s.handled entry.ticket (s.core, .ok ()) []
  | .addListener l => s.handled entry.ticket (handleAddListener s.core l) []
  | .removeListener l => s.handled entry.ticket (handleRemoveListener s.core l) []
  | .reconcile =>
    { s with
      thread := if s.shuttingDown then .replying entry.ticket (.ok ())
        else .reconciling StageName.all
      log := .reconcileStarted :: s.log }
  | .clearInflight st generation =>
    s.handled entry.ticket (clearInflight s.core st generation, .ok ())
      [.clearHandled st generation]
  | .teardown => { s with thread := .tearingDown entry.ticket StageName.all }

/-- The events of the part of the reconcile loop before the queue lock. -/
def examineEvents (c : Core) (st : StageName) (now : ℤ) : List Event :=
  if (c.stages st).status.desired = (c.stages st).status.actual then [.converged st]
  else if readsClock c st then [.clock now]
  else []

/-- The reconcile loop decides about one stage. -/
def Sys.examine (cfg : Config) (s : Sys) (st : StageName) (rest : List StageName) (now : ℤ) : Sys :=
  let r := reconcileExamine cfg s.core st now
  { s with
    core := r.1
    thread := match r.2 with
      | none => .reconciling rest
      | some target => .firing st target rest
    log := examineEvents s.core st now ++ s.log }

/-- The fire section for one stage. The wait group is incremented before the
submit and decremented again when the submit fails. -/
def Sys.fire (cfg : Config) (s : Sys) (st : StageName) (target : StageState)
    (rest : List StageName) (now : ℤ) (outcome : FireOutcome) : Sys :=
  if s.shuttingDown then { s with thread := .reconciling rest }
  else
    let r := fireStage cfg s.core st target now outcome
    match outcome with
    | .jobAllocFailed => { s with thread := .reconciling rest }
    | .submitFailed =>
      { s with
        core := r.1
        thread := .reconciling rest
        opsWg := wgDone (s.opsWg + 1)
        log := .submitFailed st :: .clock now :: s.log }
    | .launched =>
      { s with
        core := r.1
        thread := .reconciling rest
        opsWg := s.opsWg + 1
        pool := s.pool ++ r.2.toList
        log := r.2.toList.map (.fired · now) ++ .clock now :: s.log }

/-- The teardown loop visits one stage. -/
def Sys.tearDown (cfg : Config) (s : Sys) (ticket : Option ℕ) (st : StageName)
    (rest : List StageName) : Sys :=
  if tearsDown cfg s.core st then
    { s with
      core := teardownBump s.core st
      thread := .stopping ticket st rest
      log := .stopInvoked st :: s.log }
  else { s with thread := .tearingDown ticket rest }

/-- `strim_stage_op_superseded` on the handle of a job. -/
def superseded (c : Core) (job : Job) : Bool :=
  decide ((c.stages job.stage).opGeneration ≠ job.generation)

def Sys.setPhase (s : Sys) (i : ℕ) (job : Job) (phase : Phase) : Sys :=
  { s with workers := s.workers.set i ⟨job, phase⟩ }

/-- A step of the threads. -/
def step (cfg : Config) (s : Sys) : Label → Option Sys
  | .submit act =>
    if act.blocking = false then none
    else if s.qClosed then some s
    else some { s.enqueueLocked ⟨act, some s.nextTicket⟩ with nextTicket := s.nextTicket + 1 }
  | .submitReturn ticket =>
    if ticket ∈ s.replied then
      some { s with replied := s.replied.erase ticket, log := .submitReturned ticket :: s.log }
    else none
  | .requestReconcile allocated =>
    if allocated = false ∨ s.qClosed = true then some s
    else if s.reconcileQueued then some { s with log := .requested :: s.log }
    else some { s.enqueueLocked ⟨.reconcile, none⟩ with
      reconcileQueued := true, log := .requested :: s.log }
  | .beginShutdown => some { s with shuttingDown := true }
  | .closeFlag => some { s with shuttingDown := true }
  | .closeQueue => if s.shuttingDown then some { s with qClosed := true } else none
  | .mainBeginShutdown =>
    if s.main = .running then some { s with shuttingDown := true, main := .shutdownBegun }
    else none
  | .mainWaitReturn =>
    if s.main = .shutdownBegun ∧ s.opsWg = 0 then some { s with main := .opsWaited } else none
  | .dequeue =>
    match s.thread, s.queue with
    | .idle, entry :: rest =>
      some { s with
        queue := rest
        reconcileQueued := if entry.act = .reconcile then false else s.reconcileQueued
        thread := .dispatching entry }
    | _, _ => none
  | .runReturn =>
    match s.thread, s.queue with
    | .idle, [] => if s.qClosed then some { s with thread := .returned } else none
    | _, _ => none
  | .dispatch =>
    match s.thread with
    | .dispatching entry => some (s.dispatch cfg entry)
    | _ => none
  | .examine now =>
    match s.thread with
    | .reconciling (st :: rest) => some (s.examine cfg st rest now)
    | _ => none
  | .fire now outcome =>
    match s.thread with
    | .firing st target rest => some (s.fire cfg st target rest now outcome)
    | _ => none
  | .passDone =>
    match s.thread with
    | .reconciling [] => some { s with thread := .replying none (.ok ()) }
    | _ => none
  | .tearDown =>
    match s.thread with
    | .tearingDown ticket (st :: rest) => some (s.tearDown cfg ticket st rest)
    | _ => none
  | .stopReturn =>
    match s.thread with
    | .stopping ticket st rest =>
      some { s with
        core := teardownStopped s.core st
        thread := .tearingDown ticket rest
        log := .stopReturned st :: s.log }
    | _ => none
  | .tornDown =>
    match s.thread with
    | .tearingDown ticket [] => some (s.handled ticket (notifyListeners s.core, .ok ()) [])
    | _ => none
  | .reply =>
    match s.thread with
    | .replying ticket _ => some { s with thread := .idle, replied := ticket.toList ++ s.replied }
    | _ => none
  | .workerStart =>
    match s.pool with
    | job :: rest =>
      if s.workers.length < poolSize then
        some { s with pool := rest, workers := s.workers ++ [⟨job, .running⟩] }
      else none
    | [] => none
  | .opReturn i ok =>
    match s.workers[i]? with
    | some ⟨job, .running⟩ =>
      some { s.setPhase i job (if ok then .finishing else .failed) with
        log := .opReturned job ok :: s.log }
    | _ => none
  | .checkSuperseded i =>
    match s.workers[i]? with
    | some ⟨job, .failed⟩ =>
      some (s.setPhase i job (if superseded s.core job then .finishing else .clearing))
    | _ => none
  | .enqueueClear i allocated =>
    match s.workers[i]? with
    | some ⟨job, .clearing⟩ =>
      let s' := s.setPhase i job .finishing
      if allocated = false ∨ s.qClosed = true then some s'
      else some (s'.enqueueLocked ⟨.clearInflight job.stage job.generation, none⟩)
    | _ => none
  | .wgDone i =>
    match s.workers[i]? with
    | some ⟨_, .finishing⟩ =>
      some { s with workers := s.workers.eraseIdx i, opsWg := wgDone s.opsWg }
    | _ => none

/-- The machine of the controller with its threads. It starts from any
configuration that `strim_controller_new` accepts. -/
def system (cfg : Config) : Machine Sys Label where
  initial s := ∃ raw, controllerNew raw = .ok (cfg, s.core) ∧ s = Sys.start s.core
  step := step cfg

end Strimserver.Controller
