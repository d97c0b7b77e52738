import Strimserver.Controller.Process
import Strimserver.Controller.Queue
import Strimserver.Controller.StatusPush

/-!
# Stage events and the actual state

Only stage events set the actual state of a stage, and the teardown. So the
actual state once the queued stage events are handled, `Sys.settled`, is a
function of the state that no other step changes (`settled_of_step`).

`needsStop` reads from the log which stages still have to be stopped: those
whose last operation to complete is a start that succeeded, when the teardown
has not called their stop operation since.
-/

namespace Strimserver.Controller

open Library List

def SameActual (c c' : Core) : Prop :=
  ∀ st, (c'.stages st).status.actual = (c.stages st).status.actual

theorem SameView.actual {c c' : Core} (view : SameView c c') : SameActual c c' :=
  fun st => congrArg (fun status => (status.stages st).actual) view.status

/-! ## Stage events that are queued -/

def StageEvent.taskEvents (e : StageEvent) : List TaskEvent :=
  match StageName.ofCode e.stage, StageState.ofCode e.state with
  | some st, some state => [(st, state)]
  | _, _ => []

/-- The stage events among the queued actions. -/
def Entry.taskEvents (entry : Entry) : List TaskEvent :=
  match entry.act with
  | .stageEvent e => e.taskEvents
  | _ => []

/-- The stage event that the queue thread has taken and not handled. -/
def QueueThread.taskEvents : QueueThread → List TaskEvent
  | .dispatching entry => entry.taskEvents
  | _ => []

/-- The stage events that are not handled, in the order in which they will be. -/
def Sys.taskEvents (s : Sys) : List TaskEvent :=
  s.thread.taskEvents ++ s.queue.flatMap Entry.taskEvents

/-- The state of a stage after some events. -/
def replay (st : StageName) (state : StageState) (events : List TaskEvent) : StageState :=
  events.foldl (fun current e => if e.1 = st then e.2 else current) state

/-- The actual state of a stage once the queued stage events are handled. -/
def Sys.settled (s : Sys) (st : StageName) : StageState :=
  replay st (s.core.stages st).status.actual s.taskEvents

variable (st : StageName) (state : StageState)

@[simp] theorem replay_nil : replay st state [] = state := rfl

@[simp] theorem replay_cons (e : TaskEvent) (events : List TaskEvent) :
    replay st state (e :: events) = replay st (if e.1 = st then e.2 else state) events := rfl

theorem replay_append (first second : List TaskEvent) :
    replay st state (first ++ second) = replay st (replay st state first) second :=
  foldl_append

/-- A stage that is running after events that only stop stages was running. -/
theorem running_of_replay {st : StageName} {state : StageState} {events : List TaskEvent}
    (stops : ∀ e ∈ events, e.2 = .stopped) (running : replay st state events = .running) :
    state = .running := by
  induction events generalizing state with
  | nil => exact running
  | cons e events ih =>
    rw [replay_cons] at running
    have before := ih (fun e' mem => stops e' (mem_cons_of_mem _ mem)) running
    by_cases mine : e.1 = st
    · rw [if_pos mine, stops e mem_cons_self] at before
      cases before
    · rwa [if_neg mine] at before

variable {cfg : Config} {s s' : Sys}

/-- Handling a stage event sets the actual state of its stage. -/
theorem handleStageEvent_actual (c : Core) (e : StageEvent) (st : StageName) :
    ((handleStageEvent c e).1.stages st).status.actual =
      replay st (c.stages st).status.actual e.taskEvents := by
  unfold handleStageEvent StageEvent.taskEvents
  split
  · rename_i none
    simp [none]
  rename_i other name
  split
  · rename_i none
    simp [name, none]
  rename_i state valid
  simp only [name, valid, replay_cons, replay_nil]
  by_cases same : st = other
  · subst same
    split <;> simp
  have ne : ¬ other = st := fun eq => same eq.symm
  rw [if_neg ne]
  split <;> simp [Core.setStage_of_ne _ _ same]

/-- The same for a step of the queue thread away from a stage event. -/
theorem Sys.settled_of_thread {thread : QueueThread} (at_ : s.thread = thread)
    (quiet : thread.taskEvents = []) (quiet' : s'.thread.taskEvents = [])
    (actual : SameActual s.core s'.core) (queue : s'.queue = s.queue) {st : StageName} :
    s'.settled st = s.settled st := by
  unfold Sys.settled
  rw [actual st, Sys.taskEvents, Sys.taskEvents, queue, quiet', at_, quiet]

/-- What is put on the queue is handled last. -/
theorem Sys.settled_append (more : List Entry) (core : s'.core = s.core)
    (thread : s'.thread = s.thread) (queue : s'.queue = s.queue ++ more) (st : StageName) :
    s'.settled st = replay st (s.settled st) (more.flatMap Entry.taskEvents) := by
  unfold Sys.settled Sys.taskEvents
  rw [core, thread, queue, flatMap_append, ← append_assoc, replay_append]

variable {l : Label}

theorem settled_loop_step (h : step cfg s l = some s') (actor : l.actor = .queueThread)
    (running : l ≠ .stopReturn) (st : StageName) : s'.settled st = s.settled st := by
  cases loopMove_of_step h actor with
  | dequeued entry rest at_ queue =>
    unfold Sys.settled Sys.taskEvents
    rw [at_, queue]
    rfl
  | handled act ticket r events at_ handles =>
    cases handlerMove handles with
    | plain other same =>
      have quiet : Entry.taskEvents ⟨act, ticket⟩ = [] := by
        cases act with
        | stageEvent e => exact absurd rfl (other e)
        | _ => rfl
      exact Sys.settled_of_thread at_ quiet (by rfl) (fun st => (same st).2.2) (by rfl)
    | staged e =>
      have before : s.taskEvents = e.taskEvents ++ s.queue.flatMap Entry.taskEvents := by
        rw [Sys.taskEvents, at_]
        rfl
      rw [Sys.settled, Sys.settled, before, replay_append, ← handleStageEvent_actual]
      rfl
    | cleared other g =>
      exact Sys.settled_of_thread at_ rfl (by rfl) (sameView_clearInflight s.core other g).actual
        (by rfl)
  | spared other rest now at_ =>
    exact Sys.settled_of_thread at_ rfl (by rfl)
      (sameView_reconcileExamine cfg s.core other now).actual (by rfl)
  | refused other target rest now at_ =>
    exact Sys.settled_of_thread at_ rfl (by rfl)
      (@sameView_fireStage cfg s.core other target now .submitFailed).actual (by rfl)
  | launched other target rest now at_ =>
    exact Sys.settled_of_thread at_ rfl (by rfl)
      (@sameView_fireStage cfg s.core other target now .launched).actual (by rfl)
  | stops ticket other rest at_ =>
    exact Sys.settled_of_thread at_ rfl (by rfl) (SameView.setStage s.core other (by rfl)).actual
      (by rfl)
  | stopped => exact absurd rfl running
  | _ =>
    apply Sys.settled_of_thread ‹s.thread = _›
    all_goals first | rfl | exact fun _ => rfl

/-- **The queue does not change what its stage events lead to**: only a stage
event that is submitted and the end of a stop in the teardown do. -/
theorem settled_of_step (h : step cfg s l = some s') (other : ∀ e, l ≠ .submit (.stageEvent e))
    (running : l ≠ .stopReturn) (st : StageName) : s'.settled st = s.settled st := by
  cases actor : l.actor with
  | submitter =>
    cases submitterStep_of_step h actor with
    | submitted act =>
      refine (Sys.settled_append (s := s) [⟨act, some s.nextTicket⟩] ?_ ?_ ?_ st).trans ?_
      · rfl
      · rfl
      · rfl
      cases act with
      | stageEvent e => exact absurd rfl (other e)
      | _ => rfl
    | requested =>
      refine (Sys.settled_append (s := s) [⟨.reconcile, none⟩] ?_ ?_ ?_ st).trans ?_
      all_goals rfl
    | _ => rfl
  | queueThread => exact settled_loop_step h actor running st
  | worker =>
    have frame := step_worker h actor
    obtain ⟨clears, queue, clear, -⟩ := (workerQueueStep_of_step h actor).queue
    have none : clears.flatMap Entry.taskEvents = [] := by
      refine flatMap_eq_nil_iff.mpr fun entry mem => ?_
      obtain ⟨other, g, rfl⟩ := clear entry mem
      rfl
    rw [Sys.settled_append clears frame.core frame.thread queue, none, replay_nil]

theorem settled_stopReturn (h : step cfg s .stopReturn = some s') :
    ∃ ticket stopped rest, s.thread = .stopping ticket stopped rest ∧
      ∀ st, st ≠ stopped → s'.settled st = s.settled st := by
  cases loopMove_of_step h rfl with
  | stopped ticket stopped rest at_ =>
    refine ⟨ticket, stopped, rest, at_, fun st other => ?_⟩
    unfold Sys.settled Sys.taskEvents
    rw [at_]
    simp [teardownStopped, Core.setStage_of_ne _ _ other, QueueThread.taskEvents]

/-! ## Stages that still have to be stopped -/

/-- The last operation of the stage to complete is a start that succeeded, and
the teardown has not called the stop operation since. -/
def needsStop (st : StageName) : List Event → Bool
  | [] => false
  | .opReturned job ok :: log =>
    if job.stage = st then ok && decide (job.target = .running) else needsStop st log
  | .stopInvoked other :: log => if other = st then false else needsStop st log
  | _ :: log => needsStop st log

/-- A start that succeeded, with no later return of its stage and no later call
of the stop operation, has to be stopped. -/
theorem needsStop_of_split {later earlier : List Event} {job : Job} (start : job.target = .running)
    (last : ∀ other ok, .opReturned other ok ∈ later → other.stage ≠ job.stage)
    (notStopped : .stopInvoked job.stage ∉ later) :
    needsStop job.stage (later ++ .opReturned job true :: earlier) = true := by
  induction later with
  | nil => simp [needsStop, start]
  | cons e later ih =>
    have rest := ih (fun other ok mem => last other ok (mem_cons_of_mem _ mem))
      fun mem => notStopped (mem_cons_of_mem _ mem)
    cases e with
    | opReturned other ok =>
      have ne := last other ok mem_cons_self
      simp only [cons_append, needsStop, if_neg ne]
      exact rest
    | stopInvoked other =>
      have ne : ¬ other = job.stage := by
        rintro rfl
        exact notStopped mem_cons_self
      simp only [cons_append, needsStop, if_neg ne]
      exact rest
    | _ => exact rest

/-- A step other than a return makes no stage one that has to be stopped. -/
theorem needsStop_of_step (h : step cfg s l = some s') (other : ∀ i ok, l ≠ .opReturn i ok)
    {st : StageName} (needs : needsStop st s'.log = true) : needsStop st s.log = true := by
  have log : ∃ events, s'.log = events ++ s.log ∧ ∀ job ok, .opReturned job ok ∉ events := by
    cases actor : l.actor with
    | submitter =>
      obtain ⟨events, log, calls⟩ := (step_submitter h actor).calls
      exact ⟨events, log, fun _ _ mem => Bool.noConfusion (calls _ mem)⟩
    | queueThread =>
      cases loopStep_of_step h actor with
      | inner events _ inner =>
        exact ⟨events, inner.log, fun _ _ mem => Bool.noConfusion (inner.quiet _ mem)⟩
      | _ => exact ⟨[], rfl, by simp⟩
    | worker =>
      cases workerMove_of_step h actor with
      | returned i job ok => exact absurd rfl (other i ok)
      | _ => exact ⟨[], rfl, by simp⟩
  obtain ⟨events, log, quiet⟩ := log
  rw [log] at needs
  clear log
  -- only a return makes a stage one that has to be stopped
  induction events with
  | nil => exact needs
  | cons e events ih =>
    refine ih ?_ fun job ok mem => quiet job ok (mem_cons_of_mem _ mem)
    cases e with
    | opReturned job ok => exact absurd mem_cons_self (quiet job ok)
    | stopInvoked =>
      simp only [cons_append, needsStop] at needs
      split at needs
      · cases needs
      · exact needs
    | _ => exact needs

end Strimserver.Controller
