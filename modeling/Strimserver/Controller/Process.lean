import Strimserver.Controller.RunConfig
import Strimserver.Controller.System

/-!
# The process around the controller

`run` in `main.c` with the thread that listens to containerd. A start operation
that returns zero leaves the container of its stage running, and containerd
emits a `TaskStart` event; a stop operation that returns zero ends it, and
containerd emits a `TaskExit` event. The listener takes the events in order and
submits each as a stage event, and it leaves its loop when it finds the signal
flag set, or when the event stream ends or fails.

At the signal the main thread joins the listener, and then calls
`begin_shutdown`, `wait_for_ops` and `teardown`. `close` comes after that and is
not part of the model, nor are containers that exit on their own.
-/

namespace Strimserver.Controller

open Library Option

def StageState.code : StageState → ℕ
  | .stopped => 0
  | .running => 1

@[simp] theorem StageState.ofCode_code (state : StageState) :
    StageState.ofCode state.code = some state := by
  cases state <;> rfl

@[simp] theorem StageName.ofCode_code (st : StageName) : StageName.ofCode st.code = some st := by
  cases st <;> rfl

/-- A task event of containerd, as the stage and the state that the listener
maps it to. -/
abbrev TaskEvent := StageName × StageState

def TaskEvent.stageEvent (e : TaskEvent) : StageEvent := ⟨e.1.code, e.2.code⟩

/-- Where the listener is in `containerd_listener_thread_fn`. -/
inductive ListenerThread where
  /-- Before the check of the signal flag. -/
  | checking
  /-- In `strim_event_stream_next`. -/
  | polling
  /-- In `strim_controller_submit_stage_event`. -/
  | submitting (ticket : ℕ)
  | exited
  deriving DecidableEq

/-- Where the main thread is, besides `begin_shutdown` and `wait_for_ops`, which
are steps of the controller. -/
inductive RunPhase where
  /-- Before the listener is joined. -/
  | serving
  /-- The listener is joined. -/
  | joined
  /-- In `strim_controller_teardown`. -/
  | tearing (ticket : ℕ)
  /-- `strim_controller_teardown` has returned. -/
  | tornDown
  deriving DecidableEq

/-- The controller with the threads of `main`. -/
structure Process where
  sys : Sys
  /-- `g_sig_flag`. -/
  signalled : Bool
  listener : ListenerThread
  /-- The emitted events that the listener has not taken, the oldest first. -/
  tasks : List TaskEvent
  phase : RunPhase

/-- The process before its threads take a step. -/
def Process.start (c : Core) : Process where
  sys := Sys.start c
  signalled := false
  listener := .checking
  tasks := []
  phase := .serving

/-- The steps of the process. -/
inductive ProcessLabel where
  | signal
  /-- The listener checks the signal flag. -/
  | listenerCheck
  /-- The poll times out, or returns an event that the listener skips. -/
  | listenerTimeout
  /-- The poll returns the oldest event, and its stage event is submitted. -/
  | listenerEvent
  /-- The event stream ends or fails. -/
  | listenerBreak
  /-- The submit of the stage event returns. -/
  | listenerReturn
  /-- The main thread joins the listener. -/
  | join
  | submitTeardown
  | teardownReturn
  /-- A step of the controller. -/
  | controller (l : Label)

/-- The events that a step of the controller makes containerd emit. -/
def emitted (s : Sys) : Label → List TaskEvent
  | .opReturn i true => (s.workers[i]?.map fun w => (w.job.stage, w.job.target)).toList
  | _ => []

/-- The steps of the controller that are not tied to the listener and the main
thread here, and those of the main thread in their place. -/
def Process.allows (p : Process) : Label → Bool
  | .submit (.stageEvent _) => false
  | .submit .teardown => false
  | .submitReturn ticket => decide (p.listener ≠ .submitting ticket ∧ p.phase ≠ .tearing ticket)
  | .beginShutdown => false
  | .closeFlag => false
  | .closeQueue => false
  | .mainBeginShutdown => decide (p.phase = .joined)
  | _ => true

/-- A step of the process. -/
def processStep (cfg : Config) (p : Process) : ProcessLabel → Option Process
  | .signal => some { p with signalled := true }
  | .listenerCheck =>
    if p.listener = .checking then
      some { p with listener := if p.signalled then .exited else .polling }
    else none
  | .listenerTimeout =>
    if p.listener = .polling then some { p with listener := .checking } else none
  | .listenerEvent =>
    match p.tasks with
    | e :: rest =>
      if p.listener = .polling then
        (step cfg p.sys (.submit (.stageEvent (TaskEvent.stageEvent e)))).map fun sys =>
          { p with
            sys
            tasks := rest
            listener := if p.sys.qClosed then .checking
              else .submitting p.sys.nextTicket }
      else none
    | [] => none
  | .listenerBreak => if p.listener = .polling then some { p with listener := .exited } else none
  | .listenerReturn =>
    match p.listener with
    | .submitting ticket =>
      (step cfg p.sys (.submitReturn ticket)).map fun sys => { p with sys, listener := .checking }
    | _ => none
  | .join =>
    if p.phase = .serving ∧ p.signalled = true ∧ p.listener = .exited then
      some { p with phase := .joined }
    else none
  | .submitTeardown =>
    if p.phase = .joined ∧ p.sys.main = .opsWaited ∧ p.sys.qClosed = false then
      (step cfg p.sys (.submit .teardown)).map fun sys =>
        { p with sys, phase := .tearing p.sys.nextTicket }
    else none
  | .teardownReturn =>
    match p.phase with
    | .tearing ticket =>
      (step cfg p.sys (.submitReturn ticket)).map fun sys => { p with sys, phase := .tornDown }
    | _ => none
  | .controller l =>
    if p.allows l then
      (step cfg p.sys l).map fun sys => { p with sys, tasks := p.tasks ++ emitted p.sys l }
    else none

/-- The machine of the process. It starts with a configuration of `run`. -/
def process (cfg : Config) : Machine Process ProcessLabel where
  initial p := ∃ singleStage timeout size,
    controllerNew (runConfig singleStage timeout size) = .ok (cfg, p.sys.core) ∧
      p = Process.start p.sys.core
  step := processStep cfg

/-! ## What a step of the process can do -/

variable {cfg : Config} {p p' : Process}

/-- The steps of the process, one case for each way a step can go. -/
inductive ProcessStep (cfg : Config) (p : Process) : ProcessLabel → Process → Prop where
  | signalled : ProcessStep cfg p .signal { p with signalled := true }
  | leaves (at_ : p.listener = .checking) (set : p.signalled = true) :
      ProcessStep cfg p .listenerCheck { p with listener := .exited }
  | polls (at_ : p.listener = .checking) (clear : p.signalled = false) :
      ProcessStep cfg p .listenerCheck { p with listener := .polling }
  | timedOut (at_ : p.listener = .polling) :
      ProcessStep cfg p .listenerTimeout { p with listener := .checking }
  | delivers (e : TaskEvent) (rest : List TaskEvent) (sys : Sys) (tasks : p.tasks = e :: rest)
      (at_ : p.listener = .polling)
      (step : step cfg p.sys (.submit (.stageEvent (TaskEvent.stageEvent e))) = some sys) :
      ProcessStep cfg p .listenerEvent { p with
        sys
        tasks := rest
        listener := if p.sys.qClosed then .checking else .submitting p.sys.nextTicket }
  | breaks (at_ : p.listener = .polling) :
      ProcessStep cfg p .listenerBreak { p with listener := .exited }
  | delivered (ticket : ℕ) (sys : Sys) (at_ : p.listener = .submitting ticket)
      (step : step cfg p.sys (.submitReturn ticket) = some sys) :
      ProcessStep cfg p .listenerReturn { p with sys, listener := .checking }
  | joins (at_ : p.phase = .serving) (set : p.signalled = true) (left : p.listener = .exited) :
      ProcessStep cfg p .join { p with phase := .joined }
  | tears (sys : Sys) (at_ : p.phase = .joined) (waited : p.sys.main = .opsWaited)
      (isOpen : p.sys.qClosed = false) (step : step cfg p.sys (.submit .teardown) = some sys) :
      ProcessStep cfg p .submitTeardown { p with sys, phase := .tearing p.sys.nextTicket }
  | torn (ticket : ℕ) (sys : Sys) (at_ : p.phase = .tearing ticket)
      (step : step cfg p.sys (.submitReturn ticket) = some sys) :
      ProcessStep cfg p .teardownReturn { p with sys, phase := .tornDown }
  | controller (l : Label) (sys : Sys) (allowed : p.allows l = true)
      (step : step cfg p.sys l = some sys) :
      ProcessStep cfg p (.controller l) { p with sys, tasks := p.tasks ++ emitted p.sys l }

theorem processStep_cases {l : ProcessLabel} (h : processStep cfg p l = some p') :
    ProcessStep cfg p l p' := by
  cases l with
  | signal =>
    cases h
    exact .signalled
  | listenerCheck =>
    obtain ⟨at_, same⟩ := ite_none_right_eq_some.mp h
    cases same
    split_ifs with set
    · exact .leaves at_ set
    · exact .polls at_ (Bool.eq_false_iff.mpr set)
  | listenerTimeout =>
    simp only [processStep] at h
    split at h <;> cases h
    rename_i at_
    exact .timedOut at_
  | listenerEvent =>
    simp only [processStep] at h
    split at h
    · rename_i e rest tasks
      obtain ⟨at_, h⟩ := ite_none_right_eq_some.mp h
      obtain ⟨sys, inner, rfl⟩ := map_eq_some_iff.mp h
      exact .delivers e rest sys tasks at_ inner
    · cases h
  | listenerBreak =>
    simp only [processStep] at h
    split at h <;> cases h
    rename_i at_
    exact .breaks at_
  | listenerReturn =>
    simp only [processStep] at h
    split at h
    · rename_i ticket at_
      obtain ⟨sys, inner, rfl⟩ := map_eq_some_iff.mp h
      exact .delivered ticket sys at_ inner
    · cases h
  | join =>
    simp only [processStep] at h
    split at h <;> cases h
    rename_i ready
    exact .joins ready.1 ready.2.1 ready.2.2
  | submitTeardown =>
    obtain ⟨ready, h⟩ := ite_none_right_eq_some.mp h
    obtain ⟨sys, inner, rfl⟩ := map_eq_some_iff.mp h
    exact .tears sys ready.1 ready.2.1 ready.2.2 inner
  | teardownReturn =>
    simp only [processStep] at h
    split at h
    · rename_i ticket at_
      obtain ⟨sys, inner, rfl⟩ := map_eq_some_iff.mp h
      exact .torn ticket sys at_ inner
    · cases h
  | controller l =>
    obtain ⟨allowed, h⟩ := ite_none_right_eq_some.mp h
    obtain ⟨sys, inner, rfl⟩ := map_eq_some_iff.mp h
    exact .controller l sys allowed inner

/-- **The controller of a reachable process is reachable.** -/
theorem sys_reachable (reachable : (process cfg).Reachable p) : (system cfg).Reachable p.sys := by
  refine reachable.induct (P := fun p => (system cfg).Reachable p.sys) ?_ ?_
  · rintro p₀ ⟨singleStage, timeout, size, accepted, start⟩
    refine .initial ⟨_, accepted, ?_⟩
    rw [start]
    rfl
  intro a l b _ h before
  cases processStep_cases h with
  | delivers _ _ _ _ _ inner | delivered _ _ _ inner | tears _ _ _ _ inner | torn _ _ _ inner
  | controller _ _ _ inner =>
    obtain ⟨l, inner⟩ : ∃ l, step cfg a.sys l = some _ := ⟨_, inner⟩
    exact before.step inner
  | _ => exact before

/-- The configuration of a reachable process has all operations. -/
theorem ops_of_reachable (reachable : (process cfg).Reachable p) (st : StageName)
    (state : StageState) : cfg.stageOpFor st state = true := by
  obtain ⟨p₀, ⟨singleStage, timeout, size, accepted, -⟩, -⟩ := reachable
  have bounds : 0 < timeout ∧ size ≠ 0 := by
    unfold controllerNew at accepted
    split at accepted
    · cases accepted
    rename_i positive
    split at accepted
    · cases accepted
    · rename_i nonzero
      exact ⟨Int.not_le.mp positive, nonzero⟩
  obtain ⟨cfg', accepted', ops, -⟩ := controllerNew_run singleStage timeout size bounds.1 bounds.2
  rw [accepted', Except.ok.injEq, Prod.mk.injEq] at accepted
  rw [← accepted.1]
  exact ops st state

end Strimserver.Controller
