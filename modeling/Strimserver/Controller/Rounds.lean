import Strimserver.Controller.System
import Strimserver.Controller.RunConfig

/-!
# Rounds of fires

Runs of the program in which its first stage is fired any number of times: a
reconcile pass fires the stage, and a stage event that reports it stopped clears
its in-flight mark, so that the next pass fires it again. Each round bumps the
generation of the stage by one and leaves the other stages alone.
-/

namespace Strimserver.Controller

open Library

/-- The state of the program with the first stage fired `g` times, modulo
`2 ^ 64`, and its mark at `since`. -/
def loopCore (g : UInt64) (since : ℤ) : Core :=
  { runCore with stages := fun
    | .mediaMtx => ⟨⟨.running, .stopped⟩, since, g⟩
    | .normalize => ⟨⟨.stopped, .stopped⟩, 0, 0⟩
    | .scaleAndEgress => ⟨⟨.stopped, .stopped⟩, 0, 0⟩
    | .singleStageEgress => ⟨⟨.stopped, .stopped⟩, 0, 0⟩ }

theorem loopCore_setStage (g g' : UInt64) (since since' : ℤ) :
    (loopCore g since).setStage .mediaMtx ⟨⟨.running, .stopped⟩, since', g'⟩ =
      loopCore g' since' := by
  unfold loopCore Core.setStage
  congr 1
  funext st
  cases st <;> rfl

theorem loopCore_setStage_other (g : UInt64) (since : ℤ) {st : StageName} (other : st ≠ .mediaMtx) :
    (loopCore g since).setStage st ⟨⟨.stopped, .stopped⟩, 0, 0⟩ = loopCore g since := by
  unfold loopCore Core.setStage
  congr 1
  funext st'
  by_cases same : st' = st
  · subst same
    rw [Function.update_self]
    cases st' <;> first | rfl | exact absurd rfl other
  · rw [Function.update_of_ne same]

/-- The queue thread between two actions, the queue empty and open. -/
def loopSys (base : Sys) (g : UInt64) (since : ℤ) : Sys :=
  { base with
    core := loopCore g since
    queue := []
    qClosed := false
    reconcileQueued := false
    shuttingDown := false
    thread := .idle }

/-- The operation of the next fire. -/
def loopJob (timeout : ℤ) (g : UInt64) : Job where
  stage := .mediaMtx
  target := .running
  timeoutMs := timeout
  generation := g + 1
  deadlineMs := 1 + timeout

/-- What a fire leaves in the log. -/
def fireEvents (job : Job) : List Event :=
  [.converged .singleStageEgress, .converged .scaleAndEgress, .converged .normalize,
    .fired job 1, .clock 1, .reconcileStarted, .requested]

/-- The parts of the system that a fire changes besides the stage. -/
def afterFire (base : Sys) (job : Job) : Sys :=
  { base with
    opsWg := base.opsWg + 1
    pool := base.pool ++ [job]
    log := fireEvents job ++ base.log }

section Rounds

variable {cfg : Config}

/-- A reconcile pass that fires the first stage. -/
def firePass : List Label :=
  [.requestReconcile true, .dequeue, .dispatch, .examine 1, .fire 1 .launched,
    .examine 1, .examine 1, .examine 1, .passDone, .reply]

/-- What a stage event changes besides the stage. -/
def afterStageEvent (base : Sys) : Sys :=
  { base with
    nextTicket := base.nextTicket + 1
    replied := base.nextTicket :: base.replied
    log := .handled (some base.nextTicket) :: .stageHandled .mediaMtx :: base.log }

/-- A stage event that reports the first stage stopped clears its mark. -/
theorem leads_stageEvent (cfg : Config) (base : Sys) (g : UInt64) (since : ℤ) :
    (system cfg).Leads (loopSys base g since) (loopSys (afterStageEvent base) g 0) := by
  refine ⟨[.submit (.stageEvent ⟨0, 0⟩), .dequeue, .dispatch, .reply], ?_⟩
  have handle : handleStageEvent (loopCore g since) ⟨0, 0⟩ = (loopCore g 0, .ok ()) := by
    rw [← loopCore_setStage g g since 0]
    rfl
  simp only [Machine.exec_cons, Machine.exec_nil, system, step, loopSys, Sys.enqueueLocked,
    Sys.dispatch, Sys.handled, handle, Action.blocking, Option.bind_some, List.nil_append,
    Bool.false_eq_true, Bool.true_eq_false, ↓reduceIte, reduceCtorEq]
  rfl

variable (ops : ∀ st state, cfg.stageOpFor st state = true)

include ops

theorem exec_firePass (base : Sys) (g : UInt64) :
    (system cfg).exec (loopSys base g 0) firePass =
      some (loopSys (afterFire base (loopJob cfg.inflightTimeoutMs g)) (g + 1) 1) := by
  have examine : reconcileExamine cfg (loopCore g 0) .mediaMtx 1 =
      (loopCore g 0, some .running) := by
    simp [reconcileExamine, loopCore, ops]
  have fire : fireStage cfg (loopCore g 0) .mediaMtx .running 1 .launched =
      (loopCore (g + 1) 1, some (loopJob cfg.inflightTimeoutMs g)) := by
    simp only [fireStage]
    rw [← loopCore_setStage g (g + 1) 0 1]
    rfl
  have settled : ∀ st, st ≠ .mediaMtx → reconcileExamine cfg (loopCore (g + 1) 1) st 1 =
      (loopCore (g + 1) 1, none) := by
    intro st other
    have same := loopCore_setStage_other (g + 1) 1 other
    cases st with
    | mediaMtx => exact absurd rfl other
    | normalize | scaleAndEgress | singleStageEgress => exact congrArg (·, none) same
  simp only [firePass, Machine.exec_cons, Machine.exec_nil, system, step, loopSys,
    Sys.enqueueLocked, Sys.dispatch, StageName.all, Sys.examine, Sys.fire, examine, fire, settled,
    ne_eq, reduceCtorEq, not_false_eq_true, Option.bind_some, List.nil_append, Bool.false_eq_true,
    or_self, ↓reduceIte, Option.toList]
  rfl

/-- One reconcile pass fires the first stage. -/
theorem leads_fire (base : Sys) (g : UInt64) :
    (system cfg).Leads (loopSys base g 0)
      (loopSys (afterFire base (loopJob cfg.inflightTimeoutMs g)) (g + 1) 1) :=
  ⟨firePass, exec_firePass ops base g⟩

theorem leads_rounds (base : Sys) (g : UInt64) (n : ℕ) :
    ∃ base', (system cfg).Leads (loopSys base g 0) (loopSys base' (g + UInt64.ofNat n) 0) ∧
      base'.workers = base.workers ∧ base.log <:+ base'.log := by
  induction n with
  | zero => exact ⟨base, by simpa using Machine.Leads.refl _, rfl, List.suffix_refl _⟩
  | succ n ih =>
    obtain ⟨base₁, before, workers, older⟩ := ih
    have fire := leads_fire ops base₁ (g + UInt64.ofNat n)
    have clear := leads_stageEvent cfg
      (afterFire base₁ (loopJob cfg.inflightTimeoutMs (g + UInt64.ofNat n)))
      (g + UInt64.ofNat n + 1) 1
    refine ⟨afterStageEvent (afterFire base₁ (loopJob cfg.inflightTimeoutMs
      (g + UInt64.ofNat n))), ?_, workers, ?_⟩
    · have next : g + UInt64.ofNat (n + 1) = g + UInt64.ofNat n + 1 := by
        rw [UInt64.ofNat_add, UInt64.add_assoc]
        rfl
      rw [next]
      exact (before.trans fire).trans clear
    · exact older.trans (List.suffix_append (.handled _ :: .stageHandled _ :: fireEvents _) _)

variable {raw : ControllerConfig} (accepted : controllerNew raw = .ok (cfg, runCore))

include accepted

/-- The state of the program after the first fire. -/
theorem reachable_first_fire : (system cfg).Reachable
    (loopSys (afterFire (Sys.start runCore) (loopJob cfg.inflightTimeoutMs 0)) 1 1) := by
  refine ⟨Sys.start runCore, ⟨raw, accepted, rfl⟩, ?_⟩
  exact leads_fire ops (Sys.start runCore) 0

/-- The state of the program after a second fire, with a stage event between the two. -/
theorem reachable_second_fire : (system cfg).Reachable
    (loopSys (afterFire (afterStageEvent (afterFire (Sys.start runCore)
      (loopJob cfg.inflightTimeoutMs 0))) (loopJob cfg.inflightTimeoutMs 1)) 2 1) :=
  ((reachable_first_fire ops accepted).leads (leads_stageEvent cfg _ 1 1)).leads
    (leads_fire ops _ 1)

end Rounds

end Strimserver.Controller
