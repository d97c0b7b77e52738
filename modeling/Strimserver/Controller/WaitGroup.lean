import Strimserver.Controller.Generations

/-!
# Draining the operations at shutdown

The fire section checks the shutdown flag, adds to the wait group and submits
the job under the queue lock, and `begin_shutdown` sets the flag under the same
lock. So the count of the wait group is the number of operations that are queued
in the pool or running and not past `wg_done`, no operation is added once the
flag is set, and when `wait_for_ops` has returned there is none and there will
be none (`ops_drained`).
-/

namespace Strimserver.Controller

open Library List

variable {cfg : Config} {s s' t : Sys}

/-! ## The count of the wait group -/

/-- The count of the wait group is the number of live operations. -/
def WaitGroupExact (s : Sys) : Prop := s.opsWg = s.liveJobs.length

theorem WaitGroupExact.of_frame (exact_ : WaitGroupExact s) (opsWg : s'.opsWg = s.opsWg)
    (live : s'.liveJobs.length = s.liveJobs.length) : WaitGroupExact s' := by
  unfold WaitGroupExact at exact_ ⊢
  rw [opsWg, live, exact_]

variable {l : Label}

theorem WaitGroupExact.worker_step (exact_ : WaitGroupExact s) (h : step cfg s l = some s')
    (actor : l.actor = .worker) : WaitGroupExact s' := by
  have phased {i : ℕ} {job : Job} {before : Phase} (at_ : s.workers[i]? = some ⟨job, before⟩)
      (phase : Phase) : (s.setPhase i job phase).liveJobs.length = s.liveJobs.length := by
    rw [Sys.setPhase_liveJobs at_]
  cases workerMove_of_step h actor with
  | started job rest pool =>
    refine exact_.of_frame rfl ?_
    simp only [Sys.liveJobs, pool, length_append, length_map, length_cons, length_nil]
    omega
  | returned i job ok at_ => exact exact_.of_frame rfl (phased at_ _)
  | passed l i job before after at_ => exact exact_.of_frame rfl (phased at_ after)
  | cleared i job at_ => exact exact_.of_frame rfl (phased at_ .finishing)
  | done i job at_ =>
    -- The worker is one of the counted ones, so the count is not zero here.
    have inside : i < s.workers.length := (List.getElem?_eq_some_iff.mp at_).1
    unfold WaitGroupExact at exact_ ⊢
    simp only [Sys.liveJobs, length_append, length_map, length_eraseIdx_of_lt inside] at exact_ ⊢
    unfold Controller.wgDone
    split <;> omega

/-- **The wait group counts the live operations.** -/
theorem waitGroupExact_of_reachable (reachable : (system cfg).Reachable s) : WaitGroupExact s := by
  refine reachable.induct ?_ ?_
  · rintro s₀ ⟨raw, -, start⟩
    rw [start]
    exact rfl
  intro a l b _ h exact_
  cases actor : l.actor with
  | submitter =>
    have frame := step_submitter h actor
    refine exact_.of_frame frame.opsWg ?_
    rw [Sys.liveJobs, Sys.liveJobs, frame.pool, frame.workers]
  | queueThread =>
    cases loopMove_of_step h actor with
    | launched st target rest now at_ allowed =>
      unfold WaitGroupExact at exact_ ⊢
      simp only [Sys.liveJobs, length_append, length_singleton] at exact_ ⊢
      omega
    | _ => exact exact_.of_frame rfl rfl
  | worker => exact exact_.worker_step h actor

/-! ## After the shutdown flag is set -/

/-- Whatever happens from this state on, no operation is launched and none is
added to the live ones. -/
def NoneAdded (cfg : Config) (s : Sys) : Prop :=
  ∀ t, (system cfg).Leads s t →
    firedJobs t.log = firedJobs s.log ∧ t.liveJobs.Subperm s.liveJobs

theorem shuttingDown_of_step (h : step cfg s l = some s') (down : s.shuttingDown = true) :
    s'.shuttingDown = true := by
  cases actor : l.actor with
  | submitter => exact (step_submitter h actor).shuttingDown down
  | queueThread =>
    rw [(step_queueThread h actor).shuttingDown]
    exact down
  | worker =>
    rw [(step_worker h actor).shuttingDown]
    exact down

/-- A step under the flag launches nothing. -/
theorem step_adds_none (h : step cfg s l = some s') (down : s.shuttingDown = true) :
    firedJobs s'.log = firedJobs s.log ∧ s'.liveJobs.Subperm s.liveJobs := by
  cases genStep_of_step h with
  | quiet events log none gen live =>
    rw [log, firedJobs_append, none.firedJobs]
    exact ⟨rfl, live⟩
  | fired job now log stamp gen live allowed =>
    rw [allowed] at down
    cases down
  | bumped other log gen live =>
    rw [log, live]
    exact ⟨rfl, List.Subperm.refl _⟩

theorem noneAdded_of_shuttingDown (down : s.shuttingDown = true) : NoneAdded cfg s := by
  intro t leads
  have both := leads.induct
    (P := fun t => t.shuttingDown = true ∧ firedJobs t.log = firedJobs s.log ∧
      t.liveJobs.Subperm s.liveJobs)
    ⟨down, rfl, List.Subperm.refl _⟩ fun a l b h ⟨down, jobs, live⟩ => by
      obtain ⟨jobs', live'⟩ := step_adds_none h down
      exact ⟨shuttingDown_of_step h down, jobs'.trans jobs, live'.trans live⟩
  exact both.2

/-! ## The main thread -/

/-- Where the main thread is and what it has seen: the flag is set once it has called
`begin_shutdown`, and no operation is live once `wait_for_ops` has returned. -/
structure MainInv (s : Sys) : Prop where
  begun : s.main ≠ .running → s.shuttingDown = true
  waited : s.main = .opsWaited → s.liveJobs = []

theorem MainInv.step (inv : MainInv s) (exact_ : WaitGroupExact s) (h : step cfg s l = some s') :
    MainInv s' := by
  have frame (main : s'.main = s.main) : MainInv s' := by
    refine ⟨fun past => shuttingDown_of_step h (inv.begun (main ▸ past)), fun past => ?_⟩
    rw [main] at past
    have less := (step_adds_none h (inv.begun (by rw [past]; decide))).2
    rw [inv.waited past] at less
    exact subperm_nil.mp less
  cases actor : l.actor with
  | submitter =>
    cases submitterStep_of_step h actor with
    | mainFlagged => exact ⟨fun _ => rfl, nofun⟩
    | mainWaited at_ drained =>
      refine ⟨fun _ => inv.begun (by rw [at_]; decide), fun _ => ?_⟩
      exact eq_nil_of_length_eq_zero (exact_.symm.trans drained)
    | _ => exact frame rfl
  | queueThread => exact frame (step_queueThread h actor).main
  | worker => exact frame (step_worker h actor).main

theorem mainInv_of_reachable (reachable : (system cfg).Reachable s) : MainInv s := by
  refine reachable.induct ?_ ?_
  · rintro s₀ ⟨raw, -, start⟩
    rw [start]
    exact ⟨fun past => absurd rfl past, nofun⟩
  · intro a l b before h inv
    exact inv.step (waitGroupExact_of_reachable before) h

/-- **The operations are drained at shutdown.** In every reachable state the count of the wait group
is the number of operations that are queued in the pool or not past `wg_done`; after
`begin_shutdown` no operation is ever added; and once the main thread is past `wait_for_ops` none is
live and none is ever launched. -/
theorem ops_drained (reachable : (system cfg).Reachable s) :
    WaitGroupExact s ∧
      (∀ l s', l = .beginShutdown ∨ l = .mainBeginShutdown → step cfg s l = some s' →
        NoneAdded cfg s') ∧
      (s.main = .opsWaited → s.liveJobs = [] ∧ NoneAdded cfg s) := by
  have main := mainInv_of_reachable reachable
  refine ⟨waitGroupExact_of_reachable reachable, ?_, ?_⟩
  · rintro l s' (rfl | rfl) h
    · cases h
      exact noneAdded_of_shuttingDown rfl
    simp only [step] at h
    split at h <;> cases h
    exact noneAdded_of_shuttingDown rfl
  · intro past
    exact ⟨main.waited past, noneAdded_of_shuttingDown (main.begun (by rw [past]; decide))⟩

/-- A shutdown of the program that begins while its first operation runs. -/
theorem ops_drained_first_op :
    ∃ cfg s, (system cfg).Reachable s ∧ s.main = .opsWaited ∧ firedJobs s.log ≠ [] ∧
      WaitGroupExact s ∧
      (∀ l s', l = .beginShutdown ∨ l = .mainBeginShutdown → step cfg s l = some s' →
        NoneAdded cfg s') ∧
      (s.main = .opsWaited → s.liveJobs = [] ∧ NoneAdded cfg s) := by
  obtain ⟨cfg, accepted, ops, -⟩ := controllerNew_run false 1000 16 (by decide) (by decide)
  obtain ⟨s, run, past, launched⟩ : ∃ s, (system cfg).exec
      (loopSys (afterFire (Sys.start runCore) (loopJob cfg.inflightTimeoutMs 0)) 1 1)
      [.workerStart, .mainBeginShutdown, .opReturn 0 true, .wgDone 0, .mainWaitReturn] = some s ∧
      s.main = .opsWaited ∧ firedJobs s.log ≠ [] := ⟨_, rfl, rfl, cons_ne_nil _ _⟩
  have reachable := (reachable_first_fire ops accepted).leads ⟨_, run⟩
  exact ⟨cfg, s, reachable, past, launched, ops_drained reachable⟩

end Strimserver.Controller
