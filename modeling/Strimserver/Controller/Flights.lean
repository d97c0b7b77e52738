import Strimserver.Controller.Generations
import Strimserver.Controller.Queue
import Strimserver.Library.Trace

/-!
# In-flight periods

A fire sets the in-flight mark of its stage to the clock reading, and a
reconcile pass fires a stage only when the mark is zero or has timed out. This
module follows the mark of one stage through a run: what can release it, and
which fire a clear can release.

A failed operation puts a clear on the queue that carries the generation of its
own fire. The clear compares it with the generation of the stage, so a clear
that is dequeued after a later fire does nothing (`clears_own_fire`). As the
comparison is on 64-bit generations, this needs fewer than `2 ^ 64` bumps.

Hence two fires of a stage one after the other are at least the in-flight
timeout apart, or the mark was released between them for a reason that is in
the log (`clears_and_fires`).
-/

namespace Strimserver.Controller

open Library List

variable {cfg : Config} {s s' : Sys} {st : StageName}

/-! ## Clock readings -/

def Event.reading : Event → Option ℤ
  | .clock now => some now
  | _ => none

/-- The clock readings of a run, the newest first. -/
def readings (log : List Event) : List ℤ := log.filterMap Event.reading

/-- A clock whose readings are positive and nondecreasing. -/
structure ClockOk (log : List Event) : Prop where
  positive : ∀ now ∈ readings log, 0 < now
  nondecreasing : (readings log).Pairwise fun newer older => older ≤ newer

variable {now : ℤ}

theorem mem_readings {log : List Event} (mem : .clock now ∈ log) : now ∈ readings log :=
  mem_filterMap.mpr ⟨_, mem, rfl⟩

theorem ClockOk.of_append {e log : List Event} (clock : ClockOk (e ++ log)) : ClockOk log where
  positive now mem := clock.positive now (by
    rw [readings, filterMap_append]
    exact mem_append_right _ mem)
  nondecreasing := by
    have both := clock.nondecreasing
    rw [readings, filterMap_append, pairwise_append] at both
    exact both.2.1

/-! ## What a step does to the mark of a stage -/

def Sys.mark (s : Sys) (st : StageName) : ℤ := (s.core.stages st).inFlightSince

/-- The events other than a clear that release the mark of a stage: a handled
stage event, a pass that saw desired and actual equal, a refused submit, and the
teardown. -/
def Event.releases (st : StageName) : Event → Bool
  | .stageHandled other => decide (other = st)
  | .converged other => decide (other = st)
  | .submitFailed other => decide (other = st)
  | .stopReturned other => decide (other = st)
  | _ => false

/-- No event of the list is a fire of the stage. -/
def NoFire (st : StageName) (events : List Event) : Prop :=
  ∀ job now, .fired job now ∈ events → job.stage ≠ st

/-- A step keeps the mark of a stage, releases it, clears it for the current
generation, or fires the stage. -/
inductive FlightStep (st : StageName) (s s' : Sys) : Prop where
  | kept (events : List Event) (log : s'.log = events ++ s.log) (none : NoFire st events)
      (mark : s'.mark st = s.mark st)
  | released (events : List Event) (log : s'.log = events ++ s.log) (none : NoFire st events)
      (release : ∃ e ∈ events, e.releases st = true) (mark : s'.mark st = 0)
  | cleared (g : UInt64) (ticket : Option ℕ)
      (thread : s.thread = .dispatching ⟨.clearInflight st g, ticket⟩)
      (log : s'.log = [.handled ticket, .clearHandled st g] ++ s.log)
      (current : (s.core.stages st).opGeneration = g) (mark : s'.mark st = 0)
  | fired (job : Job) (now : ℤ) (rest : List StageName) (mine : job.stage = st)
      (thread : s.thread = .firing st job.target rest)
      (log : s'.log = .fired job now :: .clock now :: s.log) (mark : s'.mark st = now)

theorem NoFire.nil : NoFire st [] := fun _ _ h => absurd h not_mem_nil

variable {events : List Event}

theorem NoFire.of_quiet (quiet : Quiet events) : NoFire st events := by
  intro job now mem mine
  exact absurd (quiet _ mem st) (by simp [Event.bumps, mine])

/-- A step that leaves the core alone and records no bump. -/
theorem FlightStep.of_core (events : List Event) (log : s'.log = events ++ s.log)
    (quiet : Quiet events) (core : s'.core = s.core) : FlightStep st s s' :=
  .kept events log (.of_quiet quiet) (by rw [Sys.mark, Sys.mark, core])

variable {act : Action} {log log' : List Event} {ticket : Option ℕ} {now₁ now₂ : ℤ}

/-- A handler other than those of stage events and clears leaves the marks alone. -/
theorem FlightStep.of_handler {r : Core × Result} (at_ : s.thread = .dispatching ⟨act, ticket⟩)
    (handles : handler cfg s.core act = some (r, events)) :
    FlightStep st s (s.handled ticket r events) := by
  have none : NoFire st (.handled ticket :: events) := by
    intro job now mem
    rcases handler_events handles with rfl | ⟨_, rfl⟩ | ⟨_, _, rfl⟩ <;> simp at mem
  cases handlerMove handles with
  | plain other same => exact .kept _ rfl none (same st).1
  | staged e =>
    have mark := (handleStageEvent_flight s.core e st).2
    by_cases mine : StageName.ofCode e.stage = some st ∧ (StageState.ofCode e.state).isSome
    · rw [if_pos mine] at mark
      refine .released _ rfl none ⟨.stageHandled st, ?_, by simp [Event.releases]⟩ mark
      obtain ⟨name, valid⟩ := mine
      obtain ⟨state, valid⟩ := Option.isSome_iff_exists.mp valid
      simp [stageHandledEvents, name, valid]
    · rw [if_neg mine] at mark
      exact .kept _ rfl none mark
  | cleared other g =>
    have mark := (clearInflight_flight s.core other st g).2
    by_cases mine : st = other ∧ (s.core.stages other).opGeneration = g
    · obtain ⟨rfl, current⟩ := mine
      rw [if_pos ⟨rfl, current⟩] at mark
      exact .cleared g ticket at_ rfl current mark
    · rw [if_neg mine] at mark
      exact .kept _ rfl none mark

variable {l : Label}

/-- **What a step does to the mark of a stage.** -/
theorem flightStep_of_step (st : StageName) (h : step cfg s l = some s') : FlightStep st s s' := by
  -- The other threads do not write the state of the queue thread.
  have elsewhere (core : s'.core = s.core) : FlightStep st s s' := by
    cases genStep_of_step h with
    | quiet events log none => exact .of_core events log none core
    | fired job now log stamp gen =>
      have same := gen job.stage
      rw [core, if_pos rfl] at same
      exact absurd same (by simp)
    | bumped other log gen =>
      have same := gen other
      rw [core, if_pos rfl] at same
      exact absurd same (by simp)
  cases actor : l.actor with
  | submitter => exact elsewhere (step_submitter h actor).core
  | worker => exact elsewhere (step_worker h actor).core
  | queueThread =>
    cases loopMove_of_step h actor with
    | handled act ticket r events at_ handles => exact .of_handler at_ handles
    | spared other rest now =>
      have none : NoFire st (examineEvents s.core other now) :=
        .of_quiet (quiet_examineEvents s.core other now)
      have mark := (reconcileExamine_flight cfg s.core other st now).2
      by_cases converged : st = other ∧
          (s.core.stages other).status.desired = (s.core.stages other).status.actual
      · rw [if_pos converged] at mark
        obtain ⟨rfl, same⟩ := converged
        exact .released _ rfl none ⟨.converged st, by simp [examineEvents, same],
          by simp [Event.releases]⟩ mark
      · rw [if_neg converged] at mark
        exact .kept _ rfl none mark
    | chosen other target rest now =>
      exact .of_core _ rfl (quiet_examineEvents s.core other now) rfl
    | refused other target rest now =>
      have none : NoFire st [.submitFailed other, .clock now] := by simp [NoFire]
      by_cases same : st = other
      · subst same
        exact .released _ rfl none ⟨.submitFailed st, by simp, by simp [Event.releases]⟩
          (by simp [Sys.mark, fireStage])
      · exact .kept _ rfl none (by simp [Sys.mark, fireStage, Core.setStage_of_ne _ _ same])
    | launched other target rest now at_ =>
      by_cases same : st = other
      · subst same
        exact .fired (fireJob cfg s.core st target now) now rest rfl at_ rfl
          (by simp [Sys.mark, fireStage])
      refine .kept [.fired (fireJob cfg s.core other target now) now, .clock now] rfl ?_
        (by simp [Sys.mark, fireStage, Core.setStage_of_ne _ _ same])
      intro job now' mem
      simp only [mem_cons, Event.fired.injEq, reduceCtorEq, not_mem_nil, or_false] at mem
      rw [mem.1]
      exact fun eq => same eq.symm
    | stops ticket other =>
      refine .kept [_] rfl (by simp [NoFire]) ?_
      by_cases same : st = other
      · subst same
        simp [teardownBump, Sys.mark]
      · simp [teardownBump, Sys.mark, Core.setStage_of_ne _ _ same]
    | stopped ticket other =>
      by_cases same : st = other
      · subst same
        exact .released [.stopReturned st] rfl (by simp [NoFire])
          ⟨_, mem_singleton_self _, by simp [Event.releases]⟩
          (by simp [Sys.mark, teardownStopped])
      · exact .kept [.stopReturned other] rfl (by simp [NoFire])
          (by simp [Sys.mark, teardownStopped, Core.setStage_of_ne _ _ same])
    | tornDown | passSkipped | passStarted => exact .kept [_] rfl (by simp [NoFire]) rfl
    | _ => exact .kept [] rfl .nil rfl

theorem FlightStep.log_append (h : FlightStep st s s') : ∃ events, s'.log = events ++ s.log := by
  cases h with
  | kept events log | released events log => exact ⟨events, log⟩
  | cleared g ticket thread log => exact ⟨_, log⟩
  | fired job now rest mine thread log => exact ⟨[.fired job now, .clock now], log⟩

/-! ## Clears come from failed operations -/

/-- An operation of the stage with this generation failed. -/
def FailedOp (log : List Event) (st : StageName) (g : UInt64) : Prop :=
  ∃ job, job.stage = st ∧ job.generation = g ∧ .opReturned job false ∈ log

theorem FailedOp.mono {g : UInt64} (failed : FailedOp log st g) (more : log ⊆ log') :
    FailedOp log' st g := by
  obtain ⟨job, stage, generation, returned⟩ := failed
  exact ⟨job, stage, generation, more returned⟩

/-- An action that clears, clears for an operation that failed. -/
def ClearBacked (log : List Event) (act : Action) : Prop :=
  ∀ st g, act = .clearInflight st g → FailedOp log st g

/-- Every operation that returned was fired before. -/
def ReturnsFired (log : List Event) : Prop :=
  ∀ later job ok earlier, log = later ++ .opReturned job ok :: earlier → job ∈ firedJobs earlier

/-- Every clear, from the worker that is about to enqueue it to its handler,
belongs to an operation that was fired and then failed. -/
structure ClearInv (s : Sys) : Prop where
  returns : ReturnsFired s.log
  workers : ∀ w ∈ s.workers, w.phase = .failed ∨ w.phase = .clearing →
    .opReturned w.job false ∈ s.log
  queue : ∀ entry ∈ s.queue, ClearBacked s.log entry.act
  thread : ∀ entry, s.thread = .dispatching entry → ClearBacked s.log entry.act

theorem ClearBacked.mono (backed : ClearBacked log act) (more : log ⊆ log') :
    ClearBacked log' act :=
  fun st g clear => (backed st g clear).mono more

theorem ReturnsFired.append (before : ReturnsFired log)
    (none : ∀ job ok, .opReturned job ok ∉ events) : ReturnsFired (events ++ log) := by
  intro later job ok earlier split
  obtain ⟨later', -, older⟩ := Trace.split_past (none job ok) split
  exact before later' job ok earlier older

/-- A step that keeps the workers, records no return and enqueues no clear. -/
theorem ClearInv.of_frame (inv : ClearInv s) (events : List Event)
    (log : s'.log = events ++ s.log) (none : ∀ job ok, .opReturned job ok ∉ events)
    (workers : s'.workers = s.workers)
    (queue : ∀ entry ∈ s'.queue, entry ∈ s.queue ∨ ClearBacked s.log entry.act)
    (thread : ∀ entry, s'.thread = .dispatching entry →
      s.thread = .dispatching entry ∨ ClearBacked s.log entry.act) : ClearInv s' := by
  have more : s.log ⊆ s'.log := by
    rw [log]
    exact subset_append_right _ _
  refine ⟨?_, ?_, ?_, ?_⟩
  · rw [log]
    exact inv.returns.append none
  · intro w mem phase
    rw [workers] at mem
    exact more (inv.workers w mem phase)
  · intro entry mem
    rcases queue entry mem with old | backed
    · exact (inv.queue entry old).mono more
    · exact backed.mono more
  intro entry at_
  rcases thread entry at_ with old | backed
  · exact (inv.thread entry old).mono more
  · exact backed.mono more

/-- A worker step that records no return and keeps the queue. -/
theorem ClearInv.of_worker (inv : ClearInv s) (log : s'.log = s.log)
    (workers : ∀ w ∈ s'.workers, w.phase = .failed ∨ w.phase = .clearing →
      .opReturned w.job false ∈ s.log)
    (queue : ∀ entry ∈ s'.queue, entry ∈ s.queue ∨ ClearBacked s.log entry.act)
    (thread : s'.thread = s.thread) : ClearInv s' := by
  refine ⟨log ▸ inv.returns, log ▸ workers, ?_, ?_⟩
  · intro entry mem
    rw [log]
    rcases queue entry mem with old | backed
    · exact inv.queue entry old
    · exact backed
  · rw [log, thread]
    exact inv.thread

/-- The workers after one of them changed its phase. -/
theorem mem_setPhase {i : ℕ} {job : Job} {phase : Phase} {w : Worker}
    (mem : w ∈ (s.setPhase i job phase).workers) : w = ⟨job, phase⟩ ∨ w ∈ s.workers := by
  rcases mem_or_eq_of_mem_set mem with old | new
  · exact .inr old
  · exact .inl new

theorem ClearInv.worker_step (inv : ClearInv s) (gen : GenInv s) (h : step cfg s l = some s')
    (actor : l.actor = .worker) : ClearInv s' := by
  cases workerMove_of_step h actor with
  | started =>
    refine inv.of_worker rfl ?_ (fun _ mem => .inl mem) rfl
    intro w mem phase
    rcases mem_append.mp mem with old | new
    · exact inv.workers w old phase
    rw [mem_singleton] at new
    subst new
    rcases phase with failed | clearing
    · cases failed
    · cases clearing
  | returned i job ok at_ =>
    have mem : ⟨job, .running⟩ ∈ s.workers := mem_of_getElem? at_
    have launched : job ∈ firedJobs s.log := by
      refine gen.live.subset (mem_append_right _ ?_)
      exact mem_map_of_mem (f := Worker.job) mem
    refine ⟨?_, ?_, ?_, ?_⟩
    · intro later job' ok' earlier split
      rcases Trace.split_head split with ⟨-, same, rfl⟩ | ⟨later', -, older⟩
      · cases same
        exact launched
      · exact inv.returns later' job' ok' earlier older
    · intro w at_w phase
      rcases mem_setPhase at_w with rfl | old
      · cases ok with
        | true => rcases phase with failed | clearing <;> contradiction
        | false => exact mem_cons_self
      · exact mem_cons_of_mem _ (inv.workers w old phase)
    · intro entry queued
      exact (inv.queue entry queued).mono (subset_cons_self _ _)
    · intro entry dispatching
      exact (inv.thread entry dispatching).mono (subset_cons_self _ _)
  | passed l i job before after at_ kind =>
    refine inv.of_worker rfl ?_ (fun _ mem => .inl mem) rfl
    intro w mem phase
    rcases mem_setPhase mem with rfl | old
    · rcases kind with rfl | ⟨rfl, -⟩
      · rcases phase with failed | clearing <;> contradiction
      · exact inv.workers ⟨job, .failed⟩ (mem_of_getElem? at_) (.inl rfl)
    · exact inv.workers w old phase
  | cleared i job at_ =>
    have failed := inv.workers ⟨job, .clearing⟩ (mem_of_getElem? at_) (.inr rfl)
    refine inv.of_worker rfl ?_ ?_ rfl
    · intro w mem phase
      rcases mem_setPhase mem with rfl | old
      · rcases phase with failed | clearing <;> contradiction
      · exact inv.workers w old phase
    intro entry mem
    rcases mem_append.mp mem with old | new
    · exact .inl old
    rw [mem_singleton] at new
    subst new
    refine .inr ?_
    rintro st g ⟨⟩
    exact ⟨job, rfl, rfl, failed⟩
  | done =>
    refine inv.of_worker rfl ?_ (fun _ mem => .inl mem) rfl
    intro w mem phase
    exact inv.workers w (mem_of_mem_eraseIdx mem) phase

/-- The queue thread records no return, adds nothing to the queue, and
dispatches only what it took from it. -/
theorem ClearInv.loop_step (inv : ClearInv s) (workers : s'.workers = s.workers)
    (h : LoopStep s s') : ClearInv s' := by
  cases h with
  | dequeued entry rest at_ queue =>
    refine inv.of_frame [] rfl (by simp) workers ?_ ?_
    · intro entry' mem
      exact .inl (queue ▸ mem_cons_of_mem _ mem)
    · rintro entry' ⟨⟩
      exact .inr (inv.queue entry (queue ▸ mem_cons_self))
  | left | replied => exact inv.of_frame [] rfl (by simp) workers (fun _ mem => .inl mem) nofun
  | inner events _ inner =>
    refine inv.of_frame events inner.log (fun _ _ mem => Bool.noConfusion (inner.quiet _ mem))
      workers ?_ ?_
    · intro entry mem
      exact .inl (inner.queue ▸ mem)
    · intro entry at_
      exact absurd at_ (inner.dispatched entry)

theorem ClearInv.step (inv : ClearInv s) (gen : GenInv s) (h : step cfg s l = some s') :
    ClearInv s' := by
  cases actor : l.actor with
  | submitter =>
    have frame := step_submitter h actor
    obtain ⟨events, log, calls⟩ := frame.calls
    refine inv.of_frame events log (fun _ _ mem => Bool.noConfusion (calls _ mem))
      frame.workers ?_ ?_
    · intro entry mem
      rcases frame.queue with same | ⟨new, more, kind⟩
      · exact .inl (same ▸ mem)
      rw [more] at mem
      rcases mem_append.mp mem with old | last
      · exact .inl old
      rw [mem_singleton] at last
      subst last
      refine .inr fun st g clear => ?_
      rw [clear] at kind
      rcases kind with blocking | reconcile
      · cases blocking
      · cases reconcile
    · intro entry at_
      exact .inl (frame.thread ▸ at_)
  | queueThread => exact inv.loop_step (step_queueThread h actor).workers (loopStep_of_step h actor)
  | worker => exact inv.worker_step gen h actor

theorem clearInv_of_reachable (reachable : (system cfg).Reachable s) : ClearInv s := by
  refine reachable.induct ?_ ?_
  · rintro s₀ ⟨raw, -, start⟩
    rw [start]
    refine ⟨?_, nofun, nofun, nofun⟩
    intro later job ok earlier split
    cases later <;> cases split
  · intro a l b before h inv
    exact inv.step (genInv_of_reachable before) h

/-! ## A stage that is about to be fired -/

/-- A stage is about to be fired only when its mark is zero or timed out at a
reading of the clock. -/
def FiringDue (cfg : Config) (s : Sys) : Prop :=
  ∀ st target rest, s.thread = .firing st target rest → s.mark st = 0 ∨
    ∃ now, .clock now ∈ s.log ∧ cfg.inflightTimeoutMs ≤ now - s.mark st

/-- Only the decision of the reconcile loop leads to a fire section. -/
theorem firing_of_step {target : StageState} {rest : List StageName} (h : step cfg s l = some s')
    (at_ : s'.thread = .firing st target rest) :
    s'.core = s.core ∧ (s.thread = .firing st target rest ∨
      ∃ now, reconcileExamine cfg s.core st now = (s.core, some target) ∧
        s'.log = examineEvents s.core st now ++ s.log) := by
  cases actor : l.actor with
  | submitter =>
    have frame := step_submitter h actor
    exact ⟨frame.core, .inl (frame.thread ▸ at_)⟩
  | worker =>
    have frame := step_worker h actor
    exact ⟨frame.core, .inl (frame.thread ▸ at_)⟩
  | queueThread =>
    cases loopMove_of_step h actor with
    | chosen st' target' rest' now before decided =>
      cases at_
      exact ⟨rfl, .inr ⟨now, decided, rfl⟩⟩
    | _ => cases at_

theorem firingDue_of_reachable (reachable : (system cfg).Reachable s) : FiringDue cfg s := by
  refine reachable.induct ?_ ?_
  · rintro s₀ ⟨raw, -, start⟩ st target rest at_
    rw [start] at at_
    cases at_
  intro a l b _ h due st target rest at_
  obtain ⟨core, before | ⟨now, decided, log⟩⟩ := firing_of_step h at_
  · obtain ⟨events, log⟩ := (flightStep_of_step st h).log_append
    rw [Sys.mark, core, log]
    rcases due st target rest before with zero | ⟨now, read, timedOut⟩
    · exact .inl zero
    · exact .inr ⟨now, mem_append_right _ read, timedOut⟩
  obtain ⟨-, apart, due⟩ := reconcileExamine_some cfg decided
  rw [Sys.mark, core, log]
  by_cases zero : a.mark st = 0
  · exact .inl zero
  -- A mark that is set is compared with a reading of the clock.
  refine .inr ⟨now, mem_append_left _ ?_, due.resolve_left zero⟩
  have reads : readsClock a.core st = true := by simpa [readsClock] using ⟨apart, zero⟩
  simp [examineEvents, apart, reads]

/-! ## The mark and the last fire -/

/-- Why the mark of a fire is gone, in the events after it: an event that releases any mark of the
stage, or the clear of that very fire after its operation failed. -/
def Released (st : StageName) (f : Job) (after : List Event) : Prop :=
  (∃ e ∈ after, e.releases st = true) ∨
    (.clearHandled st f.generation ∈ after ∧ .opReturned f false ∈ after)

variable {f : Job}

theorem Released.mono {after after' : List Event} (released : Released st f after)
    (more : after ⊆ after') : Released st f after' := by
  rcases released with ⟨e, mem, releases⟩ | ⟨cleared, failed⟩
  · exact .inl ⟨e, more mem, releases⟩
  · exact .inr ⟨more cleared, more failed⟩

/-- The mark is the reading of the last fire of the stage, or it is zero and was
released. -/
structure MarkInv (st : StageName) (s : Sys) : Prop where
  never : NoFire st s.log → s.mark st = 0
  last : ∀ after f now earlier, s.log = after ++ .fired f now :: earlier → f.stage = st →
    NoFire st after → s.mark st = now ∨ (s.mark st = 0 ∧ Released st f after)
  read : ∀ f now, .fired f now ∈ s.log → f.stage = st → .clock now ∈ s.log

variable {after earlier : List Event}

/-- Below the wrap, an operation that carries the generation of its stage is the
last one that was fired. -/
theorem GenInv.current_is_last (gen : GenInv s) (few : bumps st s.log < 2 ^ 64) {job : Job}
    (split : s.log = after ++ .fired f now :: earlier) (mine : f.stage = st)
    (none : NoFire st after) (launched : job ∈ firedJobs s.log) (stage : job.stage = st)
    (current : (s.core.stages st).opGeneration = job.generation) :
    job = f ∧ job ∉ firedJobs earlier := by
  have older : bumps st earlier < bumps st s.log := by
    rw [split, bumps_append, bumps_cons]
    simp only [Event.bumps, mine, decide_true, ↓reduceIte]
    omega
  have absent : job ∉ firedJobs earlier := by
    intro mem
    have stamped : Stamped earlier := by
      have all := gen.stamped
      rw [split] at all
      exact (Stamped.of_append all).2
    have bound := (stamped.generation_le (by omega) mem stage).2
    rw [← current, gen.gen, UInt64.toNat_ofNat_of_lt' (by simpa using few)] at bound
    omega
  refine ⟨?_, absent⟩
  rw [split, firedJobs_append, firedJobs_fired, mem_append, mem_cons] at launched
  rcases launched with late | same | early
  · obtain ⟨e, mem, fired⟩ := mem_filterMap.mp late
    cases e with
    | fired job' now' =>
      cases fired
      exact absurd stage (none job now' mem)
    | _ => cases fired
  · exact same
  · exact absurd early absent

/-- The clear that wipes the mark is the one of the last fire. -/
theorem ClearInv.released_of_current (inv : ClearInv s) (gen : GenInv s)
    (few : bumps st s.log < 2 ^ 64) {g : UInt64}
    (thread : s.thread = .dispatching ⟨.clearInflight st g, ticket⟩)
    (current : (s.core.stages st).opGeneration = g)
    (split : s.log = after ++ .fired f now :: earlier) (mine : f.stage = st)
    (none : NoFire st after) : f.generation = g ∧ .opReturned f false ∈ after := by
  obtain ⟨job, stage, generation, returned⟩ := inv.thread _ thread st g rfl
  obtain ⟨later, before, at_⟩ := append_of_mem returned
  have fired_before := inv.returns later job false before at_
  have launched : job ∈ firedJobs s.log := by
    rw [at_, firedJobs_append]
    exact mem_append_right _ fired_before
  obtain ⟨rfl, absent⟩ :=
    gen.current_is_last few split mine none launched stage (current.trans generation.symm)
  refine ⟨generation, ?_⟩
  -- The return is not older than the fire, as an operation returns after its fire.
  rw [split, mem_append, mem_cons] at returned
  rcases returned with late | same | early
  · exact late
  · cases same
  obtain ⟨later', before', at_'⟩ := append_of_mem early
  have again := inv.returns (after ++ .fired job now :: later') job false before' (by
    rw [split, at_']
    simp)
  refine absurd ?_ absent
  rw [at_', firedJobs_append]
  exact mem_append_right _ again

/-- Events without a fire of the stage keep the invariant, when the mark is kept
or released by them. -/
theorem MarkInv.of_noFire (mark : MarkInv st s) (log : s'.log = events ++ s.log)
    (none : NoFire st events)
    (change : s'.mark st = s.mark st ∨ (s'.mark st = 0 ∧ ∀ after f now earlier,
      s.log = after ++ .fired f now :: earlier → f.stage = st → NoFire st after →
      Released st f (events ++ after))) :
    MarkInv st s' := by
  refine ⟨?_, ?_, ?_⟩
  · intro never
    rcases change with kept | ⟨zero, -⟩
    · rw [kept]
      refine mark.never fun job now mem => never job now ?_
      rw [log]
      exact mem_append_right _ mem
    · exact zero
  · intro after f now earlier split mine noFire
    rw [log] at split
    obtain ⟨after', rfl, older⟩ := Trace.split_past (fun mem => none f now mem mine) split
    have noFire' : NoFire st after' := fun job now' mem => noFire job now' (mem_append_right _ mem)
    rcases change with kept | ⟨zero, released⟩
    · rw [kept]
      rcases mark.last after' f now earlier older mine noFire' with set | ⟨zero, released⟩
      · exact .inl set
      · exact .inr ⟨zero, released.mono (subset_append_right _ _)⟩
    · exact .inr ⟨zero, released after' f now earlier older mine noFire'⟩
  intro f now mem mine
  rw [log] at mem ⊢
  rcases mem_append.mp mem with new | old
  · exact absurd mine (none f now new)
  · exact mem_append_right _ (mark.read f now old mine)

theorem MarkInv.step (mark : MarkInv st s) (clears : ClearInv s) (gen : GenInv s)
    (few : bumps st s.log < 2 ^ 64) (h : FlightStep st s s') : MarkInv st s' := by
  cases h with
  | kept events log none kept => exact mark.of_noFire log none (.inl kept)
  | released events log none release zero =>
    refine mark.of_noFire log none (.inr ⟨zero, ?_⟩)
    intro after f now earlier _ _ _
    obtain ⟨e, mem, releases⟩ := release
    exact .inl ⟨e, mem_append_left _ mem, releases⟩
  | cleared g ticket thread log current zero =>
    refine mark.of_noFire log (by intro job now mem; simp at mem) (.inr ⟨zero, ?_⟩)
    intro after f now earlier split mine none
    obtain ⟨rfl, failed⟩ := clears.released_of_current gen few thread current split mine none
    exact .inr ⟨by simp, mem_append_right _ failed⟩
  | fired job now rest mine thread log set =>
    refine ⟨?_, ?_, ?_⟩
    · intro never
      exact absurd mine (never job now (by simp [log]))
    · intro after f now' earlier split _ none
      rw [log] at split
      rcases Trace.split_head split with ⟨-, same, -⟩ | ⟨after', rfl, -⟩
      · cases same
        exact .inl set
      · exact absurd mine (none job now mem_cons_self)
    intro f now' mem mine'
    rw [log] at mem ⊢
    simp only [mem_cons, reduceCtorEq, false_or] at mem ⊢
    rcases mem with same | old
    · cases same
      exact .inl rfl
    · exact .inr (mark.read f now' old mine')

theorem markInv_of_reachable (reachable : (system cfg).Reachable s)
    (few : bumps st s.log < 2 ^ 64) : MarkInv st s := by
  revert few
  refine reachable.induct (P := fun s => bumps st s.log < 2 ^ 64 → MarkInv st s) ?_ ?_
  · rintro s₀ ⟨raw, accepted, start⟩ -
    have fresh := controllerNew_fresh accepted
    rw [start]
    refine ⟨fun _ => fresh.inFlight st, ?_, nofun⟩
    intro after f now earlier split
    cases after <;> cases split
  intro a l b before h inv few
  have flight := flightStep_of_step st h
  obtain ⟨events, log⟩ := flight.log_append
  have few' : bumps st a.log < 2 ^ 64 := by
    rw [log, bumps_append] at few
    omega
  exact (inv few').step (clearInv_of_reachable before) (genInv_of_reachable before) few' flight

/-! ## The main result -/

/-- Why two consecutive fires of a stage are in order, by the events between them: a handled stage
event, the clear of the first after its operation failed, a pass that saw desired and actual equal,
a refused submit, a teardown, or the in-flight timeout. -/
def Apart (cfg : Config) (st : StageName) (f₁ : Job) (now₁ now₂ : ℤ) (between : List Event) :
    Prop :=
  .stageHandled st ∈ between ∨
    (.clearHandled st f₁.generation ∈ between ∧ .opReturned f₁ false ∈ between) ∨
    .converged st ∈ between ∨ .submitFailed st ∈ between ∨ .stopReturned st ∈ between ∨
    cfg.inflightTimeoutMs ≤ now₂ - now₁

theorem Apart.mono {f₁ : Job} {between between' : List Event}
    (apart : Apart cfg st f₁ now₁ now₂ between) (more : between ⊆ between') :
    Apart cfg st f₁ now₁ now₂ between' := by
  rcases apart with handled | ⟨cleared, failed⟩ | converged | refused | stopped | timedOut
  · exact .inl (more handled)
  · exact .inr (.inl ⟨more cleared, more failed⟩)
  · exact .inr (.inr (.inl (more converged)))
  · exact .inr (.inr (.inr (.inl (more refused))))
  · exact .inr (.inr (.inr (.inr (.inl (more stopped)))))
  · exact .inr (.inr (.inr (.inr (.inr timedOut))))

/-- Any two consecutive fires of the stage are in order. -/
def Spaced (cfg : Config) (st : StageName) (log : List Event) : Prop :=
  ∀ later f₂ now₂ between f₁ now₁ earlier,
    log = later ++ .fired f₂ now₂ :: (between ++ .fired f₁ now₁ :: earlier) →
    f₁.stage = st → f₂.stage = st → NoFire st between → Apart cfg st f₁ now₁ now₂ between

/-- Running the dequeued clear of a fire changes the mark of the stage only when
no fire of the stage came after that fire. -/
def ClearsOwnFire (cfg : Config) (st : StageName) (s : Sys) : Prop :=
  ∀ g ticket s', s.thread = .dispatching ⟨.clearInflight st g, ticket⟩ →
    step cfg s .dispatch = some s' →
    (s'.core.stages st).inFlightSince ≠ (s.core.stages st).inFlightSince →
    ∀ later f now earlier, s.log = later ++ .fired f now :: earlier → f.stage = st →
      f.generation = g → NoFire st later

theorem Released.apart {between : List Event} (released : Released st f between) :
    Apart cfg st f now₁ now₂ between := by
  rcases released with ⟨e, mem, releases⟩ | cleared
  · cases e with
    | stageHandled other =>
      obtain rfl : other = st := by simpa [Event.releases] using releases
      exact .inl mem
    | converged other =>
      obtain rfl : other = st := by simpa [Event.releases] using releases
      exact .inr (.inr (.inl mem))
    | submitFailed other =>
      obtain rfl : other = st := by simpa [Event.releases] using releases
      exact .inr (.inr (.inr (.inl mem)))
    | stopReturned other =>
      obtain rfl : other = st := by simpa [Event.releases] using releases
      exact .inr (.inr (.inr (.inr (.inl mem))))
    | _ => cases releases
  · exact .inr (.inl cleared)

theorem Spaced.step (spaced : Spaced cfg st s.log) (mark : MarkInv st s) (due : FiringDue cfg s)
    (clock : ClockOk s'.log) (h : FlightStep st s s') : Spaced cfg st s'.log := by
  have old : ∀ {events : List Event}, NoFire st events → Spaced cfg st (events ++ s.log) := by
    intro events none later f₂ now₂ between f₁ now₁ earlier split mine₁ mine₂
    obtain ⟨later', -, older⟩ := Trace.split_past (fun mem => none f₂ now₂ mem mine₂) split
    exact spaced later' f₂ now₂ between f₁ now₁ earlier older mine₁ mine₂
  cases h with
  | kept _ log none | released _ log none => exact log ▸ old none
  | cleared g ticket _ log => exact log ▸ old (by intro job now mem; simp at mem)
  | fired job now rest mine thread log _ =>
    rw [log] at clock ⊢
    intro later f₂ now₂ between f₁ now₁ earlier split mine₁ mine₂ none
    have clock' : ClockOk (.clock now :: s.log) := ClockOk.of_append (e := [.fired job now]) clock
    rcases Trace.split_head split with ⟨-, same, older⟩ | ⟨later', -, older⟩
    · -- The newest fire: the one before it is the last fire of the older log.
      cases same
      rcases Trace.split_head older.symm with ⟨-, differ, -⟩ | ⟨between', rfl, older'⟩
      · cases differ
      refine Apart.mono ?_ (subset_cons_self (.clock now) between')
      have none' : NoFire st between' := fun job' now' mem => none job' now' (mem_cons_of_mem _ mem)
      rcases mark.last between' f₁ now₁ earlier older' mine₁ none' with set | ⟨-, released⟩
      · have read : .clock now₁ ∈ s.log := mark.read f₁ now₁ (by simp [older']) mine₁
        have positive := clock'.positive now₁ (mem_readings (mem_cons_of_mem _ read))
        rcases due st job.target _ thread with zero | ⟨now', read', timedOut⟩
        · omega
        have later : now' ≤ now := rel_of_pairwise_cons clock'.nondecreasing (mem_readings read')
        refine .inr (.inr (.inr (.inr (.inr ?_))))
        omega
      · exact released.apart
    · rcases Trace.split_head older with ⟨-, differ, -⟩ | ⟨later'', -, older'⟩
      · cases differ
      · exact spaced later'' f₂ now₂ between f₁ now₁ earlier older' mine₁ mine₂ none

theorem spaced_of_reachable (reachable : (system cfg).Reachable s)
    (few : bumps st s.log < 2 ^ 64) (clock : ClockOk s.log) : Spaced cfg st s.log := by
  revert few clock
  refine reachable.induct
    (P := fun s => bumps st s.log < 2 ^ 64 → ClockOk s.log → Spaced cfg st s.log) ?_ ?_
  · rintro s₀ ⟨raw, -, start⟩ - - later f₂ now₂ between f₁ now₁ earlier split
    rw [start] at split
    cases later <;> cases split
  intro a l b before h spaced few clock
  have flight := flightStep_of_step st h
  obtain ⟨events, log⟩ := flight.log_append
  have few' : bumps st a.log < 2 ^ 64 := by
    rw [log, bumps_append] at few
    omega
  have clock' : ClockOk a.log := (log ▸ clock).of_append
  exact (spaced few' clock').step (markInv_of_reachable before few')
    (firingDue_of_reachable before) clock flight

theorem clearsOwnFire_of_reachable (reachable : (system cfg).Reachable s)
    (few : bumps st s.log < 2 ^ 64) : ClearsOwnFire cfg st s := by
  intro g ticket s' thread h changed later f now earlier split mine generation
  have gen := genInv_of_reachable reachable
  obtain rfl : s' = s.dispatch cfg ⟨.clearInflight st g, ticket⟩ := by
    simp only [step, thread] at h
    exact (Option.some.inj h).symm
  -- The handler changed the mark, so the clear carries the current generation.
  have flight := (clearInflight_flight s.core st st g).2
  have current : (s.core.stages st).opGeneration = g := by
    by_contra stale
    rw [if_neg (fun both => stale both.2)] at flight
    exact changed flight
  have stamped : Stamped (.fired f now :: earlier) := Stamped.of_append (split ▸ gen.stamped)
  have count : bumps st s.log = bumps st later + (bumps st earlier + 1) := by
    rw [split, bumps_append, bumps_cons]
    simp [Event.bumps, mine]
  have same : bumps st s.log = bumps st earlier + 1 := by
    have eq := congrArg UInt64.toNat ((gen.gen st).symm.trans (current.trans generation.symm))
    have older : bumps st earlier + 1 < 2 ^ 64 := by omega
    rw [stamped.1, mine, UInt64.toNat_ofNat_of_lt' (by simpa using few),
      UInt64.toNat_ofNat_of_lt' (by simpa using older)] at eq
    exact eq
  have zero : bumps st later = 0 := by omega
  intro job now' mem mine'
  exact absurd (countP_eq_zero.mp zero _ mem) (by simp [Event.bumps, mine'])

/-- **Clears and fires below the wrap.** In every reachable state in which a stage was bumped fewer
than `2 ^ 64` times, a clear wipes the mark of the stage only if no fire came after its own; and
when the readings of the clock are positive and nondecreasing, consecutive fires of the stage are in
order. -/
theorem clears_and_fires (reachable : (system cfg).Reachable s) (st : StageName)
    (few : bumps st s.log < 2 ^ 64) :
    ClearsOwnFire cfg st s ∧ (ClockOk s.log → Spaced cfg st s.log) :=
  ⟨clearsOwnFire_of_reachable reachable few, spaced_of_reachable reachable few⟩

/-- A run of the program in which the first stage was fired twice, with the clear
of its first operation still to come. -/
theorem clears_and_fires_two_fires :
    ∃ cfg s, (system cfg).Reachable s ∧ bumps .mediaMtx s.log < 2 ^ 64 ∧ ClockOk s.log ∧
      (firedJobs s.log).length = 2 ∧ ClearsOwnFire cfg .mediaMtx s ∧
      (ClockOk s.log → Spaced cfg .mediaMtx s.log) := by
  obtain ⟨cfg, accepted, ops, -⟩ := controllerNew_run false 1000 16 (by decide) (by decide)
  have reachable := reachable_second_fire ops accepted
  have few : 2 < 2 ^ 64 := by decide
  have clock : ClockOk (fireEvents (loopJob cfg.inflightTimeoutMs 1) ++
      (afterStageEvent (afterFire (Sys.start runCore)
        (loopJob cfg.inflightTimeoutMs 0))).log) :=
    ⟨show ∀ now ∈ ([1, 1] : List ℤ), 0 < now by decide,
      show ([1, 1] : List ℤ).Pairwise fun newer older => older ≤ newer by decide⟩
  exact ⟨cfg, _, reachable, few, clock, rfl, clears_and_fires reachable .mediaMtx few⟩

/-- The failed operation of the first fire has passed its check whether it is
superseded. -/
def afterFailure (base : Sys) (job : Job) : Sys :=
  { base with
    pool := []
    workers := [⟨job, .clearing⟩]
    log := .opReturned job false :: base.log }

/-- **A clear can meet its own generation again.** After `2 ^ 64` fires the clear of the first
carries the generation of the stage and wipes the mark of the last. -/
theorem stale_clear_wraps :
    ¬ ∀ (cfg : Config) (s : Sys), (system cfg).Reachable s → ∀ st : StageName,
      ClearsOwnFire cfg st s ∧ (ClockOk s.log → Spaced cfg st s.log) := by
  intro claim
  obtain ⟨cfg, accepted, ops, -⟩ := controllerNew_run false 1000 16 (by decide) (by decide)
  let job := loopJob cfg.inflightTimeoutMs 0
  let failed := afterFailure (afterFire (Sys.start runCore) job) job
  have first := reachable_first_fire ops accepted
  have fails : (system cfg).Leads (loopSys (afterFire (Sys.start runCore) job) 1 1)
      (loopSys failed 1 1) :=
    ⟨[.workerStart, .opReturn 0 false, .checkSuperseded 0], rfl⟩
  have clear := leads_stageEvent cfg failed 1 1
  obtain ⟨base, rounds, workers, older⟩ := leads_rounds ops (afterStageEvent failed) 1 (2 ^ 64 - 1)
  have again := leads_fire ops base 0
  let newest := loopJob cfg.inflightTimeoutMs 0
  let s : Sys := { loopSys (afterFire base newest) 1 1 with
    workers := base.workers.set 0 ⟨job, .finishing⟩
    thread := .dispatching ⟨.clearInflight .mediaMtx 1, none⟩ }
  have enqueue : (system cfg).Leads (loopSys (afterFire base newest) 1 1) s := by
    refine ⟨[.enqueueClear 0 true, .dequeue], ?_⟩
    have at_ : (loopSys (afterFire base newest) 1 1).workers = [⟨job, .clearing⟩] := workers
    simp only [Machine.exec_cons, Machine.exec_nil, system, step, at_]
    rfl
  have reachable : (system cfg).Reachable s :=
    first.leads ((fails.trans clear).trans ((rounds.trans again).trans enqueue))
  obtain ⟨between, log⟩ := older
  have noFire := (claim cfg s reachable .mediaMtx).1 1 none _ rfl rfl
    (show (0 : ℤ) ≠ 1 by decide)
    (fireEvents newest ++ (between ++ [.handled (some 0), .stageHandled .mediaMtx,
      .opReturned job false, .converged .singleStageEgress, .converged .scaleAndEgress,
      .converged .normalize]))
    job 1 [.clock 1, .reconcileStarted, .requested] (by
      show fireEvents newest ++ base.log = _
      rw [← log]
      simp only [append_assoc]
      rfl) rfl rfl
  exact absurd rfl (noFire newest 1 (mem_append_left _ (by simp [fireEvents])))

end Strimserver.Controller
