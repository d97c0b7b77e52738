import Strimserver.Controller.Rounds
import Strimserver.Controller.Steps
import Mathlib.Data.List.Perm.Subperm
import Mathlib.Algebra.Group.Nat.Defs

/-!
# Fire generations

A stage's generation is bumped by every fire and by the teardown before it stops
the stage, and a fire whose submit fails takes its bump back in the same section.
So the generation is the number of bumps in the log, modulo `2 ^ 64`, and a
launched operation carries the number of bumps at its fire.

As long as a stage has been bumped fewer than `2 ^ 64` times, this makes the
generations of its operations strictly increasing: they are pairwise distinct,
none is above the current generation, and at most one operation that is queued
or running is not superseded (`generations_distinct`). After `2 ^ 64` bumps the
counter is back at its first values, and all three fail.
-/

namespace Strimserver.Controller

open Library List

variable {cfg : Config} {s s' : Sys}

/-! ## Bumps and launched operations in the log -/

def Event.bumps (st : StageName) : Event → Bool
  | .fired job _ => decide (job.stage = st)
  | .stopInvoked other => decide (other = st)
  | _ => false

/-- How often the generation of a stage was bumped for good. -/
def bumps (st : StageName) (log : List Event) : ℕ := log.countP (Event.bumps st)

def Event.firedJob : Event → Option Job
  | .fired job _ => some job
  | _ => none

/-- All operations ever launched, the newest first. -/
def firedJobs (log : List Event) : List Job := log.filterMap Event.firedJob

theorem bumps_cons (st : StageName) (e : Event) (log : List Event) :
    bumps st (e :: log) = bumps st log + if e.bumps st then 1 else 0 := by
  simp [bumps, countP_cons]

theorem bumps_append (st : StageName) (first second : List Event) :
    bumps st (first ++ second) = bumps st first + bumps st second :=
  countP_append

@[simp] theorem firedJobs_append (first second : List Event) :
    firedJobs (first ++ second) = firedJobs first ++ firedJobs second :=
  filterMap_append

@[simp] theorem firedJobs_fired (job : Job) (now : ℤ) (log : List Event) :
    firedJobs (.fired job now :: log) = job :: firedJobs log := rfl

/-- Events that bump no stage. -/
def Quiet (events : List Event) : Prop := ∀ e ∈ events, ∀ st, e.bumps st = false

theorem Quiet.nil : Quiet [] := fun _ h => absurd h not_mem_nil

variable {events : List Event}

theorem Quiet.bumps (quiet : Quiet events) (st : StageName) : bumps st events = 0 :=
  countP_eq_zero.mpr fun e mem => by simp [quiet e mem st]

theorem Quiet.firedJobs (quiet : Quiet events) : firedJobs events = [] := by
  refine filterMap_eq_nil_iff.mpr fun e mem => ?_
  cases e with
  | fired job => exact absurd (quiet _ mem job.stage) (by simp [Event.bumps])
  | _ => rfl

/-! ## What a step does to the generations -/

/-- The live jobs do not see the phase of their worker. -/
theorem Sys.setPhase_liveJobs {i : ℕ} {job : Job} {before phase : Phase}
    (at_ : s.workers[i]? = some ⟨job, before⟩) :
    (s.setPhase i job phase).liveJobs = s.liveJobs := by
  have same : (s.workers.set i ⟨job, phase⟩).map Worker.job = s.workers.map Worker.job := by
    rw [map_set]
    refine ext_getElem? fun k => ?_
    rw [List.getElem?_set]
    split
    · rename_i eq
      subst eq
      split_ifs with outside
      · simp [at_]
      rw [length_map] at outside
      rw [List.getElem?_eq_none (by simpa using outside)]
    · rfl
  simp [Sys.liveJobs, Sys.setPhase, same]

/-- A step bumps no generation, launches an operation with a new generation, or
is the bump of the teardown. -/
inductive GenStep (s s' : Sys) : Prop where
  | quiet (events : List Event) (log : s'.log = events ++ s.log) (none : Quiet events)
      (gen : ∀ st, (s'.core.stages st).opGeneration = (s.core.stages st).opGeneration)
      (live : s'.liveJobs.Subperm s.liveJobs)
  | fired (job : Job) (now : ℤ) (log : s'.log = .fired job now :: .clock now :: s.log)
      (stamp : job.generation = (s.core.stages job.stage).opGeneration + 1)
      (gen : ∀ st, (s'.core.stages st).opGeneration =
        if st = job.stage then (s.core.stages st).opGeneration + 1
        else (s.core.stages st).opGeneration)
      (live : s'.liveJobs.Perm (job :: s.liveJobs))
      (allowed : s.shuttingDown = false)
  | bumped (other : StageName) (log : s'.log = .stopInvoked other :: s.log)
      (gen : ∀ st, (s'.core.stages st).opGeneration =
        if st = other then (s.core.stages st).opGeneration + 1
        else (s.core.stages st).opGeneration)
      (live : s'.liveJobs = s.liveJobs)

/-- A step that leaves the core and the live jobs alone and records no bump. -/
theorem GenStep.of_frame (events : List Event) (log : s'.log = events ++ s.log)
    (none : Quiet events) (core : s'.core = s.core) (pool : s'.pool = s.pool)
    (workers : s'.workers = s.workers) : GenStep s s' :=
  .quiet events log none (fun st => by rw [core])
    (by rw [Sys.liveJobs, Sys.liveJobs, pool, workers])

theorem quiet_examineEvents (c : Core) (st : StageName) (now : ℤ) :
    Quiet (examineEvents c st now) := by
  unfold Quiet examineEvents
  split
  · simp [Event.bumps]
  · split <;> simp [Event.bumps]

/-- **What a step does to the generations.** -/
theorem genStep_of_step {l : Label} (h : step cfg s l = some s') : GenStep s s' := by
  cases actor : l.actor with
  | submitter =>
    have frame := step_submitter h actor
    obtain ⟨events, log, calls⟩ := frame.calls
    refine .of_frame events log (fun e mem st => ?_) frame.core frame.pool frame.workers
    have call := calls e mem
    cases e <;> first | rfl | cases call
  | queueThread =>
    cases loopMove_of_step h actor with
    | handled act ticket r events at_ handles =>
      refine .quiet (.handled ticket :: events) rfl ?_ (fun st => ?_) (List.Subperm.refl _)
      · unfold Quiet
        rcases handler_events handles with rfl | ⟨st, rfl⟩ | ⟨st, g, rfl⟩ <;> simp [Event.bumps]
      cases handlerMove handles with
      | plain other same => exact (same st).2.1
      | staged e => exact (handleStageEvent_flight s.core e st).1
      | cleared other g => exact (clearInflight_flight s.core other st g).1
    | spared st rest now =>
      exact .quiet _ rfl (quiet_examineEvents s.core st now)
        (fun other => (reconcileExamine_flight cfg s.core st other now).1) (List.Subperm.refl _)
    | chosen st target rest now =>
      exact .of_frame _ rfl (quiet_examineEvents s.core st now) rfl rfl rfl
    | refused st =>
      -- The decrement of the failed submit undoes the bump, also at the wrap.
      refine .quiet [_, _] rfl (by simp [Quiet, Event.bumps]) (fun other => ?_)
        (List.Subperm.refl _)
      by_cases same : other = st
      · subst same
        simp [fireStage]
      · simp [fireStage, Core.setStage_of_ne _ _ same]
    | launched st target rest now at_ allowed =>
      refine .fired (fireJob cfg s.core st target now) now rfl rfl (fun other => ?_) ?_ allowed
      · by_cases same : other = st
        · subst same
          simp [fireStage, fireJob]
        · simp [fireStage, fireJob, same, Core.setStage_of_ne _ _ same]
      · simp only [Sys.liveJobs, append_assoc, singleton_append]
        exact perm_middle
    | stops ticket st =>
      refine .bumped st rfl (fun other => ?_) rfl
      by_cases same : other = st
      · subst same
        simp [teardownBump]
      · simp [teardownBump, same, Core.setStage_of_ne _ _ same]
    | stopped ticket st =>
      refine .quiet [_] rfl (by simp [Quiet, Event.bumps]) (fun other => ?_) (List.Subperm.refl _)
      by_cases same : other = st
      · subst same
        simp [teardownStopped]
      · rw [teardownStopped, Core.setStage_of_ne _ _ same]
    | tornDown =>
      exact .quiet [_] rfl (by simp [Quiet, Event.bumps]) (fun _ => rfl) (List.Subperm.refl _)
    | passSkipped | passStarted =>
      exact .of_frame [_] rfl (by simp [Quiet, Event.bumps]) rfl rfl rfl
    | _ => exact .of_frame [] rfl .nil rfl rfl rfl
  | worker =>
    have phased {i : ℕ} {job : Job} {before : Phase} (at_ : s.workers[i]? = some ⟨job, before⟩)
        (phase : Phase) : (s.setPhase i job phase).liveJobs.Subperm s.liveJobs := by
      rw [Sys.setPhase_liveJobs at_]
    cases workerMove_of_step h actor with
    | started job rest pool =>
      refine .quiet [] rfl .nil (fun _ => rfl) (List.Perm.subperm ?_)
      simp only [Sys.liveJobs, pool, map_append, map_singleton, cons_append]
      rw [← append_assoc]
      exact (perm_append_singleton job _)
    | returned i job ok at_ =>
      exact .quiet [.opReturned job ok] rfl (by simp [Quiet, Event.bumps]) (fun _ => rfl)
        (phased at_ _)
    | passed l i job before after at_ => exact .quiet [] rfl .nil (fun _ => rfl) (phased at_ after)
    | cleared i job at_ => exact .quiet [] rfl .nil (fun _ => rfl) (phased at_ .finishing)
    | done =>
      refine .quiet [] rfl .nil (fun _ => rfl) (List.Sublist.subperm ?_)
      exact ((eraseIdx_sublist _ _).map _).append_left _

/-! ## The generation is the number of bumps -/

/-- Every launched operation carries the number of bumps of its stage at its
fire. -/
def Stamped : List Event → Prop
  | [] => True
  | .fired job _ :: log => job.generation = UInt64.ofNat (bumps job.stage log + 1) ∧ Stamped log
  | _ :: log => Stamped log

variable {log : List Event}

theorem Stamped.of_append {first second : List Event} (stamped : Stamped (first ++ second)) :
    Stamped second := by
  induction first with
  | nil => exact stamped
  | cons e first ih =>
    refine ih ?_
    cases e with
    | fired => exact stamped.2
    | _ => exact stamped

/-- The invariant behind the generations. -/
structure GenInv (s : Sys) : Prop where
  gen : ∀ st, (s.core.stages st).opGeneration = UInt64.ofNat (bumps st s.log)
  stamped : Stamped s.log
  live : s.liveJobs.Subperm (firedJobs s.log)

theorem GenInv.start {c : Core} (fresh : Fresh c) : GenInv (Sys.start c) where
  gen st := fresh.generation st
  stamped := trivial
  live := List.Subperm.refl _

theorem GenInv.step (inv : GenInv s) (h : GenStep s s') : GenInv s' := by
  cases h with
  | quiet events log none gen live =>
    refine ⟨fun st => ?_, ?_, ?_⟩
    · rw [gen, inv.gen, log, bumps_append, none.bumps, Nat.zero_add]
    · rw [log]
      clear log
      induction events with
      | nil => exact inv.stamped
      | cons e events ih =>
        have rest := ih fun e' mem => none e' (mem_cons_of_mem e mem)
        cases e with
        | fired job => exact absurd (none _ mem_cons_self job.stage) (by simp [Event.bumps])
        | _ => exact rest
    · rw [log, firedJobs_append, none.firedJobs, nil_append]
      exact live.trans inv.live
  | fired job now log stamp gen live =>
    refine ⟨fun st => ?_, ?_, ?_⟩
    · rw [gen, log, bumps_cons, bumps_cons, inv.gen]
      by_cases same : st = job.stage
      · subst same
        simp [Event.bumps, UInt64.ofNat_add]
      · have ne : job.stage ≠ st := fun eq => same eq.symm
        simp [Event.bumps, same, ne]
    · rw [log]
      refine ⟨?_, inv.stamped⟩
      rw [stamp, inv.gen, bumps_cons]
      simp [Event.bumps, UInt64.ofNat_add]
    · rw [log]
      exact live.subperm.trans (subperm_cons job |>.mpr inv.live)
  | bumped other log gen live =>
    refine ⟨fun st => ?_, ?_, ?_⟩
    · rw [gen, log, bumps_cons, inv.gen]
      by_cases same : st = other
      · subst same
        simp [Event.bumps, UInt64.ofNat_add]
      · have ne : other ≠ st := fun eq => same eq.symm
        simp [Event.bumps, same, ne]
    · rw [log]
      exact inv.stamped
    · rw [log, live]
      exact inv.live

theorem genInv_of_reachable (reachable : (system cfg).Reachable s) : GenInv s := by
  refine reachable.induct ?_ ?_
  · rintro s₀ ⟨raw, accepted, start⟩
    rw [start]
    exact .start (controllerNew_fresh accepted)
  · intro a l b _ h inv
    exact inv.step (genStep_of_step h)

/-! ## Generations below the wrap -/

/-- A launched operation carries a positive generation that is at most the
number of bumps. -/
theorem Stamped.generation_le {st : StageName} (stamped : Stamped log) (few : bumps st log < 2 ^ 64)
    {job : Job} (launched : job ∈ firedJobs log) (mine : job.stage = st) :
    0 < job.generation.toNat ∧ job.generation.toNat ≤ bumps st log := by
  induction log with
  | nil => cases launched
  | cons e log ih =>
    rw [bumps_cons] at few ⊢
    cases e with
    | fired other now =>
      rw [firedJobs_fired] at launched
      rcases mem_cons.mp launched with rfl | earlier
      · have bump : Event.bumps st (.fired job now) = true := by simp [Event.bumps, mine]
        rw [bump, if_pos rfl] at few ⊢
        rw [stamped.1, mine, UInt64.toNat_ofNat_of_lt' (by simpa using few)]
        omega
      · have := ih stamped.2 (by omega) earlier
        omega
    | _ =>
      have := ih stamped (by omega) launched
      omega

/-- The launched operations of a stage, in the order of their fires, carry
increasing generations. -/
theorem Stamped.increasing {st : StageName} (stamped : Stamped log) (few : bumps st log < 2 ^ 64) :
    ((firedJobs log).filter fun job => decide (job.stage = st)).Pairwise fun newer older =>
      older.generation.toNat < newer.generation.toNat := by
  induction log with
  | nil => exact List.Pairwise.nil
  | cons e log ih =>
    rw [bumps_cons] at few
    cases e with
    | fired job now =>
      rw [firedJobs_fired]
      by_cases mine : job.stage = st
      · have bump : Event.bumps st (.fired job now) = true := by simp [Event.bumps, mine]
        rw [bump, if_pos rfl] at few
        rw [filter_cons_of_pos (by simpa using mine)]
        refine List.Pairwise.cons ?_ (ih stamped.2 (by omega))
        intro older mem
        rw [mem_filter] at mem
        have older_few : bumps st log < 2 ^ 64 := by omega
        have bound := stamped.2.generation_le older_few mem.1 (by simpa using mem.2)
        rw [stamped.1, mine, UInt64.toNat_ofNat_of_lt' (by simpa using few)]
        omega
      · rw [filter_cons_of_neg (by simpa using mine)]
        exact ih stamped.2 (by omega)
    | _ => exact ih stamped (by omega)

/-- In a list of pairwise distinct generations, at most one entry has a given
generation. -/
theorem countP_generation_le_one {jobs : List Job} (g : UInt64)
    (distinct : jobs.Pairwise fun a b => a.generation ≠ b.generation) :
    jobs.countP (fun job => decide (job.generation = g)) ≤ 1 := by
  induction jobs with
  | nil => exact Nat.zero_le _
  | cons job jobs ih =>
    rw [pairwise_cons] at distinct
    by_cases hit : job.generation = g
    · have none : jobs.countP (fun other => decide (other.generation = g)) = 0 := by
        refine countP_eq_zero.mpr fun other mem => ?_
        have apart := distinct.1 other mem
        rw [hit] at apart
        simpa using apart.symm
      apply Nat.le_of_eq
      rw [countP_cons_of_pos (by simpa using hit), none]
    · rw [countP_cons_of_neg (by simpa using hit)]
      exact ih distinct.2

/-- The operations of a stage that were launched carry pairwise distinct
generations. -/
def DistinctGenerations (st : StageName) (s : Sys) : Prop :=
  ((firedJobs s.log).filter fun job => decide (job.stage = st)).Pairwise fun a b =>
    a.generation ≠ b.generation

/-- No launched operation of a stage is ahead of the stage's generation. -/
def GenerationsBounded (st : StageName) (s : Sys) : Prop :=
  ∀ job ∈ firedJobs s.log, job.stage = st → job.generation ≤ (s.core.stages st).opGeneration

/-- At most one operation of a stage that is queued or running is not
superseded. -/
def OneCurrent (st : StageName) (s : Sys) : Prop :=
  (s.liveJobs.countP fun job => decide (job.stage = st ∧
    job.generation = (s.core.stages st).opGeneration)) ≤ 1

/-- **Generations are distinct below the wrap.** In every reachable state in which a stage was
bumped fewer than `2 ^ 64` times, all operations launched for it carry distinct generations, none
above its own, and at most one that is queued or running carries that. -/
theorem generations_distinct (reachable : (system cfg).Reachable s) (st : StageName)
    (few : bumps st s.log < 2 ^ 64) :
    DistinctGenerations st s ∧ GenerationsBounded st s ∧ OneCurrent st s := by
  have inv := genInv_of_reachable reachable
  have distinct : DistinctGenerations st s :=
    (inv.stamped.increasing few).imp fun lt same => by
      rw [same] at lt
      exact Nat.lt_irrefl _ lt
  refine ⟨distinct, ?_, ?_⟩
  · intro job launched mine
    have bound := inv.stamped.generation_le few launched mine
    rw [inv.gen, UInt64.le_iff_toNat_le, UInt64.toNat_ofNat_of_lt' (by simpa using few)]
    exact bound.2
  -- Live operations are launched ones, so the count is bounded by theirs.
  have below := inv.live.countP_le fun job => decide (job.stage = st ∧
    job.generation = (s.core.stages st).opGeneration)
  refine Nat.le_trans below ?_
  have split : (fun job : Job => decide (job.stage = st ∧
      job.generation = (s.core.stages st).opGeneration)) = fun job =>
        decide (job.generation = (s.core.stages st).opGeneration) && decide (job.stage = st) := by
    funext job
    rw [Bool.decide_and, Bool.and_comm]
  rw [split, ← countP_filter]
  exact countP_generation_le_one _ distinct

/-- The generations after two fires of a stage. -/
theorem generations_distinct_two_fires :
    ∃ cfg s, (system cfg).Reachable s ∧ bumps .mediaMtx s.log < 2 ^ 64 ∧
      (firedJobs s.log).length = 2 ∧ DistinctGenerations .mediaMtx s ∧
      GenerationsBounded .mediaMtx s ∧ OneCurrent .mediaMtx s := by
  obtain ⟨cfg, accepted, ops, -⟩ := controllerNew_run false 1000 16 (by decide) (by decide)
  have reachable := reachable_second_fire ops accepted
  have few : 2 < 2 ^ 64 := by decide
  exact ⟨cfg, _, reachable, few, rfl, generations_distinct reachable .mediaMtx few⟩

/-- **The generation wraps.** The operations of a stage do not carry distinct generations, none
above that of the stage, in every reachable state: after `2 ^ 64` fires the generation is zero and
the first operation carries one. -/
theorem generations_wrap :
    ¬ ∀ (cfg : Config) (s : Sys), (system cfg).Reachable s → ∀ st : StageName,
      DistinctGenerations st s ∧ GenerationsBounded st s ∧ OneCurrent st s := by
  intro claim
  obtain ⟨cfg, accepted, ops, -⟩ := controllerNew_run false 1000 16 (by decide) (by decide)
  have first := reachable_first_fire ops accepted
  have clear := leads_stageEvent cfg
    (afterFire (Sys.start runCore) (loopJob cfg.inflightTimeoutMs 0)) 1 1
  obtain ⟨base, rounds, -, older⟩ := leads_rounds ops
    (afterStageEvent (afterFire (Sys.start runCore) (loopJob cfg.inflightTimeoutMs 0)))
    1 (2 ^ 64 - 1)
  have reachable : (system cfg).Reachable (loopSys base 0 0) := first.leads (clear.trans rounds)
  have launched : loopJob cfg.inflightTimeoutMs 0 ∈ firedJobs base.log :=
    (older.filterMap _).subset mem_cons_self
  have bounded : (1 : UInt64) ≤ 0 := (claim cfg _ reachable .mediaMtx).2.1 _ launched rfl
  exact absurd bounded (by decide)

end Strimserver.Controller
