import Strimserver.Oracle.System

/-!
# Who resets the mark of a stage

The closure of an operation that has failed resets the mark of its stage, whether the mark is its
own or that of a later fire. So an operation that fails after its retry was fired makes room for a
third one beside the retry.

`flights_exclusive` says that this is all: as long as no operation fails behind a later fire of its
stage, and no stage is fired while the closure of an operation of it is under way, a
closure resets the mark of the most recent fire, and at most one operation of a stage is in flight
that is neither excused nor older than the timeout. A clock that reads the zero time would leave no
mark, so the clock has to be past it.
-/

namespace Strimserver.Oracle

open Library List Option

/-! ## Marks -/

def mark (c : Controller) (name : String) : Option Time := (c.stages name).map Stage.inFlightSince

/-- The marks and the timeout are the same, but for the mark of one stage at most. -/
structure SameMarks (c c' : Controller) (but : Option String) : Prop where
  timeout : c'.inflightTimeout = c.inflightTimeout
  marks : ∀ name, but ≠ some name → mark c' name = mark c name

section

variable {c : Controller}

theorem SameMarks.refl (c : Controller) (but : Option String) : SameMarks c c but :=
  ⟨rfl, fun _ _ => rfl⟩

theorem sameMarks_setStage_but (c : Controller) (name : String) (stage : Stage) :
    SameMarks c (c.setStage name stage) (some name) := by
  refine ⟨rfl, fun other ne => ?_⟩
  have different : other ≠ name := fun same => ne (congrArg some same.symm)
  simp [mark, Controller.setStage, Function.update_of_ne different]

theorem sameMarks_applyDesiredStageTarget (c : Controller) (target : StageTarget) :
    SameMarks c (applyDesiredStageTarget c target).1 none := by
  unfold applyDesiredStageTarget
  cases found : c.stages target.stage with
  | none => exact .refl c none
  | some stage =>
    dsimp only
    split_ifs
    · exact .refl c none
    cases target.prerequisite.bind fun p => p (handleStatus c) with
    | some => exact .refl c none
    | none =>
      refine ⟨rfl, fun other _ => ?_⟩
      by_cases same : other = target.stage
      · subst same
        simp [mark, Controller.setStage, notifyListeners, found]
      · simp [mark, Controller.setStage, notifyListeners, Function.update_of_ne same]

theorem sameMarks_handleControl (c : Controller) (component action : String) :
    SameMarks c (handleControl c component action).1 none := by
  unfold handleControl
  cases c.commandRoutes (component, action) with
  | none => exact .refl c none
  | some target => exact sameMarks_applyDesiredStageTarget c target

theorem sameMarks_handlePathEvent (c : Controller) (path status : String) :
    SameMarks c (handlePathEvent c path status).1 none := by
  unfold handlePathEvent
  cases c.paths path with
  | none => exact .refl c none
  | some =>
    dsimp only
    split_ifs
    · exact .refl c none
    cases c.pathEventRoutes (path, status) with
    | none => exact ⟨rfl, fun _ _ => rfl⟩
    | some target =>
      have kept := sameMarks_applyDesiredStageTarget
        { c with paths := Function.update c.paths path (some status) } target
      exact ⟨kept.timeout, kept.marks⟩

theorem sameMarks_teardownStage (c : Controller) (name : String) :
    SameMarks c (teardownStage c name)
      (if (teardownStage c name).converged name then some name else none) := by
  unfold teardownStage
  cases found : c.stages name with
  | none => exact .refl c _
  | some stage =>
    dsimp only
    split_ifs with notRunning noStop converged converged
    · exact .refl c _
    · exact .refl c _
    · exact .refl c _
    · exact .refl c _
    · exact sameMarks_setStage_but c name _
    · rename_i absurd
      simp [Controller.converged, Controller.setStage] at absurd

end

/-! ## The invariant -/

/-- No later fire is of the same stage. -/
def Latest (ops : List Op) (i : ℕ) (op : Op) : Prop :=
  ∀ j later, i < j → ops[j]? = some later → later.stage ≠ op.stage

/-- An operation that its stage has to wait for. -/
def System.counts (s : System) (op : Op) : Prop :=
  op.excused = false ∧ s.clock - op.firedAt < s.controller.inflightTimeout

/-- What holds in a run without late closures. -/
structure Orderly (s : System) : Prop where
  clock : 0 < s.clock
  fired : ∀ op ∈ s.ops, 0 < op.firedAt ∧ op.firedAt ≤ s.clock
  current : ∀ i op, s.ops[i]? = some op → s.counts op →
    Latest s.ops i op ∧ mark s.controller op.stage = some op.firedAt
  queued : ∀ name i, Action.clear name i ∈ s.queue →
    ∃ op, s.ops[i]? = some op ∧ op.stage = name ∧ op.excused = true ∧ Latest s.ops i op
  failed : ∀ i op, s.ops[i]? = some op → op.phase = .failed → op.excused = true ∧ Latest s.ops i op

/-- The same operation, later. -/
structure Op.Ages (op op' : Op) : Prop where
  stage : op'.stage = op.stage
  firedAt : op'.firedAt = op.firedAt
  excused : op.excused = true → op'.excused = true

/-- The operations are the same, but for their phases and excuses. -/
structure Aged (ops ops' : List Op) : Prop where
  back : ∀ (i : ℕ) (op' : Op), ops'[i]? = some op' → ∃ op : Op, ops[i]? = some op ∧ op.Ages op'
  forth : ∀ (i : ℕ) (op : Op), ops[i]? = some op → ∃ op' : Op, ops'[i]? = some op' ∧ op.Ages op'

theorem Aged.refl (ops : List Op) : Aged ops ops :=
  ⟨fun _ op found => ⟨op, found, rfl, rfl, id⟩, fun _ op found => ⟨op, found, rfl, rfl, id⟩⟩

theorem aged_map {f : Op → Op} (ages : ∀ op : Op, op.Ages (f op)) (ops : List Op) :
    Aged ops (ops.map f) := by
  constructor
  · intro i op' found
    rw [List.getElem?_map, map_eq_some_iff] at found
    obtain ⟨op, found, rfl⟩ := found
    exact ⟨op, found, ages op⟩
  · intro i op found
    exact ⟨f op, by rw [List.getElem?_map, found]; rfl, ages op⟩

variable {i : ℕ}

theorem aged_set {ops : List Op} {op op' : Op} (found : ops[i]? = some op) (ages : op.Ages op') :
    Aged ops (ops.set i op') := by
  have inside : i < ops.length := (List.getElem?_eq_some_iff.mp found).1
  constructor
  · intro j later at_
    by_cases same : i = j
    · subst same
      rw [List.getElem?_set_self inside] at at_
      cases at_
      exact ⟨op, found, ages⟩
    · rw [List.getElem?_set_ne same] at at_
      exact ⟨later, at_, rfl, rfl, id⟩
  intro j earlier at_
  by_cases same : i = j
  · subst same
    cases Option.some.inj (found.symm.trans at_)
    exact ⟨op', List.getElem?_set_self inside, ages⟩
  · exact ⟨earlier, by rw [List.getElem?_set_ne same, at_], rfl, rfl, id⟩

theorem Latest.aged {ops ops' : List Op} {op op' : Op} (latest : Latest ops i op)
    (aged : Aged ops ops') (same : op'.stage = op.stage) : Latest ops' i op' := by
  intro j later behind found
  obtain ⟨earlier, found, ages⟩ := aged.back j later found
  rw [ages.stage, same]
  exact latest j earlier behind found

/-- **The frame of the invariant.** Operations get older, and a mark changes only for stages
whose operations do not count. -/
theorem Orderly.frame {s s' : System} (orderly : Orderly s) (aged : Aged s.ops s'.ops)
    (later : s.clock ≤ s'.clock)
    (timeout : s'.controller.inflightTimeout = s.controller.inflightTimeout)
    (marks : ∀ (i : ℕ) op, s'.ops[i]? = some op → s'.counts op →
      mark s'.controller op.stage = mark s.controller op.stage)
    (queued : ∀ name i, Action.clear name i ∈ s'.queue → Action.clear name i ∈ s.queue ∨
      ∃ op, s.ops[i]? = some op ∧ op.stage = name ∧ op.phase = .failed)
    (failed : ∀ (i : ℕ) op op', s.ops[i]? = some op → s'.ops[i]? = some op' → op'.phase = .failed →
      op.phase = .failed ∨ op'.excused = true ∧ Latest s.ops i op) : Orderly s' := by
  refine ⟨Int.lt_of_lt_of_le orderly.clock later, ?_, ?_, ?_, ?_⟩
  · intro op' mem
    obtain ⟨i, found⟩ := mem_iff_getElem?.mp mem
    obtain ⟨op, found, ages⟩ := aged.back i op' found
    obtain ⟨positive, before⟩ := orderly.fired op (mem_of_getElem? found)
    rw [ages.firedAt]
    exact ⟨positive, Int.le_trans before later⟩
  · intro i op' found' counts
    obtain ⟨op, found, ages⟩ := aged.back i op' found'
    have counted : s.counts op := by
      obtain ⟨unexcused, recent⟩ := counts
      rw [timeout, ages.firedAt] at recent
      refine ⟨?_, Int.lt_of_le_of_lt (Int.sub_le_sub_right later _) recent⟩
      cases excused : op.excused with
      | false => rfl
      | true => exact absurd (ages.excused excused) (by rw [unexcused]; exact Bool.false_ne_true)
    obtain ⟨latest, current⟩ := orderly.current i op found counted
    refine ⟨latest.aged aged ages.stage, ?_⟩
    rw [marks i op' found' counts, ages.stage, ages.firedAt]
    exact current
  · intro name i mem
    have known : ∃ op, s.ops[i]? = some op ∧ op.stage = name ∧ op.excused = true ∧
        Latest s.ops i op := by
      rcases queued name i mem with before | ⟨op, found, stage, failed⟩
      · exact orderly.queued name i before
      · obtain ⟨excused, latest⟩ := orderly.failed i op found failed
        exact ⟨op, found, stage, excused, latest⟩
    obtain ⟨op, found, stage, excused, latest⟩ := known
    obtain ⟨op', found', ages⟩ := aged.forth i op found
    exact ⟨op', found', ages.stage.trans stage, ages.excused excused, latest.aged aged ages.stage⟩
  intro i op' found' isFailed
  obtain ⟨op, found, ages⟩ := aged.back i op' found'
  rcases failed i op op' found found' isFailed with before | ⟨excused, latest⟩
  · obtain ⟨excused, latest⟩ := orderly.failed i op found before
    exact ⟨ages.excused excused, latest.aged aged ages.stage⟩
  · exact ⟨excused, latest.aged aged ages.stage⟩

/-! ## Actions -/

section

variable {s : System} {c : Controller} {name : String}

/-- The controller changes, and the operations of one stage are excused if its mark does. -/
theorem Orderly.controlled (orderly : Orderly s) (same : SameMarks s.controller c none) :
    Orderly { s with controller := c } :=
  orderly.frame (.refl _) (Int.le_refl _) same.timeout (fun _ _ _ _ => same.marks _ (by simp))
    (fun _ _ => .inl) fun _ _ _ found found' failed => .inl (by
      cases Option.some.inj (found.symm.trans found')
      exact failed)

theorem Orderly.excused (orderly : Orderly s) (same : SameMarks s.controller c (some name)) :
    Orderly (({ s with controller := c } : System).excuse name) := by
  refine orderly.frame (aged_map (fun op => (⟨rfl, rfl, fun excused => by simp [excused]⟩ :
      op.Ages { op with excused := op.excused || decide (op.stage = name) })) s.ops)
    (Int.le_refl _) same.timeout ?_ (fun _ _ => .inl) ?_
  · intro i op found counts
    refine same.marks _ fun here => ?_
    have excused := counts.1
    rw [System.excuse, List.getElem?_map, map_eq_some_iff] at found
    obtain ⟨earlier, -, rfl⟩ := found
    rw [Bool.or_eq_false_iff, decide_eq_false_iff_not] at excused
    exact excused.2 (Option.some.inj here).symm
  intro i op op' found found' failed
  rw [System.excuse, List.getElem?_map, found, map_some, Option.some.injEq] at found'
  subst found'
  exact .inl failed

/-- The clock goes on. -/
theorem Orderly.ticked (orderly : Orderly s) {now : Time} (later : s.clock ≤ now) :
    Orderly { s with clock := now } :=
  orderly.frame (.refl _) later rfl (fun _ _ _ _ => rfl) (fun _ _ => .inl)
    fun _ _ _ found found' failed => .inl (by
      cases Option.some.inj (found.symm.trans found')
      exact failed)

/-- The closure of the latest operation of a stage: no other one counts. -/
theorem Orderly.cleared (orderly : Orderly s) {op : Op} (found : s.ops[i]? = some op)
    (stage : op.stage = name) (excused : op.excused = true) (latest : Latest s.ops i op) :
    Orderly { s with controller := clearMark s.controller name } := by
  have same : SameMarks s.controller (clearMark s.controller name) (some name) := by
    unfold clearMark
    cases s.controller.stages name with
    | none => exact .refl _ _
    | some => exact sameMarks_setStage_but _ name _
  refine orderly.frame (.refl _) (Int.le_refl _) same.timeout ?_ (fun _ _ => .inl) ?_
  · intro j other at_ counts
    refine same.marks _ fun here => ?_
    have counted : s.counts other :=
      ⟨counts.1, by have recent := counts.2; rw [same.timeout] at recent; exact recent⟩
    have alike : other.stage = op.stage := (Option.some.inj here).symm.trans stage.symm
    rcases Nat.lt_trichotomy i j with behind | rfl | before
    · exact latest j other behind at_ alike
    · cases Option.some.inj (found.symm.trans at_)
      rw [counts.1] at excused
      cases excused
    · exact (orderly.current j other at_ counted).1 i op before found alike.symm
  · intro j op op' found found' failed
    cases Option.some.inj (found.symm.trans found')
    exact .inl failed

end

/-! ## Passes -/

/-- The closure of an operation of the stage is under way. -/
def System.clearing (s : System) (name : String) : Bool :=
  s.queue.any (fun
    | .clear stage _ => stage = name
    | _ => false) ||
  s.ops.any fun op => op.phase = .failed && op.stage = name

/-- A pass fires no stage with a closure under way. -/
def sparesClearing (env : ReconcileEnv) : System → List String → Bool
  | _, [] => true
  | s, name :: rest =>
    (!s.clearing name || (reconcileStage env s.controller name).2.isNone) &&
      sparesClearing env (s.visit env name) rest

theorem visit_cases (env : ReconcileEnv) (s : System) (name : String) :
    (s.visit env name = { s with clock := env.fireNow name }) ∨
    (∃ c, SameMarks s.controller c (some name) ∧
      s.visit env name = { ({ s with controller := c } : System).excuse name with
        clock := env.fireNow name }) ∨
    ∃ stage, s.controller.stages name = some stage ∧
      (reconcileStage env s.controller name).2.isNone = false ∧
      (stage.inFlightSince ≠ 0 →
        s.controller.inflightTimeout ≤ timeSub (env.planNow name) stage.inFlightSince) ∧
      s.visit env name = { s with
        controller := s.controller.setStage name { stage with inFlightSince := env.fireNow name }
        ops := s.ops ++ [⟨name, env.fireNow name, .running, false⟩]
        clock := env.fireNow name } := by
  unfold System.visit reconcileStage Controller.converged
  cases found : s.controller.stages name with
  | none => exact .inl (by simp)
  | some stage =>
    dsimp only [any_some]
    by_cases converged : stage.status.desired = stage.status.actual
    · refine .inr (.inl
        ⟨_, sameMarks_setStage_but s.controller name { stage with inFlightSince := 0 }, ?_⟩)
      simp [converged, System.excuse]
    simp only [converged, decide_false, Bool.false_eq_true, if_false]
    by_cases none : (planReconcile s.controller.inflightTimeout stage (env.planNow name)).1 =
      noTarget
    · exact .inl (by simp [none])
    simp only [none, if_false]
    cases registered : stage.ops (planReconcile s.controller.inflightTimeout stage
        (env.planNow name)).1 with
    | false => exact .inl (by simp)
    | true =>
      refine .inr (.inr ⟨stage, rfl, by simp, fun marked => ?_, by simp⟩)
      by_contra recent
      refine none ?_
      have flying : stage.inFlight = true := (stage.inFlight_iff).mpr marked
      rw [planReconcile, flying, if_neg Bool.true_eq_false.mp, if_pos (by omega)]

variable {name : String} {s : System} {order : List String} {rest : List Action}

theorem not_clearing (spared : s.clearing name = false) :
    (∀ i, Action.clear name i ∉ s.queue) ∧ ∀ op ∈ s.ops, op.phase = .failed → op.stage ≠ name := by
  rw [System.clearing, Bool.or_eq_false_iff, List.any_eq_false, List.any_eq_false] at spared
  refine ⟨fun i mem => spared.1 _ mem (decide_eq_true rfl), fun op mem failed same => ?_⟩
  refine spared.2 op mem ?_
  rw [failed, same, decide_eq_true rfl, decide_eq_true rfl]
  rfl

/-- A time that has passed is at least what `Sub` says. -/
theorem timeSub_le {t u : Time} (later : u ≤ t) : timeSub t u ≤ t - u := by
  have lower : minDuration ≤ t - u := Int.le_trans (by decide) (Int.sub_nonneg_of_le later)
  exact Int.max_le.mpr ⟨lower, Int.min_le_right _ _⟩

/-- An element of a list with one more at its end. -/
theorem getElem?_concat {α : Type} {xs : List α} {x y : α} (found : (xs ++ [x])[i]? = some y) :
    xs[i]? = some y ∨ i = xs.length ∧ y = x := by
  by_cases inside : i < xs.length
  · rw [List.getElem?_append_left inside] at found
    exact .inl found
  rw [List.getElem?_append_right (Nat.le_of_not_lt inside)] at found
  have last : i - xs.length = 0 := by
    have bound := (List.getElem?_eq_some_iff.mp found).1
    rw [length_singleton] at bound
    omega
  rw [last] at found
  exact .inr ⟨by omega, (Option.some.inj found).symm⟩

variable {env : ReconcileEnv}

theorem Orderly.fire (orderly : Orderly s) {stage : Stage}
    (readings : s.clock ≤ env.planNow name ∧ env.planNow name ≤ env.fireNow name)
    (found : s.controller.stages name = some stage) (spared : s.clearing name = false)
    (due : stage.inFlightSince ≠ 0 →
      s.controller.inflightTimeout ≤ timeSub (env.planNow name) stage.inFlightSince) :
    Orderly { s with
      controller := s.controller.setStage name { stage with inFlightSince := env.fireNow name }
      ops := s.ops ++ [⟨name, env.fireNow name, .running, false⟩]
      clock := env.fireNow name } := by
  have later : s.clock ≤ env.fireNow name := Int.le_trans readings.1 readings.2
  have positive : 0 < env.fireNow name := Int.lt_of_lt_of_le orderly.clock later
  -- The operations before the new one stay the latest of their stages, if these are others.
  have latest : ∀ i op, op.stage ≠ name → Latest s.ops i op →
      Latest (s.ops ++ [⟨name, env.fireNow name, .running, false⟩]) i op := by
    intro i op other latest j after behind found
    rcases getElem?_concat found with old | ⟨-, rfl⟩
    · exact latest j after behind old
    · exact other.symm
  obtain ⟨unqueued, idle⟩ := not_clearing spared
  refine ⟨positive, ?_, ?_, ?_, ?_⟩
  · intro op mem
    rcases mem_append.mp mem with old | new
    · obtain ⟨positive, before⟩ := orderly.fired op old
      exact ⟨positive, Int.le_trans before later⟩
    · cases mem_singleton.mp new
      exact ⟨positive, Int.le_refl _⟩
  · intro i op found' counts
    rcases getElem?_concat found' with old | ⟨rfl, rfl⟩
    · have counted : s.counts op :=
        ⟨counts.1, Int.lt_of_le_of_lt (Int.sub_le_sub_right later _) counts.2⟩
      obtain ⟨last, current⟩ := orderly.current i op old counted
      have other : op.stage ≠ name := by
        intro same
        rw [same, mark, found, map_some, Option.some.injEq] at current
        obtain ⟨positive, before⟩ := orderly.fired op (mem_of_getElem? old)
        rw [current] at due
        have passed := timeSub_le (Int.le_trans before readings.1)
        have enough := Int.le_trans (due (Int.ne_of_gt positive)) passed
        have recent : env.fireNow name - op.firedAt < s.controller.inflightTimeout := counts.2
        have fires := Int.sub_le_sub_right readings.2 op.firedAt
        exact Int.lt_irrefl _ (Int.lt_of_le_of_lt (Int.le_trans enough fires) recent)
      refine ⟨latest i op other last, ?_⟩
      exact ((sameMarks_setStage_but s.controller name _).marks op.stage
        fun same => other (Option.some.inj same).symm).trans current
    refine ⟨fun j after behind found => ?_, by simp [mark, Controller.setStage]⟩
    have inside := (List.getElem?_eq_some_iff.mp found).1
    rw [length_append, length_singleton] at inside
    omega
  · intro other i mem
    obtain ⟨op, found', stage, excused, last⟩ := orderly.queued other i mem
    have different : op.stage ≠ name := by
      rintro rfl
      exact unqueued i (stage ▸ mem)
    have inside := (List.getElem?_eq_some_iff.mp found').1
    exact ⟨op, (List.getElem?_append_left inside).trans found', stage, excused,
      latest i op different last⟩
  intro i op found' failed
  rcases getElem?_concat found' with old | ⟨-, rfl⟩
  · obtain ⟨excused, last⟩ := orderly.failed i op old failed
    exact ⟨excused, latest i op (idle op (mem_of_getElem? old) failed) last⟩
  · cases failed

theorem Orderly.visited (orderly : Orderly s)
    (readings : s.clock ≤ env.planNow name ∧ env.planNow name ≤ env.fireNow name)
    (spared : (!s.clearing name || (reconcileStage env s.controller name).2.isNone) = true) :
    Orderly (s.visit env name) := by
  have later : s.clock ≤ env.fireNow name := Int.le_trans readings.1 readings.2
  rcases visit_cases env s name with same | ⟨c, marks, same⟩ | ⟨stage, found, fired, due, same⟩
  · rw [same]
    exact orderly.ticked later
  · rw [same]
    exact (orderly.excused marks).ticked later
  rw [same]
  rw [fired, Bool.or_false, Bool.not_eq_true'] at spared
  exact orderly.fire readings found spared due

theorem Orderly.pass (orderly : Orderly s) (readings : readingsFollow env s.clock order = true)
    (spared : sparesClearing env s order = true) : Orderly (order.foldl (System.visit env) s) := by
  induction order generalizing s with
  | nil => exact orderly
  | cons name rest ih =>
    simp only [readingsFollow, Bool.and_eq_true, decide_eq_true_eq] at readings
    rw [sparesClearing, Bool.and_eq_true] at spared
    refine ih (orderly.visited readings.1 spared.1) ?_ spared.2
    have clock : (s.visit env name).clock = env.fireNow name := rfl
    exact readings.2

/-! ## Runs -/

theorem Orderly.tornDown (orderly : Orderly s) (order : List String) :
    Orderly (order.foldl System.tearDown s) := by
  induction order generalizing s with
  | nil => exact orderly
  | cons name rest ih =>
    refine ih ?_
    have same := sameMarks_teardownStage s.controller name
    rw [System.tearDown]
    split_ifs with converged
    · rw [if_pos converged] at same
      exact orderly.excused same
    · rw [if_neg converged] at same
      exact orderly.controlled same

theorem Orderly.taken {a : Action} (orderly : Orderly s) (queue : s.queue = a :: rest) :
    Orderly { s with queue := rest } :=
  orderly.frame (.refl _) (Int.le_refl _) rfl (fun _ _ _ _ => rfl)
    (fun _ _ mem => .inl (queue ▸ mem_cons_of_mem a mem))
    fun _ _ _ found found' failed => .inl (by
      cases Option.some.inj (found.symm.trans found')
      exact failed)

theorem Orderly.performed {a : Action} (orderly : Orderly s) (queue : s.queue = a :: rest)
    (readings : readingsFollow env s.clock order = true)
    (spared : a = .reconcile → sparesClearing env { s with queue := rest } order = true) :
    Orderly (System.perform order env { s with queue := rest } a) := by
  have taken := orderly.taken queue
  cases a with
  | pathEvent path status =>
    exact taken.controlled (sameMarks_handlePathEvent s.controller path status)
  | control component action =>
    exact taken.controlled (sameMarks_handleControl s.controller component action)
  | stageEvent stage state =>
    have same : SameMarks s.controller (handleStageEvent s.controller stage state).1
        (match (handleStageEvent s.controller stage state).2 with
          | .ok _ => some stage
          | .error _ => none) := by
      unfold handleStageEvent
      cases s.controller.stages stage with
      | none => exact .refl _ none
      | some old =>
        dsimp only
        split_ifs
        · exact .refl _ none
        · have kept := sameMarks_setStage_but s.controller stage { old with
            status := { old.status with actual := state }, inFlightSince := 0 }
          exact ⟨kept.timeout, kept.marks⟩
        · exact sameMarks_setStage_but s.controller stage _
    rw [System.perform]
    cases result : (handleStageEvent s.controller stage state).2 with
    | ok =>
      rw [result] at same
      exact taken.excused same
    | error =>
      rw [result] at same
      exact taken.controlled same
  | addListener | removeListener => exact taken.controlled ⟨rfl, fun _ _ => rfl⟩
  | status => exact taken
  | reconcile => exact taken.pass readings (spared rfl)
  | clear stage i =>
    obtain ⟨op, found, same, excused, latest⟩ := orderly.queued stage i (queue ▸ mem_cons_self)
    exact taken.cleared found same excused latest
  | teardown => exact (taken.tornDown order).controlled ⟨rfl, fun _ _ => rfl⟩

/-- No operation fails behind a later fire of its stage, and no stage is fired while a closure of
one of its operations is under way. -/
def noLateClears (s : System) : Label → Bool
  | .run order env =>
    match s.queue with
    | .reconcile :: rest => sparesClearing env { s with queue := rest } order
    | _ => true
  | .opReturns i error =>
    !error || s.ops[i]?.all fun op => (s.ops.drop (i + 1)).all fun later => later.stage ≠ op.stage
  | _ => true

theorem Orderly.step {s' : System} {l : Label} (orderly : Orderly s)
    (guarded : noLateClears s l = true) (step : s.step l = some s') : Orderly s' := by
  cases l with
  | submit =>
    obtain ⟨other, moved⟩ := ite_none_left_eq_some.mp step
    cases moved
    refine orderly.frame (.refl _) (Int.le_refl _) rfl (fun _ _ _ _ => rfl) ?_ ?_
    · intro name i mem
      rcases mem_append.mp mem with before | new
      · exact .inl before
      · cases mem_singleton.mp new
        exact (other rfl).elim
    intro i op op' found found' failed
    cases Option.some.inj (found.symm.trans found')
    exact .inl failed
  | run =>
    rw [System.step] at step
    cases queue : s.queue with
    | nil =>
      rw [queue] at step
      cases step
    | cons =>
      rw [queue] at step
      obtain ⟨readings, moved⟩ := ite_none_right_eq_some.mp step
      cases moved
      refine orderly.performed queue readings ?_
      rintro rfl
      rw [noLateClears, queue] at guarded
      exact guarded
  | opReturns i error =>
    obtain ⟨op, found, moved⟩ := bind_eq_some_iff.mp step
    obtain ⟨running, moved⟩ := ite_none_right_eq_some.mp moved
    cases moved
    have ages : op.Ages (op.returned error) :=
      ⟨rfl, rfl, fun excused => by simp [Op.returned, excused]⟩
    refine orderly.frame (aged_set found ages) (Int.le_refl _) rfl (fun _ _ _ _ => rfl)
      (fun _ _ => .inl) ?_
    intro j before after found' at_ failed
    by_cases same : i = j
    · subst same
      cases Option.some.inj (found.symm.trans found')
      rw [List.getElem?_set_self (List.getElem?_eq_some_iff.mp found).1] at at_
      cases at_
      cases error with
      | false => cases failed
      | true =>
        rw [noLateClears, found] at guarded
        refine .inr ⟨Bool.or_true _, fun k later behind found => ?_⟩
        have none := all_eq_true.mp guarded
        refine of_decide_eq_true (none later (mem_of_getElem? (i := k - (i + 1)) ?_))
        rw [List.getElem?_drop, Nat.add_sub_cancel' behind]
        exact found
    · rw [List.getElem?_set_ne same, found'] at at_
      cases at_
      exact .inl failed
  | opSubmits i =>
    obtain ⟨op, found, moved⟩ := bind_eq_some_iff.mp step
    obtain ⟨isFailed, moved⟩ := ite_none_right_eq_some.mp moved
    cases moved
    refine orderly.frame (aged_set found ⟨rfl, rfl, id⟩) (Int.le_refl _) rfl
      (fun _ _ _ _ => rfl) ?_ ?_
    · intro name j mem
      rcases mem_append.mp mem with before | new
      · exact .inl before
      · cases mem_singleton.mp new
        exact .inr ⟨op, found, rfl, isFailed⟩
    intro j before after found' at_ failed
    by_cases same : i = j
    · subst same
      rw [List.getElem?_set_self (List.getElem?_eq_some_iff.mp found).1] at at_
      cases at_
      cases failed
    rw [List.getElem?_set_ne same, found'] at at_
    cases at_
    exact .inl failed
  | tick =>
    obtain ⟨later, moved⟩ := ite_none_right_eq_some.mp step
    cases moved
    exact orderly.ticked later

/-- **In-flight marks have one owner.** From a clock past the zero time, in every run in which no
operation fails behind a later fire of its stage, and no stage is fired while a closure of one of
its operations is under way, a closure on the channel is that of the last fire of its stage, and at
most one operation of a stage is neither excused nor older than the timeout. -/
theorem flights_exclusive (c : Controller) (clock : Time) (past : 0 < clock) (s : System)
    (reachable : ((system c clock).restrict fun s l => noLateClears s l = true).Reachable s) :
    (∀ name i, Action.clear name i ∈ s.queue →
      ∃ op, s.ops[i]? = some op ∧ op.stage = name ∧ Latest s.ops i op) ∧
    ∀ (i j : ℕ) op op', s.ops[i]? = some op → s.ops[j]? = some op' → op.stage = op'.stage →
      s.counts op → s.counts op' → i = j := by
  have orderly : Orderly s := by
    refine reachable.induct ?_ fun s l s' _ step orderly => ?_
    · rintro _ rfl
      exact ⟨past, nofun, nofun,
        nofun, nofun⟩
    · obtain ⟨guarded, step⟩ := Machine.restrict_step.mp step
      exact orderly.step guarded step
  constructor
  · intro name i mem
    obtain ⟨op, found, stage, -, latest⟩ := orderly.queued name i mem
    exact ⟨op, found, stage, latest⟩
  intro i j op op' found found' same counts counts'
  rcases Nat.lt_trichotomy i j with before | rfl | behind
  · exact ((orderly.current i op found counts).1 j op' before found' same.symm).elim
  · rfl
  · exact ((orderly.current j op' found' counts').1 i op behind found same).elim

/-! ## Runs of one stage -/

/-- A request and its pass, with readings of one time. -/
def passAt (now : Time) : List Label :=
  [.submit .reconcile, .run ["s"] ⟨fun _ => now, fun _ => now⟩]

/-- An operation outlives the timeout, and its retry fails: the closure on the channel is that of
the retry. -/
theorem failed_retry_clears_its_mark :
    ∃ s, ((system oneStage 1).restrict fun s l => noLateClears s l = true).Reachable s ∧
      s.ops.length = 2 ∧ Action.clear "s" 1 ∈ s.queue ∧
      ∃ op, s.ops[1]? = some op ∧ op.stage = "s" ∧ Latest s.ops 1 op := by
  have run : ∃ s, ((system oneStage 1).restrict fun s l => noLateClears s l = true).exec
      ⟨oneStage, [], [], 1⟩ (passAt 1 ++ passAt 11 ++ [.opReturns 1 true, .opSubmits 1]) = some s ∧
      s.ops.length = 2 ∧ s.queue = [.clear "s" 1] := ⟨_, rfl, rfl, rfl⟩
  obtain ⟨s, run, two, queue⟩ := run
  have mem : Action.clear "s" 1 ∈ s.queue := queue ▸ mem_singleton.mpr rfl
  have reachable : ((system oneStage 1).restrict fun s l => noLateClears s l = true).Reachable s :=
    ⟨_, rfl, _, run⟩
  exact ⟨s, reachable, two, mem, (flights_exclusive oneStage 1 (by decide) s reachable).1 "s" 1 mem⟩

/-- An operation outlives the timeout and fails when its retry has been fired. Its closure resets
the mark of the retry, and a third operation is fired beside the retry. -/
theorem late_clear_fires_third :
    (∃ s op, (system oneStage 1).Reachable s ∧ s.queue = [Action.clear "s" 0] ∧
      s.ops[1]? = some op ∧ op.stage = "s" ∧ mark s.controller "s" = some 11 ∧
      mark (clearMark s.controller "s") "s" = some 0) ∧
    ∃ s op op', (system oneStage 1).Reachable s ∧ s.ops[1]? = some op ∧ s.ops[2]? = some op' ∧
      op.stage = op'.stage ∧ s.counts op ∧ s.counts op' := by
  have first : ∃ s op, (system oneStage 1).exec ⟨oneStage, [], [], 1⟩
      (passAt 1 ++ passAt 11 ++ [.opReturns 0 true, .opSubmits 0]) = some s ∧
      s.queue = [Action.clear "s" 0] ∧ s.ops[1]? = some op ∧ op.stage = "s" ∧
      mark s.controller "s" = some 11 ∧ mark (clearMark s.controller "s") "s" = some 0 :=
    ⟨_, _, rfl, rfl, rfl, rfl, rfl, rfl⟩
  have second : ∃ s op op', (system oneStage 1).exec ⟨oneStage, [], [], 1⟩
      (passAt 1 ++ passAt 11 ++
        [.opReturns 0 true, .opSubmits 0, .run [] ⟨fun _ => 11, fun _ => 11⟩] ++
        passAt 11) = some s ∧
      s.ops[1]? = some op ∧ s.ops[2]? = some op' ∧ op.stage = op'.stage ∧ s.counts op ∧
        s.counts op' :=
    ⟨_, _, _, rfl, rfl, rfl, rfl, ⟨rfl, by decide⟩, ⟨rfl, by decide⟩⟩
  obtain ⟨s, op, run, rest⟩ := first
  obtain ⟨t, op₁, op₂, run', rest'⟩ := second
  exact ⟨⟨s, op, ⟨_, rfl, _, run⟩, rest⟩, t, op₁, op₂, ⟨_, rfl, _, run'⟩, rest'⟩

end Strimserver.Oracle
