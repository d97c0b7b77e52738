import Strimserver.Controller.StatusPush
import Strimserver.Library.Lockstep
import Strimserver.Library.Naming
import Strimserver.Library.Sweep
import Strimserver.Oracle.Handlers

/-!
# The C port against the Go controller

The state of the C controller determines a state of the Go controller: the
arrays become maps over the wire strings of the enumerations, and a mark in
milliseconds becomes a time. The routes of the two sides may be any that have
the same keys and targets and prerequisites that agree on every status.

Every input takes corresponding states to corresponding states, with the same
outcome. The two loops over the stages are sweeps over independent cells, so
the order in which Go visits its map changes neither the state after the pass
nor, up to their order, the operations that are fired.

Both sides read the clock at the same two places for a stage, and the readings
at one place are taken to be the same. They are positive; nothing else is asked
of the clock. On the C side the allocations of a fire succeed.
-/

namespace Strimserver.Oracle

open Library Option

open Strimserver.Controller (Config Core Route Job Result Action QueueStep queueStep runAction
  PathName PathStatus StageName StageState ControlComponent ControlAction)

/-! ## Wire strings -/

/-- `k_path_status_strs`. -/
def pathStatusNames : Naming PathStatus String :=
  .ofTable (fun | .unknown => "unknown" | .ready => "ready" | .notReady => "not-ready")
    [.unknown, .ready, .notReady] (fun a => by cases a <;> decide)
    (fun a b => by cases a <;> cases b <;> decide)

/-- `k_stage_state_strs`, without the empty string of `STRIM_STAGE_NO_TARGET`. -/
def stageStateNames : Naming StageState String :=
  .ofTable (fun | .stopped => "stopped" | .running => "running")
    [.stopped, .running] (fun a => by cases a <;> decide)
    (fun a b => by cases a <;> cases b <;> decide)

/-- `k_path_name_strs`. -/
def pathNames : Naming PathName String :=
  .ofTable (fun | .ingress0 => "ingress0" | .normalized => "normalized")
    [.ingress0, .normalized] (fun a => by cases a <;> decide)
    (fun a b => by cases a <;> cases b <;> decide)

/-- `k_stage_name_strs`. -/
def stageNames : Naming StageName String :=
  .ofTable (fun
      | .mediaMtx => "mediamtx"
      | .normalize => "normalize"
      | .scaleAndEgress => "scale_and_egress"
      | .singleStageEgress => "single_stage_egress")
    StageName.all StageName.mem_all (fun a b => by cases a <;> cases b <;> decide)

def componentNames : Naming ControlComponent String :=
  .ofTable (fun | .egress => "egress") [.egress] (fun a => by cases a; decide)
    (fun a b => by cases a; cases b; decide)

def actionNames : Naming ControlAction String :=
  .ofTable (fun | .start => "start" | .stop => "stop")
    [.start, .stop] (fun a => by cases a <;> decide)
    (fun a b => by cases a <;> cases b <;> decide)

theorem pathStatusValid_eq (s : String) : pathStatusValid s = (pathStatusNames.parse s).isSome := by
  -- A name is read by a search of the table.
  refine Eq.trans ?_ List.isSome_find?.symm
  simp [pathStatusValid, Bool.or_assoc, beq_eq_decide]

theorem stageStateValid_eq (s : String) : stageStateValid s = (stageStateNames.parse s).isSome := by
  refine Eq.trans ?_ List.isSome_find?.symm
  exact (Bool.or_comm _ _).trans (by simp [beq_eq_decide, running, stopped])

/-! ## Corresponding states -/

def nsPerMs : ℤ := 1000000

/-- A clock reading in milliseconds as a time, for a clock that starts at
`origin`. -/
def goTime (origin : ℕ) (ms : ℤ) : Time := origin + ms * nsPerMs

def goMark (origin : ℕ) (since : ℤ) : Time := if since = 0 then 0 else goTime origin since

def goStageStatus (status : Controller.StageStatus) : StageStatus where
  desired := stageStateNames.name status.desired
  actual := stageStateNames.name status.actual

def goStage (origin : ℕ) (cfg : Config) (st : StageName) (stage : Controller.Stage) : Stage where
  status := goStageStatus stage.status
  ops s := (stageStateNames.parse s).any (cfg.stageOpFor st)
  inFlightSince := goMark origin stage.inFlightSince

def goStatus (status : Controller.ControllerStatus) : ControllerStatus where
  paths := pathNames.map fun path => pathStatusNames.name (status.paths path)
  stages := stageNames.map fun st => goStageStatus (status.stages st)

/-- A route and a target of Go: the same stage and state, and prerequisites that
agree on every status. -/
structure TargetMatches {κ : Type} (route : Route κ) (target : StageTarget) : Prop where
  stage : target.stage = stageNames.name route.targetStage
  state : target.state = stageStateNames.name route.targetState
  prerequisite : ∀ status, (route.prerequisite.map fun p => p status).getD 0 = 0 ↔
    (target.prerequisite.bind fun p => p (goStatus status)) = none

/-- Corresponding states of the two controllers. -/
structure Corresponds (origin : ℕ) (cfg : Config) (c : Core) (g : Controller) : Prop where
  paths : g.paths = pathNames.map fun path => pathStatusNames.name (c.paths path)
  stages : g.stages = stageNames.map fun st => goStage origin cfg st (c.stages st)
  marks : ∀ st, 0 ≤ (c.stages st).inFlightSince
  pathRoutes : ∀ path status, Option.Rel TargetMatches
    ((pathNames.parse path).bind fun p => (pathStatusNames.parse status).bind fun s =>
      cfg.pathRoutes.find (p, s))
    (g.pathEventRoutes (path, status))
  controlRoutes : ∀ component action, Option.Rel TargetMatches
    ((componentNames.parse component).bind fun p => (actionNames.parse action).bind fun a =>
      cfg.controlRoutes.find (p, a))
    (g.commandRoutes (component, action))
  timeout : g.inflightTimeout = cfg.inflightTimeoutMs * nsPerMs
  timeoutFits : g.inflightTimeout ≤ maxDuration
  listeners : g.listeners = c.listeners
  calls : g.calls = c.calls.map fun call => (call.1, goStatus call.2)

variable {origin : ℕ} {cfg : Config} {c : Core} {g : Controller}

namespace Corresponds

variable (h : Corresponds origin cfg c g)
include h

theorem stage (st : StageName) :
    g.stages (stageNames.name st) = some (goStage origin cfg st (c.stages st)) := by
  rw [h.stages, stageNames.map_name]

theorem status : handleStatus g = goStatus (Controller.handleStatus c) := by
  apply ControllerStatus.ext
  · exact h.paths
  funext name
  show (g.stages name).map Stage.status = _
  rw [h.stages]
  exact map_map _ _ _

theorem notify : Corresponds origin cfg (Controller.notifyListeners c) (notifyListeners g) := by
  refine { h with calls := ?_ }
  show _ ++ g.calls = List.map _ (_ ++ c.calls)
  rw [h.calls, h.listeners, h.status, List.map_append, List.map_reverse, List.map_map]
  rfl

theorem setPath (path : PathName) (status : PathStatus) :
    Corresponds origin cfg (c.setPath path status) { g with
      paths := Function.update g.paths (pathNames.name path)
        (some (pathStatusNames.name status)) } := by
  refine { h with paths := ?_ }
  show Function.update g.paths _ _ = _
  rw [h.paths, ← pathNames.map_update]
  congr 1
  funext path'
  exact (Function.apply_update (fun _ s => pathStatusNames.name s) c.paths path status path').symm

theorem setStage (st : StageName) (stage : Controller.Stage) (mark : 0 ≤ stage.inFlightSince) :
    Corresponds origin cfg (c.setStage st stage)
      (g.setStage (stageNames.name st) (goStage origin cfg st stage)) := by
  refine { h with stages := ?_, marks := ?_ }
  · show Function.update g.stages _ _ = _
    rw [h.stages, ← stageNames.map_update]
    congr 1
    funext st'
    exact (Function.apply_update (goStage origin cfg) c.stages st stage st').symm
  intro st'
  by_cases same : st' = st
  · subst same
    rw [Controller.Core.setStage_self]
    exact mark
  · rw [Controller.Core.setStage_of_ne _ _ same]
    exact h.marks st'

end Corresponds

/-! ## Path events, control commands and stage events -/

/-- The two handlers lead to corresponding states, and both succeed or both
fail. -/
structure Agree (origin : ℕ) (cfg : Config) (r : Core × Result)
    (r' : Controller × Except Error Unit) : Prop where
  state : Corresponds origin cfg r.1 r'.1
  outcome : r.2 = .ok () ↔ r'.2 = .ok ()

namespace Agree

theorem ok (state : Corresponds origin cfg c g) : Agree origin cfg (c, .ok ()) (g, .ok ()) :=
  ⟨state, iff_of_true rfl rfl⟩

theorem error (state : Corresponds origin cfg c g) (err : Controller.CtrlErr) (err' : Error) :
    Agree origin cfg (c, .error err) (g, .error err') :=
  ⟨state, iff_of_false nofun nofun⟩

end Agree

variable {κ : Type}

theorem applyDesiredStageTarget_agree (h : Corresponds origin cfg c g) {route : Route κ}
    {target : StageTarget} (same : TargetMatches route target) :
    Agree origin cfg (Controller.applyDesiredStageTarget c route)
      (applyDesiredStageTarget g target) := by
  have desired : (goStage origin cfg route.targetStage
      (c.stages route.targetStage)).status.desired = target.state ↔
      (c.stages route.targetStage).status.desired = route.targetState := by
    rw [same.state]
    exact stageStateNames.name_injective.eq_iff
  unfold Controller.applyDesiredStageTarget applyDesiredStageTarget
  rw [same.stage, h.stage route.targetStage]
  dsimp only
  by_cases already : (c.stages route.targetStage).status.desired = route.targetState
  · rw [if_pos already, if_pos (desired.mpr already)]
    exact .ok h
  rw [if_neg already, if_neg (desired.not.mpr already), h.status]
  have asked := same.prerequisite (Controller.handleStatus c)
  rcases refused : target.prerequisite.bind fun p => p (goStatus (Controller.handleStatus c))
    with _ | cause
  · rw [if_neg (not_not.mpr (asked.mpr refused)), same.state]
    exact .ok (h.setStage route.targetStage { c.stages route.targetStage with
      status := { (c.stages route.targetStage).status with desired := route.targetState } }
      (h.marks _)).notify
  rw [refused] at asked
  rw [if_pos (asked.not.mpr nofun)]
  exact .error h _ _

theorem handlePathEvent_agree (h : Corresponds origin cfg c g) {e : Controller.PathEvent}
    {path status : String} (samePath : pathNames.parse path = PathName.ofCode e.path)
    (sameStatus : pathStatusNames.parse status = PathStatus.ofCode e.status) :
    Agree origin cfg (Controller.handlePathEvent cfg c e) (handlePathEvent g path status) := by
  have routes := h.pathRoutes path status
  unfold Controller.handlePathEvent handlePathEvent
  rw [← samePath, ← sameStatus, h.paths, pathStatusValid_eq]
  rcases parsed : pathNames.parse path with _ | p
  · rw [pathNames.map_eq_none parsed]
    exact .error h _ _
  obtain rfl := pathNames.parse_eq_some.mp parsed
  rw [pathNames.map_name]
  rcases parsed' : pathStatusNames.parse status with _ | s
  · exact .error h _ _
  obtain rfl := pathStatusNames.parse_eq_some.mp parsed'
  have stored := h.setPath p s
  rw [h.paths] at stored
  rw [pathNames.parse_name, pathStatusNames.parse_name, bind_some, bind_some] at routes
  dsimp only [isSome_some]
  generalize cfg.pathRoutes.find (p, s) = found at routes ⊢
  generalize g.pathEventRoutes (pathNames.name p, pathStatusNames.name s) = found' at routes ⊢
  cases routes with
  | none => exact .ok stored
  | some same => exact applyDesiredStageTarget_agree stored same

theorem handleControl_agree (h : Corresponds origin cfg c g) {cmd : Controller.ControlCommand}
    {component action : String}
    (sameComponent : componentNames.parse component = ControlComponent.ofCode cmd.component)
    (sameAction : actionNames.parse action = ControlAction.ofCode cmd.action) :
    Agree origin cfg (Controller.handleControl cfg c cmd) (handleControl g component action) := by
  have routes := h.controlRoutes component action
  unfold Controller.handleControl handleControl
  rw [← sameComponent, ← sameAction]
  generalize componentNames.parse component = component' at routes ⊢
  generalize actionNames.parse action = action' at routes ⊢
  generalize g.commandRoutes (component, action) = found' at routes ⊢
  rcases component' with _ | p
  · cases routes
    exact .error h _ _
  rcases action' with _ | a
  · cases routes
    exact .error h _ _
  dsimp only [bind_some] at routes ⊢
  generalize cfg.controlRoutes.find (p, a) = found at routes ⊢
  cases routes with
  | none => exact .error h _ _
  | some same => exact applyDesiredStageTarget_agree h same

theorem handleStageEvent_agree (h : Corresponds origin cfg c g) {e : Controller.StageEvent}
    {name state : String} (sameStage : stageNames.parse name = StageName.ofCode e.stage)
    (sameState : stageStateNames.parse state = StageState.ofCode e.state) :
    Agree origin cfg (Controller.handleStageEvent c e) (handleStageEvent g name state) := by
  unfold Controller.handleStageEvent handleStageEvent
  rw [← sameStage, ← sameState, stageStateValid_eq]
  rcases parsed : stageNames.parse name with _ | st
  · rw [h.stages, stageNames.map_eq_none parsed]
    exact .error h _ _
  obtain rfl := stageNames.parse_eq_some.mp parsed
  rw [h.stage st]
  rcases parsed' : stageStateNames.parse state with _ | s
  · exact .error h _ _
  obtain rfl := stageStateNames.parse_eq_some.mp parsed'
  have stored := h.setStage st { c.stages st with
    status := { (c.stages st).status with actual := s }, inFlightSince := 0 } (Int.le_refl 0)
  have changed : (goStage origin cfg st (c.stages st)).status.actual ≠
      stageStateNames.name s ↔ (c.stages st).status.actual ≠ s :=
    stageStateNames.name_injective.ne_iff
  simp only [isSome_some, Bool.true_eq_false, ↓reduceIte]
  by_cases same : (c.stages st).status.actual = s
  · rw [if_neg (not_not.mpr same), if_neg (changed.not.mpr (not_not.mpr same))]
    exact .ok stored
  · rw [if_pos same, if_pos (changed.mpr same)]
    exact .ok stored.notify

/-! ## The loops over the stages -/

variable {order : List String}

/-- A sweep of the stage array and a sweep of the stage map, in any order, whose
bodies agree on each stage. -/
theorem sweep_agree (h : Corresponds origin cfg c g) {ω ω' : Type} {names : ω → ω'}
    {body : StageName → Controller.Stage → Controller.Stage × Option ω}
    {goBody : String → Option Stage → Option Stage × Option ω'}
    (agree : ∀ st, goBody (stageNames.name st) (some (goStage origin cfg st (c.stages st))) =
      (some (goStage origin cfg st (body st (c.stages st)).1), (body st (c.stages st)).2.map names))
    (marks : ∀ st, 0 ≤ (body st (c.stages st)).1.inFlightSince)
    (visits : order.Perm (StageName.all.map stageNames.name)) :
    Corresponds origin cfg { c with stages := (sweep body c.stages StageName.all).1 }
      { g with stages := (sweep goBody g.stages order).1 } ∧
    ((sweep body c.stages StageName.all).2.map names).Perm (sweep goBody g.stages order).2 := by
  have nodup : order.Nodup :=
    visits.nodup_iff.mpr (StageName.all_nodup.map stageNames.name_injective)
  have visited : ∀ st, stageNames.name st ∈ order := fun st =>
    visits.mem_iff.mpr (List.mem_map_of_mem (StageName.mem_all st))
  rw [sweep_of_nodup StageName.all_nodup, sweep_of_nodup nodup]
  constructor
  · refine { h with stages := ?_, marks := ?_ }
    · funext name
      show (if name ∈ order then (goBody name (g.stages name)).1 else g.stages name) = _
      rcases parsed : stageNames.parse name with _ | st
      · have absent : name ∉ order := by
          intro mem
          obtain ⟨st, -, rfl⟩ := List.mem_map.mp (visits.mem_iff.mp mem)
          rw [stageNames.parse_name] at parsed
          cases parsed
        rw [if_neg absent, h.stages, stageNames.map_eq_none parsed, stageNames.map_eq_none parsed]
      · obtain rfl := stageNames.parse_eq_some.mp parsed
        rw [if_pos (visited st), h.stage st, agree st, stageNames.map_name]
        simp
    · intro st
      simpa using marks st
  have fired : (StageName.all.filterMap fun st => (body st (c.stages st)).2).map names =
      (StageName.all.map stageNames.name).filterMap fun name =>
        (goBody name (g.stages name)).2 := by
    rw [List.map_filterMap, List.filterMap_map]
    apply List.filterMap_congr
    intro st _
    rw [Function.comp_apply, h.stage st, agree st]
  rw [fired]
  exact (visits.filterMap _).symm

/-- What the reconcile pass does to a stage when its fire goes through. -/
def reconcileEffect (cfg : Config) (env : Controller.ReconcileEnv) (st : StageName)
    (stage : Controller.Stage) : Controller.Stage × Option Job :=
  if stage.status.desired = stage.status.actual then ({ stage with inFlightSince := 0 }, none)
  else if ¬ (stage.inFlightSince = 0 ∨
      cfg.inflightTimeoutMs ≤ env.examineNow st - stage.inFlightSince) then (stage, none)
  else if cfg.stageOpFor st stage.status.desired = false then (stage, none)
  else
    ({ stage with inFlightSince := env.fireNow st, opGeneration := stage.opGeneration + 1 },
      some ⟨st, stage.status.desired, cfg.inflightTimeoutMs, stage.opGeneration + 1,
        env.fireNow st + cfg.inflightTimeoutMs⟩)

theorem setStage_stages (c : Core) (st : StageName) : c.setStage st (c.stages st) = c := by
  unfold Controller.Core.setStage
  rw [Function.update_eq_self]

variable {env : Controller.ReconcileEnv}

theorem reconcileStage_eq_effect (c : Core) {st : StageName}
    (launched : env.outcome st = .launched) :
    Controller.reconcileStage cfg env c st =
      (c.setStage st (reconcileEffect cfg env st (c.stages st)).1,
        (reconcileEffect cfg env st (c.stages st)).2) := by
  unfold Controller.reconcileStage Controller.reconcileExamine reconcileEffect
  by_cases converged : (c.stages st).status.desired = (c.stages st).status.actual
  · simp only [if_pos converged]
  by_cases due : (c.stages st).inFlightSince = 0 ∨
      cfg.inflightTimeoutMs ≤ env.examineNow st - (c.stages st).inFlightSince
  · by_cases op : cfg.stageOpFor st (c.stages st).status.desired = false
    · simp only [if_neg converged, due, not_true_eq_false, ↓reduceIte, op, setStage_stages]
    · simp only [if_neg converged, due, not_true_eq_false, ↓reduceIte, op, launched]
      rfl
  · simp only [if_neg converged, due, not_false_eq_true, ↓reduceIte, setStage_stages]

theorem reconcileLoop_eq_sweep (launched : ∀ st, env.outcome st = .launched) (c : Core)
    (stages : List StageName) :
    Controller.reconcileLoop cfg env c stages =
      ({ c with stages := (sweep (reconcileEffect cfg env) c.stages stages).1 },
        (sweep (reconcileEffect cfg env) c.stages stages).2) := by
  induction stages generalizing c with
  | nil => rfl
  | cons st rest ih =>
    simp only [Controller.reconcileLoop, reconcileStage_eq_effect c (launched st), ih]
    rfl

/-- What the reconcile pass of Go does to the entry of a stage. -/
def goReconcileEffect (inflightTimeout : ℤ) (env : ReconcileEnv) (name : String) :
    Option Stage → Option Stage × Option (String × String)
  | none => (none, none)
  | some stage =>
    if stage.status.desired = stage.status.actual then
      (some { stage with inFlightSince := 0 }, none)
    else
      let target := (planReconcile inflightTimeout stage (env.planNow name)).1
      if target = noTarget then (some stage, none)
      else if stage.ops target = false then (some stage, none)
      else (some { stage with inFlightSince := env.fireNow name }, some (name, target))

theorem update_stages (g : Controller) {name : String} {entry : Option Stage}
    (found : g.stages name = entry) :
    ({ g with stages := Function.update g.stages name entry } : Controller) = g := by
  rw [← found, Function.update_eq_self]

theorem goReconcileStage_eq_effect (env : ReconcileEnv) (g : Controller) (name : String) :
    reconcileStage env g name = ({ g with
          stages := Function.update g.stages name
            (goReconcileEffect g.inflightTimeout env name (g.stages name)).1 },
        (goReconcileEffect g.inflightTimeout env name (g.stages name)).2) := by
  unfold reconcileStage goReconcileEffect
  rcases found : g.stages name with _ | stage
  · exact congrArg (·, none) (update_stages g found).symm
  dsimp only
  split
  · rfl
  split
  · exact congrArg (·, none) (update_stages g found).symm
  split
  · exact congrArg (·, none) (update_stages g found).symm
  · rfl

theorem handleReconcile_eq_sweep (env : ReconcileEnv) (g : Controller) (order : List String) :
    handleReconcile env g order =
      ({ g with stages := (sweep (goReconcileEffect g.inflightTimeout env) g.stages order).1 },
        (sweep (goReconcileEffect g.inflightTimeout env) g.stages order).2) := by
  induction order generalizing g with
  | nil => rfl
  | cons name rest ih =>
    simp only [handleReconcile, goReconcileStage_eq_effect, ih]
    rfl

/-! ## The reconcile pass -/

/-- The two passes read the same clock, at the same places of the code, and the
fires of the C side go through. -/
structure EnvMatches (origin : ℕ) (env : Controller.ReconcileEnv) (goEnv : ReconcileEnv) :
    Prop where
  plan : ∀ st, goEnv.planNow (stageNames.name st) = goTime origin (env.examineNow st)
  fire : ∀ st, goEnv.fireNow (stageNames.name st) = goTime origin (env.fireNow st)
  positive : ∀ st, 0 < env.fireNow st
  launched : ∀ st, env.outcome st = .launched

theorem goMark_eq_zero (origin : ℕ) {since : ℤ} (mark : 0 ≤ since) :
    goMark origin since = 0 ↔ since = 0 := by
  constructor
  · intro zero
    by_contra marked
    have late : (origin : ℤ) + since * 1000000 = 0 := (if_neg marked).symm.trans zero
    omega
  · intro zero
    exact if_pos zero

theorem goStage_inFlight_iff (h : Corresponds origin cfg c g) (st : StageName) :
    (goStage origin cfg st (c.stages st)).inFlight = true ↔ (c.stages st).inFlightSince ≠ 0 := by
  rw [Stage.inFlight_iff]
  exact (goMark_eq_zero origin (h.marks st)).not

/-- The saturation of `Sub` does not change the comparison with a timeout. -/
theorem timeSub_lt_iff (origin : ℕ) (now since : ℤ) {timeoutMs : ℤ} (positive : 0 < timeoutMs)
    (fits : timeoutMs * nsPerMs ≤ maxDuration) :
    timeSub (goTime origin now) (goTime origin since) < timeoutMs * nsPerMs ↔
      now - since < timeoutMs := by
  unfold timeSub goTime nsPerMs minDuration maxDuration at *
  omega

theorem planReconcile_goStage (h : Corresponds origin cfg c g) (st : StageName) (now : ℤ) :
    (planReconcile g.inflightTimeout (goStage origin cfg st (c.stages st)) (goTime origin now)).1 =
      if (c.stages st).inFlightSince = 0 ∨
          cfg.inflightTimeoutMs ≤ now - (c.stages st).inFlightSince
      then stageStateNames.name (c.stages st).status.desired else noTarget := by
  have fits := h.timeoutFits
  rw [h.timeout] at fits
  have flying := goStage_inFlight_iff h st
  unfold planReconcile
  by_cases idle : (c.stages st).inFlightSince = 0
  · rw [if_pos (Bool.eq_false_iff.mpr (flying.not.mpr (not_not.mpr idle))), if_pos (.inl idle)]
    rfl
  have since : (goStage origin cfg st (c.stages st)).inFlightSince =
      goTime origin (c.stages st).inFlightSince := if_neg idle
  rw [if_neg (Bool.eq_false_iff.not.mpr (not_not.mpr (flying.mpr idle))), since, h.timeout]
  have early := timeSub_lt_iff origin now (c.stages st).inFlightSince cfg.timeoutPos fits
  by_cases waits : now - (c.stages st).inFlightSince < cfg.inflightTimeoutMs
  · rw [if_pos (early.mpr waits), if_neg]
    rintro (none | expired)
    · exact idle none
    · exact absurd waits (Int.not_lt.mpr expired)
  · rw [if_neg (early.not.mpr waits), if_pos (.inr (Int.not_lt.mp waits))]
    rfl

def jobNames (job : Job) : String × String :=
  (stageNames.name job.stage, stageStateNames.name job.target)

theorem reconcileEffect_agree (h : Corresponds origin cfg c g) {goEnv : ReconcileEnv}
    (same : EnvMatches origin env goEnv) (st : StageName) :
    goReconcileEffect g.inflightTimeout goEnv (stageNames.name st)
        (some (goStage origin cfg st (c.stages st))) =
      (some (goStage origin cfg st (reconcileEffect cfg env st (c.stages st)).1),
        (reconcileEffect cfg env st (c.stages st)).2.map jobNames) := by
  have converged : (goStage origin cfg st (c.stages st)).status.desired =
      (goStage origin cfg st (c.stages st)).status.actual ↔
      (c.stages st).status.desired = (c.stages st).status.actual :=
    stageStateNames.name_injective.eq_iff
  have op : (goStage origin cfg st (c.stages st)).ops
      (stageStateNames.name (c.stages st).status.desired) =
      cfg.stageOpFor st (c.stages st).status.desired := by
    show Option.any _ (stageStateNames.parse _) = _
    rw [stageStateNames.parse_name, any_some]
  have fired : goMark origin (env.fireNow st) = goTime origin (env.fireNow st) :=
    if_neg (Int.ne_of_gt (same.positive st))
  unfold goReconcileEffect reconcileEffect
  dsimp only
  rw [same.plan st, planReconcile_goStage h st]
  by_cases done : (c.stages st).status.desired = (c.stages st).status.actual
  · rw [if_pos done, if_pos (converged.mpr done)]
    rfl
  rw [if_neg done, if_neg (converged.not.mpr done)]
  by_cases due : (c.stages st).inFlightSince = 0 ∨
      cfg.inflightTimeoutMs ≤ env.examineNow st - (c.stages st).inFlightSince
  · have named : stageStateNames.name (c.stages st).status.desired ≠ noTarget := by
      cases (c.stages st).status.desired <;> decide
    rw [if_pos due, if_neg (not_not.mpr due), if_neg named, op]
    by_cases missing : cfg.stageOpFor st (c.stages st).status.desired = false
    · rw [if_pos missing, if_pos missing]
      rfl
    · rw [if_neg missing, if_neg missing, same.fire st, ← fired]
      rfl
  · rw [if_neg due, if_pos due, if_pos rfl]
    rfl

theorem handleReconcile_agree (h : Corresponds origin cfg c g) {goEnv : ReconcileEnv}
    (same : EnvMatches origin env goEnv) (visits : order.Perm (StageName.all.map stageNames.name)) :
    Corresponds origin cfg (Controller.handleReconcile cfg false env c).1
      (handleReconcile goEnv g order).1 ∧
    ((Controller.handleReconcile cfg false env c).2.map jobNames).Perm
      (handleReconcile goEnv g order).2 := by
  have pass : Controller.handleReconcile cfg false env c =
      Controller.reconcileLoop cfg env c StageName.all := rfl
  rw [pass, reconcileLoop_eq_sweep same.launched, handleReconcile_eq_sweep]
  refine sweep_agree h (reconcileEffect_agree h same) ?_ visits
  intro st
  unfold reconcileEffect
  split
  · exact Int.le_refl 0
  split
  · exact h.marks st
  split
  · exact h.marks st
  · exact Int.le_of_lt (same.positive st)

/-! ## Teardown -/

/-- What the teardown does to a stage. -/
def teardownEffect (cfg : Config) (st : StageName) (stage : Controller.Stage) :
    Controller.Stage × Option Empty :=
  if stage.status.actual = .running ∧ cfg.stageOpFor st .stopped = true then
    ({ status := ⟨.stopped, .stopped⟩, inFlightSince := 0,
       opGeneration := stage.opGeneration + 1 }, none)
  else (stage, none)

theorem teardownStage_eq_effect (cfg : Config) (c : Core) (st : StageName) :
    Controller.teardownStage cfg c st = c.setStage st (teardownEffect cfg st (c.stages st)).1 := by
  unfold Controller.teardownStage Controller.tearsDown teardownEffect
  by_cases stops : (c.stages st).status.actual = .running ∧ cfg.stageOpFor st .stopped = true
  · rw [if_pos stops, if_pos (by simp [stops])]
    simp [Controller.teardownStopped, Controller.teardownBump, Controller.Core.setStage]
  · rw [if_neg stops, if_neg (by simpa using stops), setStage_stages]

theorem teardown_foldl_eq_sweep (cfg : Config) (c : Core) (stages : List StageName) :
    stages.foldl (Controller.teardownStage cfg) c =
      { c with stages := (sweep (teardownEffect cfg) c.stages stages).1 } := by
  induction stages generalizing c with
  | nil => rfl
  | cons st rest ih =>
    rw [List.foldl_cons, ih, teardownStage_eq_effect]
    rfl

/-- What the teardown of Go does to the entry of a stage. -/
def goTeardownEffect (_ : String) : Option Stage → Option Stage × Option Empty
  | none => (none, none)
  | some stage =>
    if stage.status.actual ≠ running then (some stage, none)
    else if stage.ops stopped = false then (some stage, none)
    else (some { stage with status := ⟨stopped, stopped⟩, inFlightSince := 0 }, none)

theorem goTeardownStage_eq_effect (g : Controller) (name : String) : teardownStage g name = { g with
        stages := Function.update g.stages name (goTeardownEffect name (g.stages name)).1 } := by
  unfold teardownStage goTeardownEffect
  rcases found : g.stages name with _ | stage
  · exact (update_stages g found).symm
  dsimp only
  split
  · exact (update_stages g found).symm
  split
  · exact (update_stages g found).symm
  · rfl

theorem goTeardown_foldl_eq_sweep (g : Controller) (order : List String) :
    order.foldl teardownStage g =
      { g with stages := (sweep goTeardownEffect g.stages order).1 } := by
  induction order generalizing g with
  | nil => rfl
  | cons name rest ih =>
    rw [List.foldl_cons, ih, goTeardownStage_eq_effect]
    rfl

theorem teardownEffect_agree (st : StageName) (stage : Controller.Stage) :
    goTeardownEffect (stageNames.name st) (some (goStage origin cfg st stage)) =
      (some (goStage origin cfg st (teardownEffect cfg st stage).1),
        (teardownEffect cfg st stage).2.map id) := by
  have actual : (goStage origin cfg st stage).status.actual = running ↔
      stage.status.actual = .running := by
    show stageStateNames.name stage.status.actual = stageStateNames.name .running ↔ _
    exact stageStateNames.name_injective.eq_iff
  have op : (goStage origin cfg st stage).ops stopped = cfg.stageOpFor st .stopped := by
    show Option.any _ (stageStateNames.parse (stageStateNames.name .stopped)) = _
    rw [stageStateNames.parse_name, any_some]
  unfold goTeardownEffect teardownEffect
  dsimp only
  rw [op]
  by_cases running' : stage.status.actual = .running
  · rw [if_neg (not_not.mpr (actual.mpr running'))]
    cases has : cfg.stageOpFor st .stopped with
    | false => simp
    | true =>
      simp only [running', Bool.true_eq_false, ↓reduceIte, and_self, map_none]
      rfl
  · rw [if_pos (actual.not.mpr running'), if_neg (fun stops => running' stops.1)]
    rfl

/-! ## Runs -/

/-- The same input to both controllers. A value that is out of range in C is a
string without a meaning in Go. -/
inductive InputMatches (origin : ℕ) : QueueStep → Input → Prop where
  | pathEvent {shuttingDown : Bool} {env : Controller.ReconcileEnv} {e : Controller.PathEvent}
      {path status : String} (samePath : pathNames.parse path = PathName.ofCode e.path)
      (sameStatus : pathStatusNames.parse status = PathStatus.ofCode e.status) :
      InputMatches origin ⟨shuttingDown, env, .pathEvent e⟩ (.pathEvent path status)
  | control {shuttingDown : Bool} {env : Controller.ReconcileEnv}
      {cmd : Controller.ControlCommand} {component action : String}
      (sameComponent : componentNames.parse component = ControlComponent.ofCode cmd.component)
      (sameAction : actionNames.parse action = ControlAction.ofCode cmd.action) :
      InputMatches origin ⟨shuttingDown, env, .control cmd⟩ (.control component action)
  | stageEvent {shuttingDown : Bool} {env : Controller.ReconcileEnv} {e : Controller.StageEvent}
      {stage state : String} (sameStage : stageNames.parse stage = StageName.ofCode e.stage)
      (sameState : stageStateNames.parse state = StageState.ofCode e.state) :
      InputMatches origin ⟨shuttingDown, env, .stageEvent e⟩ (.stageEvent stage state)
  | reconcile {env : Controller.ReconcileEnv} {goEnv : ReconcileEnv} {order : List String}
      (same : EnvMatches origin env goEnv)
      (visits : order.Perm (StageName.all.map stageNames.name)) :
      InputMatches origin ⟨false, env, .reconcile⟩ (.reconcile order goEnv)
  | teardown {shuttingDown : Bool} {env : Controller.ReconcileEnv} {order : List String}
      (visits : order.Perm (StageName.all.map stageNames.name)) :
      InputMatches origin ⟨shuttingDown, env, .teardown⟩ (.teardown order)

/-- Both succeed or both fail, and they fire the same operations. -/
def AnswerMatches (answer : Result × List Job)
    (goAnswer : Except Error Unit × List (String × String)) : Prop :=
  (answer.1 = .ok () ↔ goAnswer.1 = .ok ()) ∧ (answer.2.map jobNames).Perm goAnswer.2

/-- One action of the C controller. -/
def portAct (cfg : Config) (c : Core) (q : QueueStep) : Core × Result × List Job :=
  runAction cfg q.shuttingDown q.env c q.action

/-- A handler that fires nothing. -/
theorem Agree.act {r : Core × Result} {r' : Controller × Except Error Unit}
    (agree : Agree origin cfg r r') :
    Corresponds origin cfg r.1 r'.1 ∧ AnswerMatches (r.2, []) (r'.2, []) :=
  ⟨agree.state, agree.outcome, .refl _⟩

/-- **One input.** -/
theorem act_agree (h : Corresponds origin cfg c g) {q : QueueStep} {input : Input}
    (same : InputMatches origin q input) :
    Corresponds origin cfg (portAct cfg c q).1 (act g input).1 ∧
      AnswerMatches (portAct cfg c q).2 (act g input).2 := by
  cases same with
  | pathEvent samePath sameStatus => exact (handlePathEvent_agree h samePath sameStatus).act
  | control sameComponent sameAction => exact (handleControl_agree h sameComponent sameAction).act
  | stageEvent sameStage sameState => exact (handleStageEvent_agree h sameStage sameState).act
  | reconcile same visits =>
    obtain ⟨state, fired⟩ := handleReconcile_agree h same visits
    dsimp only [portAct, runAction, act]
    exact ⟨state, iff_of_true rfl rfl, fired⟩
  | teardown visits =>
    dsimp only [portAct, runAction, act]
    refine (Agree.ok ?_).act
    rw [teardown_foldl_eq_sweep, goTeardown_foldl_eq_sweep]
    refine (sweep_agree h (fun st => teardownEffect_agree st (c.stages st)) ?_ visits).1.notify
    intro st
    unfold teardownEffect
    split
    · exact Int.le_refl 0
    · exact h.marks st

/-- **The C port refines the Go controller.** From corresponding states, on every sequence of
inputs, both succeed or fail on the same inputs and fire the same operations in each pass, and they
end with the same paths, statuses and stages in flight. -/
theorem port_refines_oracle (start : Corresponds origin cfg c g) {qs : List QueueStep}
    {inputs : List Input} (same : List.Forall₂ (InputMatches origin) qs inputs) :
    List.Forall₂ AnswerMatches (answers (portAct cfg) c qs).2 (answers act g inputs).2 ∧
    handleStatus (answers act g inputs).1 =
      goStatus (Controller.handleStatus (answers (portAct cfg) c qs).1) ∧
    ∀ st, ∃ stage, (answers act g inputs).1.stages (stageNames.name st) = some stage ∧
      (stage.inFlight = true ↔
        ((answers (portAct cfg) c qs).1.stages st).inFlightSince ≠ 0) := by
  obtain ⟨last, agreed⟩ := answers_lockstep (f := portAct cfg) (g := act)
    (R := Corresponds origin cfg) (O := AnswerMatches)
      (fun related input => act_agree related input)
    start same
  exact ⟨agreed, last.status, fun st => ⟨_, last.stage st, goStage_inFlight_iff last st⟩⟩

/-! ## Every configuration has a counterpart -/

/-- The status that a snapshot of Go shows. -/
def readStatus (status : ControllerStatus) : Controller.ControllerStatus where
  paths path := ((status.paths (pathNames.name path)).bind pathStatusNames.parse).getD .unknown
  stages st :=
    let shown := status.stages (stageNames.name st)
    { desired := (shown.bind fun s => stageStateNames.parse s.desired).getD .stopped
      actual := (shown.bind fun s => stageStateNames.parse s.actual).getD .stopped }

@[simp] theorem readStatus_goStatus (status : Controller.ControllerStatus) :
    readStatus (goStatus status) = status := by
  apply Controller.ControllerStatus.ext
  · funext path
    simp [readStatus, goStatus]
  · funext st
    simp [readStatus, goStatus, goStageStatus]

def goTarget {κ : Type} (route : Route κ) : StageTarget where
  stage := stageNames.name route.targetStage
  state := stageStateNames.name route.targetState
  prerequisite := route.prerequisite.map fun p status =>
    if p (readStatus status) = 0 then none else some "prerequisite"

def goController (origin : ℕ) (cfg : Config) (c : Core) : Controller where
  paths := pathNames.map fun path => pathStatusNames.name (c.paths path)
  stages := stageNames.map fun st => goStage origin cfg st (c.stages st)
  pathEventRoutes key :=
    ((pathNames.parse key.1).bind fun p => (pathStatusNames.parse key.2).bind fun s =>
      cfg.pathRoutes.find (p, s)).map goTarget
  commandRoutes key :=
    ((componentNames.parse key.1).bind fun p => (actionNames.parse key.2).bind fun a =>
      cfg.controlRoutes.find (p, a)).map goTarget
  inflightTimeout := cfg.inflightTimeoutMs * nsPerMs
  listeners := c.listeners
  calls := c.calls.map fun call => (call.1, goStatus call.2)

theorem rel_map_goTarget (found : Option (Route κ)) :
    Option.Rel TargetMatches found (found.map goTarget) := by
  cases found with
  | none => exact .none
  | some route =>
    refine .some ⟨rfl, rfl, fun status => ?_⟩
    rcases asked : route.prerequisite with _ | p
    · simp [goTarget, asked]
    · simp [goTarget, asked]

/-- An accepted configuration, with a timeout that is a duration, corresponds to
a Go controller. -/
theorem corresponds_goController {raw : Controller.ControllerConfig}
    (accepted : Controller.controllerNew raw = .ok (cfg, c)) (origin : ℕ)
    (fits : cfg.inflightTimeoutMs * nsPerMs ≤ maxDuration) :
    Corresponds origin cfg c (goController origin cfg c) where
  paths := rfl
  stages := rfl
  marks st := Int.le_of_eq ((Controller.controllerNew_fresh accepted).inFlight st).symm
  pathRoutes _ _ := rel_map_goTarget _
  controlRoutes _ _ := rel_map_goTarget _
  timeout := rfl
  timeoutFits := fits
  listeners := rfl
  calls := rfl

/-- Two passes around an event with a route and an event of an unknown stage,
and the teardown. -/
def bootSteps : List QueueStep :=
  [.reconcile, .pathEvent ⟨0, 1⟩, .stageEvent ⟨7, 1⟩, .reconcile, .teardown].map
    Controller.plainStep

/-- The same inputs in Go, which visits the stages in another order. -/
def bootInputs : List Input :=
  let order := (StageName.all.map stageNames.name).reverse
  let env : ReconcileEnv := ⟨fun _ => 1000000, fun _ => 1000000⟩
  [.reconcile order env, .pathEvent "ingress0" "ready", .stageEvent "encoder" "running",
    .reconcile order env, .teardown order]

theorem bootInputs_match : List.Forall₂ (InputMatches 0) bootSteps bootInputs := by
  have visits := List.reverse_perm (StageName.all.map stageNames.name)
  have clock : EnvMatches 0 ⟨fun _ => 1, fun _ => 1, fun _ => .launched⟩
      ⟨fun _ => 1000000, fun _ => 1000000⟩ :=
    ⟨fun _ => rfl, fun _ => rfl, fun _ => Int.one_pos, fun _ => rfl⟩
  exact .cons (.reconcile clock visits) <| .cons (.pathEvent rfl rfl) <|
    .cons (.stageEvent rfl rfl) <| .cons (.reconcile clock visits) <| .cons (.teardown visits) .nil

/-- The program and its Go counterpart on these inputs. -/
theorem port_refines_oracle_boot :
    ∃ cfg, Controller.controllerNew (Controller.runConfig false 1000 16) =
        .ok (cfg, Controller.runCore) ∧
      Corresponds 0 cfg Controller.runCore (goController 0 cfg Controller.runCore) ∧
      List.Forall₂ AnswerMatches (answers (portAct cfg) Controller.runCore bootSteps).2
        (answers act (goController 0 cfg Controller.runCore) bootInputs).2 := by
  obtain ⟨cfg, accepted, -, timeout, -⟩ :=
    Controller.controllerNew_run false 1000 16 (by decide) (by decide)
  have fits : cfg.inflightTimeoutMs * nsPerMs ≤ maxDuration := by
    rw [timeout]
    decide
  have start := corresponds_goController accepted 0 fits
  exact ⟨cfg, accepted, start, (port_refines_oracle start bootInputs_match).1⟩

end Strimserver.Oracle
