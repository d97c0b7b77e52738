import Strimserver.Controller.Handlers

/-!
# Construction

`strim_controller_new` and the validation of the route tables. A configuration
arrives with raw enumeration values and is accepted when every check of the
source passes. What is accepted is a `Config` together with the first state: no
stage is in flight, every generation is zero and no listener is registered.

The source allocates the controller, the copies of the route tables and the
worker pool; allocation and thread creation succeed here.
-/

namespace Strimserver.Controller

open List

/-! ## Construction parameters -/

/-- `strim_route` as it is passed in. -/
structure RouteConfig where
  (path pathStatus component action : ℕ)
  kind : ℤ
  targetStage : ℕ
  targetState : ℕ
  prerequisite : Option Prerequisite

/-- `strim_stage_config`; an operation is `true` when its pointer is not
`NULL`. -/
structure StageConfig where
  (name desired actual : ℕ)
  startOp : Bool
  stopOp : Bool

/-- `strim_controller_config`. The two arrays of routes are lists, and the
arrays indexed by an enumeration are functions on it. -/
structure ControllerConfig where
  initialPaths : PathName → ℕ
  stages : StageName → StageConfig
  pathRoutes : List RouteConfig
  controlRoutes : List RouteConfig
  inflightTimeoutMs : ℤ
  actionsBufferSize : ℕ

/-- `STRIM_ROUTE_PATH_EVENT`. -/
def routePathEvent : ℤ := 0

/-- `STRIM_ROUTE_CONTROL`. -/
def routeControl : ℤ := 1

/-- `stage_op_for` on the configured stages. -/
def ControllerConfig.stageOpFor (raw : ControllerConfig) (st : StageName) : StageState → Bool
  | .running => (raw.stages st).startOp
  | .stopped => (raw.stages st).stopOp

/-! ## Validation of the route tables -/

/-- The checks of a path-event route on its kind and key. -/
def parsePathKey (r : RouteConfig) : Option PathKey :=
  if r.kind ≠ routePathEvent then none
  else (PathName.ofCode r.path).bind fun path =>
    (PathStatus.ofCode r.pathStatus).map fun status => (path, status)

/-- The checks of a control route on its kind and key. -/
def parseControlKey (r : RouteConfig) : Option ControlKey :=
  if r.kind ≠ routeControl then none
  else (ControlComponent.ofCode r.component).bind fun component =>
    (ControlAction.ofCode r.action).map fun action => (component, action)

/-- A route whose key and target pass their range checks. -/
def parseRoute {κ : Type} (parseKey : RouteConfig → Option κ) (r : RouteConfig) :
    Option (Route κ) :=
  (parseKey r).bind fun key =>
    (StageName.ofCode r.targetStage).bind fun st =>
      (StageState.ofCode r.targetState).map fun state => ⟨key, st, state, r.prerequisite⟩

/-- One more route, refused when its target has no operation or its key is
already taken. -/
def RouteTable.add {κ : Type} [DecidableEq κ] {hasOp : StageName → StageState → Bool}
    (table : RouteTable κ hasOp) (route : Route κ) : Except CtrlErr (RouteTable κ hasOp) :=
  if op : hasOp route.targetStage route.targetState = true then
    if fresh : route.key ∉ table.routes.map Route.key then
      .ok {
        routes := table.routes ++ [route]
        keysNodup := by
          rw [map_append, map_singleton]
          exact nodup_append.mpr ⟨table.keysNodup, nodup_singleton _, by
            intro a ha b hb same
            rw [mem_singleton] at hb
            exact fresh (hb ▸ same ▸ ha)⟩
        targetsHaveOps := by
          intro r member
          rcases mem_append.mp member with before | last
          · exact table.targetsHaveOps r before
          · rw [mem_singleton] at last
            exact last ▸ op }
    else .error .badArg
  else .error .badArg

/-- `validate_and_copy_routes`. -/
def validateAndCopyRoutes {κ : Type} [DecidableEq κ] (hasOp : StageName → StageState → Bool)
    (parseKey : RouteConfig → Option κ) (src : List RouteConfig) :
    Except CtrlErr (RouteTable κ hasOp) :=
  src.foldlM (fun table r =>
    match parseRoute parseKey r with
    | none => .error .badArg
    | some route => table.add route) (RouteTable.empty κ hasOp)

/-! ## The constructor -/

/-- The paths with their seeded statuses, all of them valid. -/
def parsePaths (raw : ControllerConfig) : Option (PathName → PathStatus) :=
  (PathStatus.ofCode (raw.initialPaths .ingress0)).bind fun ingress0 =>
    (PathStatus.ofCode (raw.initialPaths .normalized)).map fun normalized =>
      fun
        | .ingress0 => ingress0
        | .normalized => normalized

/-- A stage with its seeded status; the entry must be the one of its index. -/
def parseStage (raw : ControllerConfig) (st : StageName) : Option Stage :=
  let sc := raw.stages st
  if sc.name ≠ st.code then none
  else (StageState.ofCode sc.desired).bind fun desired =>
    (StageState.ofCode sc.actual).map fun actual =>
      { status := { desired, actual }, inFlightSince := 0, opGeneration := 0 }

/-- All stages, in the order of their indices. -/
def parseStages (raw : ControllerConfig) : Option (StageName → Stage) :=
  (parseStage raw .mediaMtx).bind fun mediaMtx =>
    (parseStage raw .normalize).bind fun normalize =>
      (parseStage raw .scaleAndEgress).bind fun scaleAndEgress =>
        (parseStage raw .singleStageEgress).map fun singleStageEgress =>
          fun
            | .mediaMtx => mediaMtx
            | .normalize => normalize
            | .scaleAndEgress => scaleAndEgress
            | .singleStageEgress => singleStageEgress

/-- `strim_controller_new`. -/
def controllerNew (raw : ControllerConfig) : Except CtrlErr (Config × Core) :=
  if timeout : raw.inflightTimeoutMs ≤ 0 then .error .badArg
  else if raw.actionsBufferSize = 0 then .error .badArg
  else
    match parsePaths raw, parseStages raw with
    | some paths, some stages => do
        let pathRoutes ← validateAndCopyRoutes raw.stageOpFor parsePathKey raw.pathRoutes
        let controlRoutes ← validateAndCopyRoutes raw.stageOpFor parseControlKey raw.controlRoutes
        return (
          { stageOpFor := raw.stageOpFor
            pathRoutes
            controlRoutes
            inflightTimeoutMs := raw.inflightTimeoutMs
            timeoutPos := Int.not_le.mp timeout },
          { paths, stages, listeners := [], calls := [] })
    | _, _ => .error .badArg

/-- The state that construction leaves: nothing in flight, generations at zero,
no listeners. -/
structure Fresh (c : Core) : Prop where
  inFlight : ∀ st, (c.stages st).inFlightSince = 0
  generation : ∀ st, (c.stages st).opGeneration = 0
  listeners : c.listeners = []

variable {raw : ControllerConfig}

theorem parseStage_fresh {st : StageName} {stage : Stage}
    (parsed : parseStage raw st = some stage) :
    stage.inFlightSince = 0 ∧ stage.opGeneration = 0 := by
  unfold parseStage at parsed
  dsimp only at parsed
  split at parsed
  · cases parsed
  rw [Option.bind_eq_some_iff] at parsed
  obtain ⟨desired, _, parsed⟩ := parsed
  rw [Option.map_eq_some_iff] at parsed
  obtain ⟨actual, _, rfl⟩ := parsed
  exact ⟨rfl, rfl⟩

theorem parseStages_some {stages : StageName → Stage} (parsed : parseStages raw = some stages)
    (st : StageName) : parseStage raw st = some (stages st) := by
  unfold parseStages at parsed
  simp only [Option.bind_eq_some_iff, Option.map_eq_some_iff] at parsed
  obtain ⟨_, first, _, second, _, third, _, fourth, rfl⟩ := parsed
  cases st with
  | mediaMtx => exact first
  | normalize => exact second
  | scaleAndEgress => exact third
  | singleStageEgress => exact fourth

/-- What an accepted configuration is built from. -/
theorem controllerNew_ok {cfg : Config} {c : Core} (accepted : controllerNew raw = .ok (cfg, c)) :
    cfg.stageOpFor = raw.stageOpFor ∧ parseStages raw = some c.stages ∧ c.listeners = [] := by
  unfold controllerNew at accepted
  split_ifs at accepted
  cases parsedPaths : parsePaths raw with
  | none =>
    rw [parsedPaths] at accepted
    cases accepted
  | some =>
    cases parsedStages : parseStages raw with
    | none =>
      rw [parsedPaths, parsedStages] at accepted
      cases accepted
    | some =>
      rw [parsedPaths, parsedStages] at accepted
      cases hp : validateAndCopyRoutes raw.stageOpFor parsePathKey raw.pathRoutes with
      | error =>
        rw [hp] at accepted
        cases accepted
      | ok =>
        cases hc : validateAndCopyRoutes raw.stageOpFor parseControlKey raw.controlRoutes with
        | error =>
          rw [hp, hc] at accepted
          cases accepted
        | ok =>
          rw [hp, hc] at accepted
          cases accepted
          exact ⟨rfl, rfl, rfl⟩

/-- **An accepted configuration starts fresh.** -/
theorem controllerNew_fresh {cfg : Config} {c : Core}
    (accepted : controllerNew raw = .ok (cfg, c)) : Fresh c := by
  obtain ⟨-, parsed, listeners⟩ := controllerNew_ok accepted
  exact {
    inFlight := fun st => (parseStage_fresh (parseStages_some parsed st)).1
    generation := fun st => (parseStage_fresh (parseStages_some parsed st)).2
    listeners := listeners }

end Strimserver.Controller
