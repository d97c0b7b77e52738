import Strimserver.Controller.New

/-!
# The configuration of the program

The controller that `run` in `main.c` constructs: every stage has a start and a
stop operation, the first stage is desired running and all others are stopped,
and the routes depend on the pipeline mode. The in-flight timeout and the size
of the action buffer come from the environment.
-/

namespace Strimserver.Controller

def prereqIngress0Ready : Prerequisite := fun status =>
  if status.paths .ingress0 = .ready then 0 else -1

/-- A path-event route of `run`; the fields of the other kind are unset. -/
def runPathRoute (pathStatus targetState : ℕ) : RouteConfig where
  path := 0
  pathStatus := pathStatus
  component := 0
  action := 0
  kind := routePathEvent
  targetStage := 1
  targetState := targetState
  prerequisite := none

/-- A control route of `run`. -/
def runControlRoute (singleStage : Bool) (action targetState : ℕ)
    (prerequisite : Option Prerequisite) : RouteConfig where
  path := 0
  pathStatus := 0
  component := 0
  action := action
  kind := routeControl
  targetStage := if singleStage then 3 else 2
  targetState := targetState
  prerequisite := prerequisite

/-- The construction parameters of `run`. -/
def runConfig (singleStage : Bool) (inflightTimeoutMs : ℤ) (actionsBufferSize : ℕ) :
    ControllerConfig where
  initialPaths := fun _ => 0
  stages := fun
    | .mediaMtx => ⟨0, 1, 0, true, true⟩
    | .normalize => ⟨1, 0, 0, true, true⟩
    | .scaleAndEgress => ⟨2, 0, 0, true, true⟩
    | .singleStageEgress => ⟨3, 0, 0, true, true⟩
  pathRoutes := if singleStage then [] else [runPathRoute 1 1, runPathRoute 2 0]
  controlRoutes := [runControlRoute singleStage 0 1 (some prereqIngress0Ready),
    runControlRoute singleStage 1 0 none]
  inflightTimeoutMs := inflightTimeoutMs
  actionsBufferSize := actionsBufferSize

/-- The state that `run` starts from. -/
def runCore : Core where
  paths := fun _ => .unknown
  stages := fun
    | .mediaMtx => ⟨⟨.running, .stopped⟩, 0, 0⟩
    | .normalize => ⟨⟨.stopped, .stopped⟩, 0, 0⟩
    | .scaleAndEgress => ⟨⟨.stopped, .stopped⟩, 0, 0⟩
    | .singleStageEgress => ⟨⟨.stopped, .stopped⟩, 0, 0⟩
  listeners := []
  calls := []

variable (singleStage : Bool) (timeout : ℤ) (size : ℕ)

theorem parsePaths_run : parsePaths (runConfig singleStage timeout size) = some runCore.paths := by
  simp only [parsePaths, runConfig, PathStatus.ofCode, Option.bind_some, Option.map_some]
  congr 1
  funext path
  cases path <;> rfl

theorem parseStages_run :
    parseStages (runConfig singleStage timeout size) = some runCore.stages := by
  simp only [parseStages, parseStage, runConfig, StageName.code, ne_eq, not_true_eq_false,
    ↓reduceIte, StageState.ofCode, Option.bind_some, Option.map_some]
  congr 1

/-- The path-event routes of `run`: the first path drives the second stage, and
with a single stage there is none. -/
def runPathRoutes (singleStage : Bool) : List (Route PathKey) :=
  if singleStage then []
  else [⟨(.ingress0, .ready), .normalize, .running, none⟩,
    ⟨(.ingress0, .notReady), .normalize, .stopped, none⟩]

/-- **The configuration of the program is accepted**, for every positive timeout
and every buffer size that is not zero. -/
theorem controllerNew_run (positive : 0 < timeout) (nonzero : size ≠ 0) :
    ∃ cfg, controllerNew (runConfig singleStage timeout size) = .ok (cfg, runCore) ∧
      (∀ st state, cfg.stageOpFor st state = true) ∧ cfg.inflightTimeoutMs = timeout ∧
      cfg.pathRoutes.routes = runPathRoutes singleStage := by
  have ops : ∀ st state, (runConfig singleStage timeout size).stageOpFor st state = true := by
    intro st state
    cases st <;> cases state <;> rfl
  have pathRoutes : ∃ table, validateAndCopyRoutes
      (runConfig singleStage timeout size).stageOpFor parsePathKey
      (runConfig singleStage timeout size).pathRoutes = .ok table ∧
        table.routes = runPathRoutes singleStage := by
    cases singleStage <;> exact ⟨_, rfl, rfl⟩
  have controlRoutes : ∃ table, validateAndCopyRoutes
      (runConfig singleStage timeout size).stageOpFor parseControlKey
      (runConfig singleStage timeout size).controlRoutes = .ok table := by
    cases singleStage <;> exact ⟨_, rfl⟩
  obtain ⟨pathTable, paths, routes⟩ := pathRoutes
  obtain ⟨controlTable, controls⟩ := controlRoutes
  refine ⟨{
    stageOpFor := (runConfig singleStage timeout size).stageOpFor
    pathRoutes := pathTable
    controlRoutes := controlTable
    inflightTimeoutMs := timeout
    timeoutPos := positive }, ?_, ops, rfl, routes⟩
  have notLe : ¬ (runConfig singleStage timeout size).inflightTimeoutMs ≤ 0 :=
    Int.not_le.mpr positive
  have notZero : ¬ (runConfig singleStage timeout size).actionsBufferSize = 0 := nonzero
  unfold controllerNew
  rw [dif_neg notLe, if_neg notZero, parsePaths_run, parseStages_run]
  rw [paths, controls]
  rfl

end Strimserver.Controller
