import Mathlib.Algebra.Group.Int.Defs
import Mathlib.Data.List.Nodup

/-!
# The data of the controller state machine

The enumerations, events, routes and construction parameters of `controller.h`.

An event or a configuration arrives with raw enumeration values: a C object of
an enumeration type can hold any value, and the handlers check the ones they
receive. A raw value is a natural number here, the value the source compares
after its cast to `unsigned`. `ofCode` is the range check together with the
reading of a value in range, so that everything stored behind a check has the
enumeration itself as its type. `STRIM_STAGE_NO_TARGET` is a value that
`valid_stage_state` refuses, so it is a code and not a `StageState`.

The checks of `strim_controller_new` are carried by the values it builds: a
`RouteTable` has distinct keys and an operation behind every target, and a
`Config` has a positive in-flight timeout.
-/

namespace Strimserver.Controller

/-! ## Enumerations -/

/-- `strim_path_status`. -/
inductive PathStatus where
  | unknown | ready | notReady
  deriving DecidableEq, Repr

/-- The stored values of `strim_stage_state`. -/
inductive StageState where
  | stopped | running
  deriving DecidableEq, Repr

/-- `strim_path_name`. -/
inductive PathName where
  | ingress0 | normalized
  deriving DecidableEq, Repr

/-- `strim_stage_name`. -/
inductive StageName where
  | mediaMtx | normalize | scaleAndEgress | singleStageEgress
  deriving DecidableEq, Repr

/-- `strim_control_component`. -/
inductive ControlComponent where
  | egress
  deriving DecidableEq, Repr

/-- `strim_control_action`. -/
inductive ControlAction where
  | start | stop
  deriving DecidableEq, Repr

/-- `valid_path_status`, and the status a valid value stands for. -/
def PathStatus.ofCode : ℕ → Option PathStatus
  | 0 => some .unknown
  | 1 => some .ready
  | 2 => some .notReady
  | _ => none

/-- `valid_stage_state`, and the state a valid value stands for. The value `2`
is `STRIM_STAGE_NO_TARGET`. -/
def StageState.ofCode : ℕ → Option StageState
  | 0 => some .stopped
  | 1 => some .running
  | _ => none

/-- The check `path >= STRIM_PATH_NAME_COUNT`. -/
def PathName.ofCode : ℕ → Option PathName
  | 0 => some .ingress0
  | 1 => some .normalized
  | _ => none

/-- The check `stage >= STRIM_STAGE_NAME_COUNT`. -/
def StageName.ofCode : ℕ → Option StageName
  | 0 => some .mediaMtx
  | 1 => some .normalize
  | 2 => some .scaleAndEgress
  | 3 => some .singleStageEgress
  | _ => none

/-- The check `component >= STRIM_COMPONENT_COUNT`. -/
def ControlComponent.ofCode : ℕ → Option ControlComponent
  | 0 => some .egress
  | _ => none

/-- The check `action >= STRIM_ACTION_COUNT`. -/
def ControlAction.ofCode : ℕ → Option ControlAction
  | 0 => some .start
  | 1 => some .stop
  | _ => none

/-- The value of a stage name, its index in the stage array. -/
def StageName.code : StageName → ℕ
  | .mediaMtx => 0
  | .normalize => 1
  | .scaleAndEgress => 2
  | .singleStageEgress => 3

/-- The stages in the order of their indices, as the loops over
`STRIM_STAGE_NAME_COUNT` visit them. -/
def StageName.all : List StageName := [.mediaMtx, .normalize, .scaleAndEgress, .singleStageEgress]

@[simp] theorem StageName.mem_all (st : StageName) : st ∈ StageName.all := by cases st <;> decide

theorem StageName.all_nodup : StageName.all.Nodup := by decide

/-! ## Error codes -/

/-- The negative return codes `STRIM_CTRL_ERR_*`. -/
inductive CtrlErr where
  | badArg | unknown | prereq | closed | noMem
  deriving DecidableEq, Repr

/-- The return value of a handler: zero, or an error code. -/
abbrev Result := Except CtrlErr Unit

/-! ## Status, events and listeners -/

/-- `strim_stage_status`. -/
structure StageStatus where
  desired : StageState
  actual : StageState
  deriving DecidableEq, Repr

/-- `strim_controller_status`, the snapshot that is pushed to listeners. -/
@[ext] structure ControllerStatus where
  paths : PathName → PathStatus
  stages : StageName → StageStatus

/-- `strim_path_event`, with the raw values it arrives with. -/
structure PathEvent where
  path : ℕ
  status : ℕ
  deriving DecidableEq, Repr

/-- `strim_stage_event`, with the raw values it arrives with. -/
structure StageEvent where
  stage : ℕ
  state : ℕ
  deriving DecidableEq, Repr

/-- `strim_control_command`, with the raw values it arrives with. -/
structure ControlCommand where
  component : ℕ
  action : ℕ
  deriving DecidableEq, Repr

/-- A registered callback and its user data. Both are pointers that are only
stored, compared and called; a callback of `0` is `NULL`. -/
structure Listener where
  fn : ℕ
  userdata : ℕ
  deriving DecidableEq, Repr

/-- `STRIM_CTRL_MAX_LISTENERS`. -/
def maxListeners : ℕ := 16

/-! ## Routes -/

/-- A `strim_prerequisite_fn` with its user data: it reads the status and
returns zero to allow the transition. -/
abbrev Prerequisite := ControllerStatus → ℤ

/-- The routes one `kind` of `strim_route` describes, by their key. -/
structure Route (κ : Type) where
  key : κ
  targetStage : StageName
  targetState : StageState
  prerequisite : Option Prerequisite

/-- What a route for a path matches. -/
abbrev PathKey := PathName × PathStatus

/-- What a route for a command matches. -/
abbrev ControlKey := ControlComponent × ControlAction

/-- A validated route table: the keys are distinct and every target has an
operation. -/
structure RouteTable (κ : Type) (hasOp : StageName → StageState → Bool) where
  routes : List (Route κ)
  keysNodup : (routes.map Route.key).Nodup
  targetsHaveOps : ∀ route ∈ routes, hasOp route.targetStage route.targetState = true

/-- `find_path_event_route` and `find_control_route`: the first route with the
key. -/
def RouteTable.find {κ : Type} [DecidableEq κ] {hasOp : StageName → StageState → Bool}
    (table : RouteTable κ hasOp) (key : κ) : Option (Route κ) :=
  table.routes.find? fun route => decide (route.key = key)

def RouteTable.empty (κ : Type) (hasOp : StageName → StageState → Bool) : RouteTable κ hasOp where
  routes := []
  keysNodup := List.nodup_nil
  targetsHaveOps := by simp

/-- The keys are distinct, so the first route with a key is the only one. -/
theorem RouteTable.find_eq_some_iff {κ : Type} [DecidableEq κ]
    {hasOp : StageName → StageState → Bool} (table : RouteTable κ hasOp) (key : κ)
    (route : Route κ) : table.find key = some route ↔ route ∈ table.routes ∧ route.key = key := by
  constructor
  · intro found
    exact ⟨List.mem_of_find?_eq_some found, by simpa using List.find?_some found⟩
  rintro ⟨mem, rfl⟩
  have present : (table.find route.key).isSome = true := List.find?_isSome.mpr ⟨route, mem, by simp⟩
  obtain ⟨other, found⟩ := Option.isSome_iff_exists.mp present
  have same : other = route :=
    List.inj_on_of_nodup_map table.keysNodup (List.mem_of_find?_eq_some found) mem
      (by simpa using List.find?_some found)
  rw [found, same]

/-! ## What the controller keeps after construction -/

/-- The parts of `strim_controller` that no handler changes: which operations
are present, the two route tables and the in-flight timeout. -/
structure Config where
  /-- `stage_op_for` returns a non-`NULL` operation. -/
  stageOpFor : StageName → StageState → Bool
  pathRoutes : RouteTable PathKey stageOpFor
  controlRoutes : RouteTable ControlKey stageOpFor
  inflightTimeoutMs : ℤ
  timeoutPos : 0 < inflightTimeoutMs

/-- The parts of `strim_stage` that the handlers change. -/
structure Stage where
  status : StageStatus
  /-- Zero when no operation is in flight. -/
  inFlightSince : ℤ
  /-- The fire generation, a 64-bit counter. -/
  opGeneration : UInt64
  deriving DecidableEq

/-- The state of `strim_controller` that the queue thread owns. `calls` records
every invocation of a listener, the newest first. -/
structure Core where
  paths : PathName → PathStatus
  stages : StageName → Stage
  listeners : List Listener
  calls : List (Listener × ControllerStatus)

/-- A stage is changed. -/
def Core.setStage (c : Core) (st : StageName) (stage : Stage) : Core :=
  { c with stages := Function.update c.stages st stage }

@[simp] theorem Core.setStage_self (c : Core) (st : StageName) (stage : Stage) :
    (c.setStage st stage).stages st = stage := by simp [Core.setStage]

theorem Core.setStage_of_ne (c : Core) {st other : StageName} (stage : Stage)
    (ne : other ≠ st) : (c.setStage st stage).stages other = c.stages other := by
  simp [Core.setStage, ne]

end Strimserver.Controller
