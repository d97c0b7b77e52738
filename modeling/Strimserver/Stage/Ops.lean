import Strimserver.Containerd.Cdi
import Strimserver.Controller.Types

/-!
# The operations of a stage

`stage_stop_op`, `stage_start_op` and `run_stage_op`: programs that ask whether they are superseded,
call the containerd client and the CDI module, and run a thread that waits for a task. What the
calls do is left to the modules that run the programs.

A call of the client that fails has a code other than zero. The thread is created and joined by
calls of its own; its wait is a call of the client that has returned when the thread is joined.
-/

namespace Strimserver.Stage

open Library Oci Containerd Controller

/-! ## Calls -/

/-- The calls of the client that an operation makes itself. -/
inductive ClientCall where
  | loadContainer (id : Octets)
  | newContainer (id snapshotId imageName : Octets) (spec : Spec)
  | newTask (container : Container) (logfile : Octets)
  | loadTask (container : Container)
  | taskStart (task : Task)
  | taskKill (task : Task) (signum : ℕ)
  | taskDelete (task : Task) (force : Bool)
  | deleteContainer (container : Container) (cleanupSnapshot : Bool)

/-- What a call of the client returns when it succeeds. -/
def ClientCall.Result : ClientCall → Type
  | loadContainer _ | newContainer .. => Container
  | newTask .. | loadTask _ => Task
  | taskStart _ | taskKill .. | taskDelete .. | deleteContainer .. => Unit

/-- What a program of a stage does. -/
inductive Call where
  | superseded
  | remainingMs
  | client (call : ClientCall)
  /-- `pthread_create` of `task_wait_thread`. -/
  | createWaiter (task : Task) (timeoutMs : ℤ)
  /-- `pthread_join`, with what `strim_containerd_task_wait` returned. -/
  | joinWaiter (task : Task) (timeoutMs : ℤ)
  | cdiScan
  | cdiResolve (ref : CdiRef)
  | cdiMergeEdits (spec : Spec)
  /-- The operation returns to `run_stage_op`. -/
  | returned
  /-- `ACTION_CLEAR_INFLIGHT` is put on the queue. -/
  | enqueueClear

/-- What comes back. -/
def Reply : Call → Type
  | .superseded => Bool
  | .remainingMs => ℤ
  | .client call => Except Failure call.Result
  | .createWaiter .. => Bool
  | .joinWaiter .. => Except Failure ℤ
  | .cdiScan | .cdiResolve _ | .cdiMergeEdits _ => Except Failure Unit
  | .returned | .enqueueClear => Unit

/-- A program of the stage operations. -/
abbrev StageProg (α : Type) := Prog Call Reply α

/-! ## What an operation works on -/

/-- `strim_layout`. -/
structure Layout where
  (env transcode notify mediamtxTmpl srtPass videoDir resolvConf tmp : Option Octets)

/-- `strim_stage_ops`. -/
structure StageOps where
  /-- The client is there. -/
  client : Bool
  (containerId snapshotId imageName logfile : Octets)
  ffmpeg : Bool
  layout : Layout
  stageTable : List (Octets × StageName)
  stageStopTimeoutMs : ℤ

/-- A mount of a list, from a path of the layout. -/
def mount (source : Option Octets) (destination : String) (readWrite : Bool) : Option Mount :=
  source.map fun source => ⟨source, ascii destination, readWrite⟩

/-- `strim_ffmpeg_mounts`, with room for the mounts. -/
def ffmpegMounts (layout : Layout) : Option (List Mount) :=
  [mount layout.env "/strimserver.env" false, mount layout.transcode "/transcode.sh" false,
    mount layout.resolvConf "/etc/resolv.conf" false, mount layout.tmp "/tmp" true].mapM id

/-- `strim_mediamtx_mounts`, with room for the mounts. -/
def mediamtxMounts (layout : Layout) : Option (List Mount) :=
  [mount layout.env "/strimserver.env" false,
    mount layout.mediamtxTmpl "/mediamtx.yaml.template" false, mount layout.notify "/notify" false,
    mount layout.srtPass "/run/secrets/srt-passphrase" false,
    mount layout.videoDir "/video-files" true, mount layout.tmp "/tmp" true].mapM id

/-- `STRIM_SPEC_ERR_BADARG`. -/
def specErrBadArg : ℤ := -1

/-- `strim_stage_name_to_string`. -/
def stageNameToString : StageName → Octets
  | .mediaMtx => ascii "mediamtx"
  | .normalize => ascii "normalize"
  | .scaleAndEgress => ascii "scale_and_egress"
  | .singleStageEgress => ascii "single_stage_egress"

/-- `strim_stage_argv`, with buffers of 64 octets. -/
def stageArgv (table : List (Octets × StageName)) (containerId : Octets) : Option (List Octets) :=
  let stage := ((table.find? fun entry => entry.1 = containerId).map fun entry =>
    stageNameToString entry.2).getD containerId
  if 64 ≤ stage.length then none else some [ascii "/transcode.sh", stage]

/-! ## Stopping -/

/-- `op_superseded_abort` and what comes behind it. -/
def unlessSuperseded (p : StageProg ℤ) : StageProg ℤ :=
  .call .superseded fun
    | true => .ret 0
    | false => p

/-- `op_rpc_budget`. -/
def opRpcBudget (remaining timeoutMs : ℤ) : ℤ :=
  if remaining < 0 then timeoutMs else if remaining < timeoutMs then remaining else timeoutMs

/-- The last call of `stage_stop_op`. -/
def deleteContainer (container : Container) : StageProg ℤ :=
  .call (.client (.deleteContainer container true)) fun
    | .error rc => .ret rc
    | .ok () => .ret 0

/-- The last two calls. -/
def deleteTask (container : Container) (task : Task) (force : Bool) : StageProg ℤ :=
  .call (.client (.taskDelete task force)) fun
    | .error rc => .ret rc
    | .ok () => unlessSuperseded (deleteContainer container)

/-- `stage_stop_op` once the waiter has ended. -/
def afterWait (container : Container) (task : Task) : Except Failure ℤ → StageProg ℤ
  | .ok _ => deleteTask container task false
  | .error rc =>
    if rc.val = ctrdErrTimeout then deleteTask container task true
    else if rc.val = ctrdErrNotFound then unlessSuperseded (deleteContainer container)
    else .ret rc

/-- `SIGTERM`. -/
def sigTerm : ℕ := 15

/-- The signal, while the waiter runs. -/
def killTask (container : Container) (task : Task) (waitMs : ℤ) : StageProg ℤ :=
  .call (.client (.taskKill task sigTerm)) fun
    | .error rc => .call (.joinWaiter task waitMs) fun _ => .ret rc
    | .ok () =>
      .call (.joinWaiter task waitMs) fun waited =>
        unlessSuperseded (afterWait container task waited)

/-- `stage_stop_op` once the task is loaded. -/
def stopTask (ops : StageOps) (budgetMs : ℤ) (container : Container) (task : Task) : StageProg ℤ :=
  let waitMs := if 0 < budgetMs ∧ budgetMs < ops.stageStopTimeoutMs then budgetMs
    else ops.stageStopTimeoutMs
  .call (.createWaiter task waitMs) fun
    | false => .ret (-1)
    | true =>
      .call .superseded fun
        | true => .call (.joinWaiter task waitMs) fun _ => .ret 0
        | false => killTask container task waitMs

/-- `stage_stop_op` once the container is loaded. -/
def stopContainer (ops : StageOps) (budgetMs : ℤ) (container : Container) : StageProg ℤ :=
  .call (.client (.loadTask container)) fun
    | .error rc => if rc.val = ctrdErrNotFound then deleteContainer container else .ret rc
    | .ok task => unlessSuperseded (stopTask ops budgetMs container task)

/-- `stage_stop_op`. -/
def stageStopOp (ops : StageOps) (timeoutMs : ℤ) : StageProg ℤ :=
  if ops.client = true then
    unlessSuperseded <| .call .remainingMs fun remaining =>
      if opRpcBudget remaining timeoutMs ≤ 0 then .ret (-1)
      else
        .call (.client (.loadContainer ops.containerId)) fun
          | .error rc => if rc.val = ctrdErrNotFound then .ret 0 else .ret rc
          | .ok container =>
            unlessSuperseded (stopContainer ops (opRpcBudget remaining timeoutMs) container)
  else .ret (-1)

/-! ## Starting -/

/-- `STRIM_FFMPEG_CDI_DEVICE`, parsed. -/
def ffmpegCdiDevice : CdiRef := ⟨ascii "nvidia.com", ascii "gpu", ascii "0"⟩

/-- `prepare_ffmpeg_cdi` and what comes behind it. -/
def prepareFfmpegCdi (spec : Spec) (p : StageProg ℤ) : StageProg ℤ :=
  .call .cdiScan fun
    | .error _ => .ret (-1)
    | .ok () =>
      .call (.cdiResolve ffmpegCdiDevice) fun
        | .error _ => .ret (-1)
        | .ok () =>
          .call (.cdiMergeEdits spec) fun
            | .error _ => .ret (-1)
            | .ok () => p

/-- The spec of `stage_start_op`, before it has its mounts. -/
def stageSpec (args : List Octets) : Spec where
  process := ⟨args, [], [ascii "CAP_SYS_NICE"]⟩
  mounts := []
  hostNetwork := true
  cgroupsPath := none
  hooks := []

/-- `strim_containerd_task_start` of `stage_start_op`. -/
def startTask (task : Task) : StageProg ℤ :=
  .call (.client (.taskStart task)) fun
    | .error rc => .ret rc
    | .ok () => .ret 0

/-- `strim_containerd_new_task` of `stage_start_op`. -/
def createTask (ops : StageOps) (container : Container) : StageProg ℤ :=
  .call (.client (.newTask container ops.logfile)) fun
    | .error rc => .ret rc
    | .ok task => unlessSuperseded (startTask task)

/-- `stage_start_op` once the spec is complete. -/
def createContainer (ops : StageOps) (spec : Spec) : StageProg ℤ :=
  .call (.client (.newContainer ops.containerId ops.snapshotId ops.imageName spec)) fun
    | .error rc => .ret rc
    | .ok container => unlessSuperseded (createTask ops container)

def withMounts (ops : StageOps) (spec : Spec) : Option (List Mount) → StageProg ℤ
  | none => .ret specErrBadArg
  | some mounts => unlessSuperseded (createContainer ops { spec with mounts })

/-- `stage_start_op` once the stage is stopped. -/
def buildAndCreate (ops : StageOps) : StageProg ℤ :=
  if ops.ffmpeg = true then
    match stageArgv ops.stageTable ops.containerId with
    | none => .ret (-1)
    | some args =>
      prepareFfmpegCdi (stageSpec args) (withMounts ops (stageSpec args) (ffmpegMounts ops.layout))
  else withMounts ops (stageSpec []) (mediamtxMounts ops.layout)

/-- `stage_start_op`. -/
def stageStartOp (ops : StageOps) (timeoutMs : ℤ) : StageProg ℤ :=
  if ops.client = true then
    unlessSuperseded <| .call .remainingMs fun remaining =>
      if opRpcBudget remaining timeoutMs ≤ 0 then .ret (-1)
      else
        (stageStopOp ops (opRpcBudget remaining timeoutMs)).bind fun rc =>
          if rc ≠ 0 then .ret rc else unlessSuperseded (buildAndCreate ops)
  else .ret (-1)

/-! ## Running an operation -/

/-- `run_stage_op`. -/
def runStageOp (op : StageProg ℤ) : StageProg Unit :=
  op.bind fun err =>
    .call .returned fun _ =>
      if err = 0 then .ret ()
      else
        .call .superseded fun
          | true => .ret ()
          | false => .call .enqueueClear fun _ => .ret ()

/-! ## Properties of the operations -/

/-- How both operations begin: nothing is done without a client, for a superseded fire or without a
budget. -/
def budgeted (ops : StageOps) (timeoutMs : ℤ) (body : ℤ → StageProg ℤ) : StageProg ℤ :=
  if ops.client = true then
    unlessSuperseded <| .call .remainingMs fun remaining =>
      if opRpcBudget remaining timeoutMs ≤ 0 then .ret (-1)
      else body (opRpcBudget remaining timeoutMs)
  else .ret (-1)

/-- `stage_stop_op` within a budget. -/
def stopWithin (ops : StageOps) (budgetMs : ℤ) : StageProg ℤ :=
  .call (.client (.loadContainer ops.containerId)) fun
    | .error rc => if rc.val = ctrdErrNotFound then .ret 0 else .ret rc
    | .ok container => unlessSuperseded (stopContainer ops budgetMs container)

/-- `stage_start_op` once the stop has returned. -/
def startStopped (ops : StageOps) (rc : ℤ) : StageProg ℤ :=
  if rc ≠ 0 then .ret rc else unlessSuperseded (buildAndCreate ops)

theorem stageStopOp_budgeted (ops : StageOps) (timeoutMs : ℤ) :
    stageStopOp ops timeoutMs = budgeted ops timeoutMs (stopWithin ops) := rfl

theorem stageStartOp_budgeted (ops : StageOps) (timeoutMs : ℤ) : stageStartOp ops timeoutMs =
      budgeted ops timeoutMs fun budgetMs => (stageStopOp ops budgetMs).bind (startStopped ops) :=
      rfl

def Call.ofDevice : Call → Bool
  | cdiScan | cdiResolve _ | cdiMergeEdits _ => true
  | _ => false

/-- A property of programs that failures have, and that passes a look at the generation and some
plain calls. -/
structure Passes (plain : Call → Bool) (P : StageProg ℤ → Prop) : Prop where
  fails : ∀ {rc : ℤ}, rc ≠ 0 → P (.ret rc)
  looks : ∀ {p : StageProg ℤ}, P p → P (unlessSuperseded p)
  calls : ∀ {e : Call} {next : Reply e → StageProg ℤ}, plain e = true → (∀ r, P (next r)) →
    P (.call e next)

section

variable {plain : Call → Bool} {P : StageProg ℤ → Prop} {ops : StageOps}

theorem Passes.budgeted {timeoutMs : ℤ} {body : ℤ → StageProg ℤ} (passes : Passes plain P)
    (reads : plain .remainingMs = true) (within : ∀ budgetMs, P (body budgetMs)) :
    P (budgeted ops timeoutMs body) := by
  unfold Stage.budgeted
  split_ifs
  · refine passes.looks (passes.calls reads fun remaining => ?_)
    split_ifs
    · exact passes.fails (by decide)
    · exact within _
  · exact passes.fails (by decide)

theorem Passes.buildAndCreate (passes : Passes plain P)
    (scans : plain .cdiScan = true) (resolves : ∀ ref, plain (.cdiResolve ref) = true)
    (merges : ∀ spec, plain (.cdiMergeEdits spec) = true)
    (creates : ∀ spec, P (createContainer ops spec)) : P (buildAndCreate ops) := by
  have mounted : ∀ spec mounts, P (withMounts ops spec mounts) := by
    intro spec mounts
    cases mounts with
    | none => exact passes.fails (by decide)
    | some => exact passes.looks (creates _)
  unfold Stage.buildAndCreate
  split_ifs
  · cases stageArgv ops.stageTable ops.containerId with
    | none => exact passes.fails (by decide)
    | some =>
      refine passes.calls scans fun scanned => ?_
      cases scanned with
      | error => exact passes.fails (by decide)
      | ok _ =>
        refine passes.calls (resolves _) fun resolved => ?_
        cases resolved with
        | error => exact passes.fails (by decide)
        | ok _ =>
          refine passes.calls (merges _) fun merged => ?_
          cases merged with
          | error => exact passes.fails (by decide)
          | ok => exact mounted _ _
  · exact mounted _ _

end

/-! ## The calls of a stop -/

/-- The length of the wait within a budget. -/
def stopWait (ops : StageOps) (budgetMs : ℤ) : ℤ :=
  if 0 < budgetMs ∧ budgetMs < ops.stageStopTimeoutMs then budgetMs else ops.stageStopTimeoutMs

/-- The calls of a stop within its budget. -/
def Call.stops (waitMs : ℤ) : Call → Prop
  | superseded | joinWaiter .. => True
  | createWaiter _ timeoutMs => timeoutMs = waitMs
  | client (.newContainer ..) | client (.newTask ..) | client (.taskStart _) => False
  | client _ => True
  | _ => False

section

variable {allowed : Call → Prop}

theorem makes_unlessSuperseded (look : allowed .superseded) {p : StageProg ℤ}
    (makes : p.Makes allowed) : (unlessSuperseded p).Makes allowed := by
  refine ⟨look, fun found => ?_⟩
  cases found with
  | true => trivial
  | false => exact makes

/-- The rule for a call of the client whose failure ends the program. -/
theorem makes_client {call : ClientCall} {next : Reply (.client call) → StageProg ℤ}
    (allows : allowed (.client call)) (fails : ∀ rc, next (.error rc) = .ret rc.val)
    (passes : ∀ result, (next (.ok result)).Makes allowed) :
    Prog.Makes allowed (.call (.client call) next) := by
  refine ⟨allows, fun reply => ?_⟩
  cases reply with
  | error =>
    rw [fails]
    trivial
  | ok result => exact passes result

end

section

variable {waitMs : ℤ} (container : Container) (task : Task)

theorem deleteContainer_makes : (deleteContainer container).Makes (Call.stops waitMs) :=
  makes_client trivial (fun _ => rfl) fun _ => trivial

theorem deleteTask_makes (force : Bool) :
    (deleteTask container task force).Makes (Call.stops waitMs) :=
  makes_client trivial (fun _ => rfl) fun _ =>
    makes_unlessSuperseded trivial (deleteContainer_makes container)

theorem afterWait_makes (waited : Except Failure ℤ) :
    (afterWait container task waited).Makes (Call.stops waitMs) := by
  cases waited with
  | ok => exact deleteTask_makes container task false
  | error =>
    rw [afterWait]
    split_ifs
    · exact deleteTask_makes container task true
    · exact makes_unlessSuperseded trivial (deleteContainer_makes container)
    · trivial

theorem killTask_makes (timeoutMs : ℤ) :
    (killTask container task timeoutMs).Makes (Call.stops waitMs) := by
  refine ⟨trivial, fun reply => ?_⟩
  cases reply with
  | error => exact ⟨trivial, fun _ => trivial⟩
  | ok =>
    exact ⟨trivial, fun waited =>
      makes_unlessSuperseded trivial (afterWait_makes container task waited)⟩

theorem stopTask_makes (ops : StageOps) (budgetMs : ℤ) :
    (stopTask ops budgetMs container task).Makes (Call.stops (stopWait ops budgetMs)) := by
  refine ⟨rfl, fun created => ?_⟩
  cases created with
  | false => trivial
  | true =>
    refine ⟨trivial, fun found => ?_⟩
    cases found with
    | true => exact ⟨trivial, fun _ => trivial⟩
    | false => exact killTask_makes container task _

end

theorem stopWithin_makes (ops : StageOps) (budgetMs : ℤ) :
    (stopWithin ops budgetMs).Makes (Call.stops (stopWait ops budgetMs)) := by
  have loaded : ∀ container,
      (stopContainer ops budgetMs container).Makes (Call.stops (stopWait ops budgetMs)) := by
    refine fun container => ⟨trivial, fun reply => ?_⟩
    cases reply with
    | error =>
      dsimp only
      split_ifs
      · exact deleteContainer_makes container
      · trivial
    | ok task => exact makes_unlessSuperseded trivial (stopTask_makes container task ops budgetMs)
  refine ⟨trivial, fun reply => ?_⟩
  cases reply with
  | error =>
    dsimp only
    split_ifs <;> trivial
  | ok container => exact makes_unlessSuperseded trivial (loaded container)

end Strimserver.Stage
