import Strimserver.Containerd.Daemon
import Strimserver.Stage.Ops

/-!
# The snapshot of a stage

An operation of a stage, with its calls of the client run against the daemon. A start stops the
stage first, which removes the snapshot together with the container that holds it, and then
prepares the snapshot on the image as it is now. A snapshot that is there already is taken as it
is. `started_on_image_iff` says when a start that succeeds runs on the image that it has read.

The thread that waits for a task has a connection of its own and changes nothing here, so its
calls are answered in any way.
-/

namespace Strimserver.Stage

open Library Oci Containerd

/-! ## The world of an operation -/

def ClientCall.program (env : Env) :
    (call : ClientCall) → Client → ClientProg (Except ℤ call.Result)
  | loadContainer id => Containerd.loadContainer id
  | newContainer id snapshotId imageName spec =>
    Containerd.newContainer env id snapshotId imageName spec
  | newTask container logfile => Containerd.newTask container (some logfile)
  | loadTask container => Containerd.loadTask container
  | taskStart task => Containerd.taskStart task
  | taskKill task signum => Containerd.taskKill task signum
  | taskDelete task force => Containerd.taskDelete task force
  | deleteContainer container cleanupSnapshot =>
    Containerd.deleteContainer container cleanupSnapshot

/-- The daemon, what the operation has called so far, the client, and whether the operation was
told that it is superseded. -/
structure World where
  daemon : Daemon
  record : Record
  client : Client
  superseded : Bool

/-- A result of the client as an operation sees it. -/
def seenResult {α : Type} (reply : Except Failure α) : Except ℤ α := reply.mapError Subtype.val

def World.Answers (w : World) : (e : Call) → Reply e → World → Prop
  | .superseded, reply, w' => w' = { w with superseded := w.superseded || reply }
  | .client call, reply, w' =>
    w'.superseded = w.superseded ∧
      ∃ env, Prog.Runs Daemon.Answers (w.daemon, w.record) (call.program env w.client)
        (seenResult reply, w'.client) (w'.daemon, w'.record)
  | _, _, w' => w' = w

/-- An assertion about an operation that is not superseded. -/
def Live (P : Assertion) (w : World) : Prop := w.superseded = false → P w.daemon (blobs w.record)

/-- An assertion about an operation that succeeds. -/
def Ends (Q : Assertion) (rc : ℤ) (w : World) : Prop := rc = 0 → Live Q w

/-! ## Rules -/

section

variable {P Q : Assertion}

theorem ends_failed {pre : World → Prop} {rc : ℤ} (failed : rc ≠ 0) :
    Prog.Triple World.Answers pre (.ret rc) (Ends Q) :=
  Prog.triple_ret fun _ _ zero => (failed zero).elim

theorem ends_done (implies : ∀ d b, P d b → Q d b) :
    Prog.Triple World.Answers (Live P) (.ret 0) (Ends Q) :=
  Prog.triple_ret fun _ holds _ live => implies _ _ (holds live)

theorem ends_told (p : StageProg ℤ) :
    Prog.Triple World.Answers (fun w => w.superseded = true) p (Ends Q) := by
  induction p with
  | ret => exact Prog.triple_ret fun _ told _ live => Bool.noConfusion (told.symm.trans live)
  | call e next ih =>
    refine Prog.triple_call _ (fun w _ w' told answer => ?_) ih
    cases e with
    | superseded =>
      cases answer
      exact Bool.or_eq_true_iff.mpr (.inl told)
    | client => exact answer.1.trans told
    | _ =>
      cases answer
      exact told

/-- A pure part of an assertion can be assumed. -/
theorem triple_pure {φ : Prop} {p : StageProg ℤ}
    (triple : φ → Prog.Triple World.Answers (Live P) p (Ends Q)) :
    Prog.Triple World.Answers (Live fun d b => P d b ∧ φ) p (Ends Q) := by
  by_cases holds : φ
  · exact (triple holds).pre_mono fun w known live => (known live).1
  refine (ends_told p).pre_mono fun w known => ?_
  by_contra live
  exact holds (known (Bool.not_eq_true _ ▸ live)).2

/-- The rule for a look at the generation. -/
theorem triple_superseded {next : Bool → StageProg ℤ}
    (rest : Prog.Triple World.Answers (Live P) (next false) (Ends Q)) :
    Prog.Triple World.Answers (Live P) (.call .superseded next) (Ends Q) := by
  refine Prog.triple_call (fun told => cond told (fun w => w.superseded = true) (Live P)) ?_ ?_
  · rintro w reply _ holds rfl
    cases reply with
    | true => exact Bool.or_true _
    | false => exact fun live => holds ((Bool.or_false _).symm.trans live)
  intro reply
  cases reply with
  | true => exact ends_told _
  | false => exact rest

def Call.isLocal : Call → Bool
  | superseded | client _ => false
  | _ => true

theorem triple_local {pre : World → Prop} {e : Call} {next : Reply e → StageProg ℤ}
    (isLocal : e.isLocal = true)
    (rest : ∀ reply, Prog.Triple World.Answers pre (next reply) (Ends Q)) :
    Prog.Triple World.Answers pre (.call e next) (Ends Q) := by
  refine Prog.triple_call (fun _ => pre) (fun w reply w' holds answer => ?_) rest
  have same : w' = w := by
    cases e with
    | superseded | client => cases isLocal
    | _ => exact answer
  exact same ▸ holds

/-- The rule for a call of the client. -/
theorem triple_client (call : ClientCall) (after : Except ℤ call.Result → Assertion)
    {next : Except Failure call.Result → StageProg ℤ}
    (called : ∀ env c, Prog.Triple Daemon.Answers (Says P) (call.program env c) fun out =>
      Says (after out.1))
    (rest : ∀ reply, Prog.Triple World.Answers (Live (after (seenResult reply)))
      (next reply) (Ends Q)) :
    Prog.Triple World.Answers (Live P) (.call (.client call) next) (Ends Q) := by
  refine Prog.triple_call (fun reply => Live (after (seenResult reply))) ?_ rest
  intro w reply w' holds answer live
  obtain ⟨same, env, run⟩ := answer
  have before : Says P (w.daemon, w.record) := holds (same.symm.trans live)
  exact (called env w.client).post_of_runs before run

/-- The rule for a call of the client that changes nothing. -/
theorem triple_inert {call : ClientCall} {next : Except Failure call.Result → StageProg ℤ}
    (inert : ∀ env c, Inert (call.program env c))
    (rest : ∀ reply, Prog.Triple World.Answers (Live P) (next reply) (Ends Q)) :
    Prog.Triple World.Answers (Live P) (.call (.client call) next) (Ends Q) :=
  triple_client call (fun _ => P) (fun env c => inert env c P) rest

theorem passes_ends : Passes Call.isLocal fun p => Prog.Triple World.Answers (Live P) p (Ends Q) :=
  ⟨ends_failed, fun rest => triple_superseded rest, triple_local⟩

end

/-! ## Stopping -/

/-- A program that removes the snapshot of a container when it succeeds. -/
def Removes (snapshots : Snapshots) (container : Container) (p : StageProg ℤ) : Prop :=
  Prog.Triple World.Answers (Live fun d _ => d.snapshots = snapshots) p
    (Ends fun d _ => d.snapshots = snapshots.without container.held)

section

variable (snapshots : Snapshots) (container : Container) (task : Task)

theorem removes_deleteContainer : Removes snapshots container (deleteContainer container) := by
  refine triple_client (.deleteContainer container true)
    (fun result d _ => ∀ done, result = .ok done →
    d.snapshots = snapshots.without container.held) (fun env c => ?_) fun reply => ?_
  · exact deleteContainer_spec snapshots container
  cases reply with
  | error rc => exact ends_failed rc.2
  | ok _ => exact ends_done fun _ _ removed => removed () rfl

theorem removes_deleteTask (force : Bool) :
    Removes snapshots container (deleteTask container task force) := by
  refine triple_inert (fun _ _ => inert_taskDelete task force) fun reply => ?_
  cases reply with
  | error rc => exact ends_failed rc.2
  | ok => exact triple_superseded (removes_deleteContainer snapshots container)

theorem removes_afterWait (waited : Except Failure ℤ) :
    Removes snapshots container (afterWait container task waited) := by
  cases waited with
  | ok => exact removes_deleteTask snapshots container task false
  | error rc =>
    rw [afterWait]
    split_ifs
    · exact removes_deleteTask snapshots container task true
    · exact triple_superseded (removes_deleteContainer snapshots container)
    · exact ends_failed rc.2

theorem removes_killTask (waitMs : ℤ) :
    Removes snapshots container (killTask container task waitMs) := by
  refine triple_inert (fun _ _ => inert_taskKill task sigTerm) fun reply => ?_
  cases reply with
  | error rc => exact triple_local rfl fun _ => ends_failed rc.2
  | ok =>
    exact triple_local rfl fun waited =>
      triple_superseded (removes_afterWait snapshots container task waited)

theorem removes_stopTask (ops : StageOps) (budgetMs : ℤ) :
    Removes snapshots container (stopTask ops budgetMs container task) := by
  refine triple_local rfl fun created => ?_
  cases created with
  | false => exact ends_failed (by decide)
  | true => exact triple_superseded (removes_killTask snapshots container task _)

theorem removes_stopContainer (ops : StageOps) (budgetMs : ℤ) :
    Removes snapshots container (stopContainer ops budgetMs container) := by
  refine triple_inert (fun _ _ => inert_loadTask container) fun reply => ?_
  cases reply with
  | error rc =>
    dsimp only
    split_ifs
    · exact removes_deleteContainer snapshots container
    · exact ends_failed rc.2
  | ok task => exact triple_superseded (removes_stopTask snapshots container task ops budgetMs)

end

/-- The snapshot of the container with an id. -/
def heldBy (d : Daemon) (id : Octets) : Option SnapshotName :=
  (d.containers id).bind fun record => (record.loaded id).held

/-- A stop that succeeds has removed the snapshot of the container of the stage. -/
theorem stageStopOp_removes (d₀ : Daemon) (ops : StageOps) (timeoutMs : ℤ) :
    Prog.Triple World.Answers (Live fun d _ => d = d₀) (stageStopOp ops timeoutMs)
      (Ends fun d _ => d.snapshots = d₀.snapshots.without (heldBy d₀ ops.containerId)) := by
  rw [stageStopOp_budgeted]
  refine passes_ends.budgeted rfl fun budgetMs => ?_
  refine triple_client (.loadContainer ops.containerId) (fun result d _ =>
    d = d₀ ∧ Loaded ops.containerId d₀.containers result)
    (fun _ _ => loadContainer_spec d₀ ops.containerId) fun reply => ?_
  cases reply with
  | error rc =>
    dsimp only
    split_ifs with missing
    · refine ends_done fun d b known => ?_
      rw [heldBy, known.2 missing, known.1]
      rfl
    · exact ends_failed rc.2
  | ok =>
    refine triple_superseded (triple_pure fun loaded => ?_)
    obtain ⟨record, found, rfl⟩ := loaded
    rw [heldBy, found]
    refine (removes_stopContainer d₀.snapshots _ ops _).pre_mono fun w same live => ?_
    exact congrArg Daemon.snapshots (same live)

/-! ## Starting -/

def StageOps.snapshot (ops : StageOps) : SnapshotName := (defaultSnapshotter, ops.snapshotId)

/-- A container was created for the image that was read last, from some snapshots. -/
def Created (ops : StageOps) (snapshots : Snapshots) : Assertion := fun d blobs =>
  ∃ parsed chainId, ConfigLast parsed blobs ∧ computeChainId parsed.diffIds = some chainId ∧
    d.snapshots = snapshots.prepared ops.snapshot chainId ∧
    d.containers ops.containerId = some (newRecord ops.snapshotId ops.imageName)

/-- A program that creates the container when it succeeds. -/
def Creates (ops : StageOps) (snapshots : Snapshots) (p : StageProg ℤ) : Prop :=
  Prog.Triple World.Answers (Live fun d _ => d.snapshots = snapshots) p
    (Ends (Created ops snapshots))

section

variable (ops : StageOps) (snapshots : Snapshots) (spec : Spec)

theorem creates_createContainer : Creates ops snapshots (createContainer ops spec) := by
  have started : ∀ task, Prog.Triple World.Answers (Live (Created ops snapshots)) (startTask task)
      (Ends (Created ops snapshots)) := by
    intro task
    refine triple_inert (fun _ _ => inert_taskStart task) fun reply => ?_
    cases reply with
    | error rc => exact ends_failed rc.2
    | ok _ => exact ends_done fun _ _ created => created
  refine triple_client (.newContainer ops.containerId ops.snapshotId ops.imageName spec)
    (fun result d b => ∀ container, result = .ok container → Created ops snapshots d b)
    (fun env c => newContainer_spec env _ _ _ spec snapshots) fun reply => ?_
  cases reply with
  | error rc => exact ends_failed rc.2
  | ok container =>
    refine Prog.Triple.pre_mono ?_ fun w created live => created live container rfl
    refine triple_superseded (triple_inert (fun _ _ => inert_newTask container (some ops.logfile))
      fun reply => ?_)
    cases reply with
    | error rc => exact ends_failed rc.2
    | ok task => exact triple_superseded (started task)

/-- A start that succeeds prepares the snapshot that the stop has left. -/
theorem stageStartOp_creates (d₀ : Daemon) (timeoutMs : ℤ) :
    Prog.Triple World.Answers (Live fun d _ => d = d₀) (stageStartOp ops timeoutMs)
      (Ends (Created ops (d₀.snapshots.without (heldBy d₀ ops.containerId)))) := by
  rw [stageStartOp_budgeted]
  refine passes_ends.budgeted rfl fun budgetMs => ?_
  refine (stageStopOp_removes d₀ ops _).bind fun rc => ?_
  unfold startStopped
  split_ifs with failed
  · exact ends_failed failed
  have creates := passes_ends.buildAndCreate rfl (fun _ => rfl) (fun _ => rfl)
    (creates_createContainer ops (d₀.snapshots.without (heldBy d₀ ops.containerId)))
  exact Prog.Triple.pre_mono (triple_superseded creates) fun w removed =>
    removed (not_not.mp failed)

end

/-! ## The image of a stage -/

theorem without_of_ne {snapshots : Snapshots} {held : Option SnapshotName} {name : SnapshotName}
    (other : held ≠ some name) : snapshots.without held name = snapshots name := by
  cases held with
  | none => rfl
  | some => exact Function.update_of_ne (fun same => other (congrArg some same.symm)) _ _

/-- A snapshot that is prepared has the parent, unless it was there with another one. -/
theorem prepared_eq_iff (snapshots : Snapshots) (name : SnapshotName) (parent : Octets) :
    snapshots.prepared name parent name = some parent ↔
      snapshots name = none ∨ snapshots name = some parent := by
  rw [Snapshots.prepared, Function.update_self]
  cases snapshots name with
  | none => exact iff_of_true rfl (.inl rfl)
  | some => exact (or_iff_right (by rintro ⟨⟩)).symm

/-- **The image of a stage that was started.** Whatever the daemon keeps when it begins, a start
that succeeds and is not superseded has created the container with the snapshot of the stage. Its
parent is the chain id of the image that the start has read just if the snapshot was not there, or
was removed with its container, or had that parent already. -/
theorem started_on_image_iff (ops : StageOps) (timeoutMs : ℤ) (d d' : Daemon) (c c' : Client)
    (record : Record)
    (run : Prog.Runs World.Answers ⟨d, [], c, false⟩ (stageStartOp ops timeoutMs) 0
      ⟨d', record, c', false⟩) :
    ∃ parsed chainId, configRead record = some parsed ∧
      computeChainId parsed.diffIds = some chainId ∧
      d'.containers ops.containerId = some (newRecord ops.snapshotId ops.imageName) ∧
      (d'.snapshots ops.snapshot = some chainId ↔
        d.snapshots ops.snapshot = none ∨ heldBy d ops.containerId = some ops.snapshot ∨
          d.snapshots ops.snapshot = some chainId) := by
  have created := (stageStartOp_creates ops d timeoutMs).post_of_runs (fun _ => rfl) run rfl rfl
  obtain ⟨parsed, chainId, last, chain, prepared, container⟩ := created
  refine ⟨parsed, chainId, last, chain, container, ?_⟩
  rw [prepared, prepared_eq_iff]
  by_cases held : heldBy d ops.containerId = some ops.snapshot
  · have removed : d.snapshots.without (heldBy d ops.containerId) ops.snapshot = none := by
      rw [held]
      exact Function.update_self ..
    exact iff_of_true (.inl removed) (.inr (.inl held))
  · rw [without_of_ne held, or_iff_right held]

/-! ## A start that leaves its snapshot behind -/

/-- The layer of the image after it is pulled again. -/
def newLayer : Octets := ascii "sha256:e"

def mediaOps : StageOps :=
  ⟨true, ascii "mediamtx", ascii "mediamtx-snapshot", ascii "image", [], false,
    ⟨some [], some [], some [], some [], some [], some [], some [], some []⟩, [], 10000⟩

def connectedClient (status : ℤ) : Client := ⟨true, status, ascii "default"⟩

def preparation (diffId : Octets) (prepared : Except Failure Unit) : Prog.Event Containerd.Reply :=
  ⟨.rpc .shared (.snapshotsPrepare defaultSnapshotter (ascii "mediamtx-snapshot") diffId),
    ⟨prepared, false⟩⟩

section

variable {diffId : Octets} {d d₁ : Daemon} {record : Record}

theorem answers_rpc {rpc : Rpc} {result : Except Failure rpc.Body}
    (serves : d.Serves rpc result d₁) :
    Daemon.Answers (d, record) (.rpc .shared rpc) ⟨result, false⟩
      (d₁, record ++ [⟨.rpc .shared rpc, ⟨result, false⟩⟩]) := ⟨serves, rfl⟩

theorem runs_rpc {α : Type} (rpc : Rpc) {next : Outcome rpc.Body → ClientProg α} {out : α × Client}
    {w' : Daemon × Record} (result : Except Failure rpc.Body) (serves : d.Serves rpc result d₁)
    (rest : Prog.Runs Daemon.Answers (d₁, record ++ [⟨.rpc .shared rpc, ⟨result, false⟩⟩])
      (next ⟨result, false⟩) out w') :
    Prog.Runs Daemon.Answers (d, record) (.call (.rpc .shared rpc) next) out w' :=
  .call (answers_rpc serves) rest

def mediaRequest (spec : Spec) : CreateRequest :=
  ⟨ascii "mediamtx", ascii "image", defaultRuntime, specTypeUrl,
    pbBytesNew (Json.render (document plainEnv.host spec plainConfig (some (ascii "default"))
      (ascii "mediamtx") none)), defaultSnapshotter, ascii "mediamtx-snapshot"⟩

def creation (spec : Spec) (created : Except Failure (Option Unit)) : Prog.Event Containerd.Reply :=
  ⟨.rpc .shared (.containersCreate (mediaRequest spec)), ⟨created, false⟩⟩

/-- The container as `new_container_locked` returns it. -/
def mediaContainer : Container :=
  ⟨ascii "mediamtx", some (ascii "image"), some defaultRuntime, some defaultSnapshotter,
    some (ascii "mediamtx-snapshot")⟩

variable {w' : World}

/-- A call of the client in a run of an operation. -/
theorem runs_client (call : ClientCall) {next : Except Failure call.Result → StageProg ℤ} {rc : ℤ}
    {c c₁ : Client} {record₁ : Record} (reply : Except Failure call.Result)
    (called : Prog.Runs Daemon.Answers (d, record) (call.program plainEnv c) (seenResult reply, c₁)
      (d₁, record₁))
    (rest : Prog.Runs World.Answers ⟨d₁, record₁, c₁, false⟩ (next reply) rc w') :
    Prog.Runs World.Answers ⟨d, record, c, false⟩ (.call (.client call) next) rc w' :=
  have answer : World.Answers ⟨d, record, c, false⟩ (.client call) reply ⟨d₁, record₁, c₁, false⟩ :=
    ⟨rfl, plainEnv, called⟩
  .call answer rest

/-- An operation that is told that it is not superseded goes on. -/
theorem runs_unlessSuperseded {p : StageProg ℤ} {rc : ℤ} {c : Client}
    (rest : Prog.Runs World.Answers ⟨d, record, c, false⟩ p rc w') :
    Prog.Runs World.Answers ⟨d, record, c, false⟩ (unlessSuperseded p) rc w' :=
  have answer : World.Answers ⟨d, record, c, false⟩ .superseded false ⟨d, record, c, false⟩ := rfl
  .call answer rest

def mediaSpec : Spec := { stageSpec [] with mounts := ((mediamtxMounts mediaOps.layout).getD []) }

theorem buildAndCreate_mediaOps :
    buildAndCreate mediaOps = unlessSuperseded (createContainer mediaOps mediaSpec) := by
  have mounts : mediamtxMounts mediaOps.layout = some mediaSpec.mounts := rfl
  show withMounts mediaOps (stageSpec []) (mediamtxMounts mediaOps.layout) = _
  rw [mounts]
  rfl

/-- The answer when the container of the stage is not there. -/
def notThere : Prog.Event Containerd.Reply :=
  ⟨.rpc .shared (.containersGet (ascii "mediamtx")),
    ⟨.error ⟨statusNotFound, statusNotFound_ne⟩, false⟩⟩

/-- A start finds no container and goes on to create one. -/
theorem stageStartOp_runs {rc : ℤ} {status : ℤ} (absent : d.containers (ascii "mediamtx") = none)
    (rest : Prog.Runs World.Answers ⟨d, [notThere], connectedClient statusNotFound, false⟩
      (createContainer mediaOps mediaSpec) rc w') :
    Prog.Runs World.Answers ⟨d, [], connectedClient status, false⟩
      (stageStartOp mediaOps 30000) rc w' := by
  have stopped : Prog.Runs World.Answers ⟨d, [], connectedClient status, false⟩
      (stageStopOp mediaOps 30000) 0 ⟨d, [notThere], connectedClient statusNotFound, false⟩ := by
    refine runs_unlessSuperseded (.call (r := (30000 : ℤ)) rfl ?_)
    refine runs_client (.loadContainer (ascii "mediamtx")) (.error ⟨ctrdErrNotFound, by decide⟩) ?_
      (.ret (0 : ℤ))
    exact runs_rpc (.containersGet (ascii "mediamtx")) (.error ⟨statusNotFound, by decide⟩)
      ⟨fun _ => absent, rfl⟩ (.ret (Except.error _, _))
  refine runs_unlessSuperseded (.call (r := (30000 : ℤ)) rfl ?_)
  refine Prog.runs_bind.mpr ⟨0, _, stopped, runs_unlessSuperseded ?_⟩
  rw [buildAndCreate_mediaOps]
  exact runs_unlessSuperseded rest

/-- The calls for a task, which succeed. -/
def mountsRead : Prog.Event Containerd.Reply :=
  ⟨.rpc .shared (.snapshotsMounts defaultSnapshotter (ascii "mediamtx-snapshot")),
    ⟨.ok (some []), false⟩⟩

def taskCreation : Prog.Event Containerd.Reply :=
  ⟨.rpc .shared (.tasksCreate (ascii "mediamtx") [] none), ⟨.ok (some 7), false⟩⟩

def startRecord (diffId : Octets) (prepared : Except Failure Unit) : Record :=
  [notThere] ++ imageRead diffId ++ [preparation diffId prepared] ++
    [creation mediaSpec (.ok (some ()))] ++ [mountsRead] ++ [taskCreation] ++
    [⟨.rpc .shared (.tasksStart (ascii "mediamtx")), ⟨.ok (), false⟩⟩]

/-- A start that succeeds, with the snapshot prepared or found. -/
theorem start_succeeds (diffId : Octets) (d d₁ : Daemon)
    (prepared : Except Failure Unit) (status : ℤ)
    (parses : parseImageConfig (Json.render (layerConfig diffId)) = some ⟨plainConfig, [diffId]⟩)
    (absent : d.containers (ascii "mediamtx") = none)
    (serves : d.Serves (.snapshotsPrepare defaultSnapshotter (ascii "mediamtx-snapshot") diffId)
      prepared d₁)
    (passes : ∀ rc, prepared = .error rc → rc.val = statusAlreadyExists) :
    Prog.Runs World.Answers ⟨d, [], connectedClient status, false⟩ (stageStartOp mediaOps 30000) 0
      ⟨d₁.setContainer (ascii "mediamtx") (some (mediaRequest mediaSpec).record),
        startRecord diffId prepared, connectedClient 0, false⟩ := by
  refine stageStartOp_runs absent ?_
  refine runs_client (.newContainer _ _ _ mediaSpec) (.ok mediaContainer)
    (newContainer_runs prepared (answers_rpc rfl) (answers_rpc rfl) (answers_rpc rfl) parses
      (answers_rpc serves) passes (createContainer_runs (answers_rpc rfl))) ?_
  have task : ∀ d record, Prog.Runs Daemon.Answers (d, record)
      (Containerd.newTask mediaContainer (some []) (connectedClient 0))
      (.ok ⟨ascii "mediamtx", none, 7⟩, connectedClient 0)
      (d, record ++ [mountsRead] ++ [taskCreation]) := by
    intro d record
    refine runs_rpc (.snapshotsMounts _ _) (.ok (some [])) rfl ?_
    exact runs_rpc (.tasksCreate _ _ _) (.ok (some 7)) rfl (.ret (Except.ok _, _))
  refine runs_unlessSuperseded (runs_client (.newTask mediaContainer []) (.ok _) (task _ _) ?_)
  refine runs_unlessSuperseded (runs_client (.taskStart _) (.ok ()) ?_ (.ret (0 : ℤ)))
  exact runs_rpc (.tasksStart _) (.ok ()) rfl (.ret (Except.ok _, _))

end

def emptyDaemon : Daemon := ⟨fun _ => none, fun _ => none⟩

/-- The daemon with the snapshot of the stage on the old layer. -/
def leftBehind : Daemon := emptyDaemon.setSnapshot mediaOps.snapshot (some oldLayer)

/-- A first start runs on its image. -/
theorem first_start_on_image :
    ∃ (d' : Daemon) (c' : Client) (record : Record),
      Prog.Runs World.Answers ⟨emptyDaemon, [], connectedClient 0, false⟩
        (stageStartOp mediaOps 30000) 0
        ⟨d', record, c', false⟩ ∧ d'.snapshots mediaOps.snapshot = some oldLayer := by
  have run := start_succeeds oldLayer emptyDaemon leftBehind (.ok ()) 0 parse_oldLayer rfl
    ⟨rfl, rfl⟩ nofun
  obtain ⟨parsed, chainId, read, chain, -, onImage⟩ := started_on_image_iff _ _ _ _ _ _ _ run
  have config : configRead (startRecord oldLayer (.ok ())) = some ⟨plainConfig, [oldLayer]⟩ :=
    parse_oldLayer
  cases Option.some.inj (config.symm.trans read)
  cases chain
  exact ⟨_, _, _, run, onImage.mpr (.inl rfl)⟩

/-- A start prepares the snapshot, and the container cannot be created. The image is pulled again.
The next start finds no container to delete and takes the old snapshot. -/
theorem second_start_on_old_image :
    ∃ (rc : ℤ) (d₁ d₂ : Daemon) (c₁ c₂ : Client) (record₁ record₂ : Record) (parsed : ParsedConfig)
      (chainId : Octets),
      Prog.Runs World.Answers ⟨emptyDaemon, [], connectedClient 0, false⟩
        (stageStartOp mediaOps 30000) rc
        ⟨d₁, record₁, c₁, false⟩ ∧
      Prog.Runs World.Answers ⟨d₁, [], c₁, false⟩ (stageStartOp mediaOps 30000) 0
        ⟨d₂, record₂, c₂, false⟩ ∧
      configRead record₂ = some parsed ∧ computeChainId parsed.diffIds = some chainId ∧
      d₂.snapshots mediaOps.snapshot ≠ some chainId := by
  have parsesNew : parseImageConfig (Json.render (layerConfig newLayer)) =
      some ⟨plainConfig, [newLayer]⟩ := parse_layerConfig (by decide +kernel) (by decide)
  have failing : Prog.Runs World.Answers ⟨emptyDaemon, [], connectedClient 0, false⟩
      (stageStartOp mediaOps 30000) ctrdErrIo
      ⟨leftBehind, [notThere] ++ imageRead oldLayer ++ [preparation oldLayer (.ok ())] ++
        [creation mediaSpec (.error ⟨statusUnavailable, by decide⟩)],
        connectedClient statusUnavailable, false⟩ := by
    have prepared : emptyDaemon.Serves (.snapshotsPrepare defaultSnapshotter
        (ascii "mediamtx-snapshot") oldLayer) (.ok ()) leftBehind := ⟨rfl, rfl⟩
    refine stageStartOp_runs rfl ?_
    refine runs_client (.newContainer _ _ _ mediaSpec) (.error ⟨ctrdErrIo, by decide⟩) ?_ (.ret _)
    refine newContainer_runs (.ok ()) (answers_rpc rfl) (answers_rpc rfl) (answers_rpc rfl)
      parse_oldLayer (answers_rpc prepared) nofun ?_
    rw [Containerd.createContainer, buildSpec_eq plainEnv.alloc (fun _ => rfl)]
    exact runs_rpc (.containersCreate (mediaRequest mediaSpec))
      (.error ⟨statusUnavailable, by decide⟩) (.inl rfl) (.ret (Except.error _, _))
  have run :=
    start_succeeds newLayer leftBehind leftBehind (.error ⟨statusAlreadyExists, by decide⟩)
      statusUnavailable parsesNew rfl ⟨fun _ => by decide, .inl rfl⟩
      (fun rc same => by cases same; rfl)
  refine ⟨_, _, _, _, _, _, _, ⟨plainConfig, [newLayer]⟩, newLayer, failing, run,
    parsesNew, rfl, ?_⟩
  decide

end Strimserver.Stage
