import Strimserver.Containerd.SpecValue

/-!
# What containerd keeps

The snapshots of containerd, each with the chain id of its parent, and its containers. A call that
fails may have been carried out or not; a status that says whether something is there is
right. Images and blobs can change at any time, so nothing is said about them, nor about tasks.

The rules say what the calls of the client leave behind.
-/

namespace Strimserver.Containerd

open Library Oci

/-! ## The daemon -/

/-- Snapshotter and key. -/
abbrev SnapshotName := Octets × Octets

/-- The parents of the snapshots that exist. -/
abbrev Snapshots := SnapshotName → Option Octets

/-- What containerd keeps. -/
structure Daemon where
  snapshots : Snapshots
  containers : Octets → Option ContainerRecord

def Daemon.setSnapshot (d : Daemon) (name : SnapshotName) (parent : Option Octets) : Daemon :=
  { d with snapshots := Function.update d.snapshots name parent }

def Daemon.setContainer (d : Daemon) (id : Octets) (record : Option ContainerRecord) : Daemon :=
  { d with containers := Function.update d.containers id record }

def CreateRequest.record (request : CreateRequest) : ContainerRecord :=
  ⟨some request.image, some request.runtimeName, some request.snapshotter, some request.snapshotKey⟩

/-- An RPC as the daemon serves it: the daemon before, the result, and the daemon afterwards. -/
def Daemon.Serves (d : Daemon) : (rpc : Rpc) → Except Failure rpc.Body → Daemon → Prop
  | .snapshotsPrepare snapshotter key parent, .ok (), d' =>
    d.snapshots (snapshotter, key) = none ∧ d' = d.setSnapshot (snapshotter, key) (some parent)
  | .snapshotsPrepare snapshotter key parent, .error rc, d' =>
    (rc.val = statusAlreadyExists → d.snapshots (snapshotter, key) ≠ none) ∧
      (d' = d ∨ d.snapshots (snapshotter, key) = none ∧
        d' = d.setSnapshot (snapshotter, key) (some parent))
  | .snapshotsRemove snapshotter key, .ok (), d' => d' = d.setSnapshot (snapshotter, key) none
  | .snapshotsRemove snapshotter key, .error rc, d' =>
    (rc.val = statusNotFound → d.snapshots (snapshotter, key) = none) ∧
      (d' = d ∨ d' = d.setSnapshot (snapshotter, key) none)
  | .containersGet id, .ok (some record), d' => d.containers id = some record ∧ d' = d
  | .containersGet id, .error rc, d' => (rc.val = statusNotFound → d.containers id = none) ∧ d' = d
  | .containersCreate request, .ok _, d' => d' = d.setContainer request.id (some request.record)
  | .containersCreate request, .error _, d' =>
    d' = d ∨ d' = d.setContainer request.id (some request.record)
  | .containersDelete id, .ok (), d' => d' = d.setContainer id none
  | .containersDelete id, .error _, d' => d' = d ∨ d' = d.setContainer id none
  | _, _, d' => d' = d

/-- The daemon as the world of a client, with a record of its calls. -/
def Daemon.Answers (w : Daemon × Record) : (e : Call) → Reply e → Daemon × Record → Prop
  | .dial connection, reply, w' => w' = (w.1, w.2 ++ [⟨.dial connection, reply⟩])
  | .rpc connection rpc, reply, w' =>
    w.1.Serves rpc reply.result w'.1 ∧ w'.2 = w.2 ++ [⟨.rpc connection rpc, reply⟩]

/-! ## Rules for RPCs -/

/-- What is known of the daemon and of the blobs that were read. -/
abbrev Assertion := Daemon → List Octets → Prop

/-- An assertion about a world. -/
def Says (P : Assertion) (w : Daemon × Record) : Prop := P w.1 (blobs w.2)

/-- An assertion about a run that succeeds. -/
def Done {α : Type} (Q : α → Assertion) (out : Except ℤ α × Client) (w : Daemon × Record) : Prop :=
  ∀ a, out.1 = .ok a → Says (Q a) w

section

variable {α : Type} {P : Assertion} {c : Client}

theorem blobs_append (record tail : Record) : blobs (record ++ tail) = blobs record ++ blobs tail :=
  List.filterMap_append

variable {post : α × Client → Daemon × Record → Prop} {connection : Connection} {Q : α → Assertion}

theorem done_error (pre : Daemon × Record → Prop) (rc : ℤ) :
    Prog.Triple Daemon.Answers pre (.ret (.error rc, c)) (Done Q) :=
  Prog.triple_ret nofun

theorem done_ok {a : α} (holds : ∀ d b, P d b → Q a d b) :
    Prog.Triple Daemon.Answers (Says P) (.ret (.ok a, c)) (Done Q) := by
  refine Prog.triple_ret fun w before a same => ?_
  cases same
  exact holds _ _ before

theorem triple_dial {next : Except Failure Unit → ClientProg α}
    (rest : ∀ reply, Prog.Triple Daemon.Answers (Says P) (next reply) post) :
    Prog.Triple Daemon.Answers (Says P) (.call (.dial connection) next) post := by
  refine Prog.triple_call (fun _ => Says P) ?_ rest
  rintro w reply _ before rfl
  rw [Says, blobs_append]
  exact (List.append_nil (blobs w.2)).symm ▸ before

/-- An assertion about an RPC that has succeeded, or failed with a code that its caller goes on
after. -/
def Passed (P : Assertion) (rpc : Rpc) : Except Failure rpc.Body → Assertion
  | .ok _, d, b => P d b
  | .error rc, d, b => rpc.tolerates rc = true → P d b

variable {rpc : Rpc}

/-- The rule for an RPC that reads no blob. -/
theorem triple_rpc (unread : ∀ reply, blobs [⟨.rpc connection rpc, reply⟩] = [])
    (after : Except Failure rpc.Body → Assertion) {next : Outcome rpc.Body → ClientProg α}
    (served : ∀ d b result d', P d b → d.Serves rpc result d' → after result d' b)
    (rest : ∀ reply, Prog.Triple Daemon.Answers (Says (after reply.result)) (next reply) post) :
    Prog.Triple Daemon.Answers (Says P) (.call (.rpc connection rpc) next) post := by
  refine Prog.triple_call (fun reply => Says (after reply.result)) ?_ rest
  rintro w reply ⟨d', _⟩ before ⟨serves, rfl⟩
  have same : blobs (w.2 ++ [⟨.rpc connection rpc, reply⟩]) = blobs w.2 := by
    rw [blobs_append, unread, List.append_nil]
  rw [Says, same]
  exact served w.1 _ reply.result d' before serves

variable (unread : ∀ reply, blobs [⟨.rpc .shared rpc, reply⟩] = [])
  (after : Except Failure rpc.Body → Assertion)
  (served : ∀ d b result d', P d b → d.Serves rpc result d' → after result d' b)

include unread served

/-- The rule for an RPC of `shared_unary_locked`. -/
theorem sharedUnary_spec
    (undialled : ∀ d b, P d b → after (.error ⟨ctrdErrConnect, by decide⟩) d b) :
    Prog.Triple Daemon.Answers (Says P) (sharedUnary rpc c) fun out => Says (after out.1) := by
  have rest : ∀ c, Prog.Triple Daemon.Answers (Says P) (unary rpc c) fun out =>
      Says (after out.1) := fun c =>
    triple_rpc unread after served fun _ => Prog.triple_ret fun _ holds => holds
  rw [sharedUnary]
  cases c.connected with
  | true => exact rest c
  | false =>
    refine triple_dial fun reply => ?_
    cases reply with
    | error => exact Prog.triple_ret fun w holds => undialled w.1 _ holds
    | ok _ => exact rest _

/-- The rule for an RPC of a helper. -/
theorem helperRpc_spec (refused : ∀ d b, P d b → after (.error ⟨h2cErrBadArg, by decide⟩) d b) :
    Prog.Triple Daemon.Answers (Says P) (helperRpc rpc c) fun out => Says (after out.1) := by
  rw [helperRpc]
  cases c.connected with
  | false => exact Prog.triple_ret fun w holds => refused w.1 _ holds
  | true => exact triple_rpc unread after served fun _ => Prog.triple_ret fun _ holds => holds

end

/-! ## Calls that change nothing -/

/-- The RPCs that leave the daemon as it is and read no blob. -/
def Rpc.isInert : Rpc → Bool
  | snapshotsPrepare .. | snapshotsRemove .. | containersCreate _ | containersDelete _
  | contentRead _ => false
  | _ => true

variable {rpc : Rpc}

theorem Daemon.Serves.of_inert (inert : rpc.isInert = true) {d d' : Daemon}
    {result : Except Failure rpc.Body} (serves : d.Serves rpc result d') : d' = d := by
  cases rpc with
  | snapshotsPrepare | snapshotsRemove | containersCreate | containersDelete | contentRead =>
    cases inert
  | containersGet =>
    rcases result with rc | _ | record
    · exact serves.2
    · exact serves
    · exact serves.2
  | _ => exact serves

theorem Daemon.Serves.keeps (inert : rpc.isInert = true) (P : Assertion) (d : Daemon)
    (b : List Octets) (result : Except Failure rpc.Body) (d' : Daemon) (holds : P d b)
    (serves : d.Serves rpc result d') : P d' b := by
  rw [serves.of_inert inert]
  exact holds

theorem unread_of_inert (inert : rpc.isInert = true) (connection : Connection)
    (reply : Reply (.rpc connection rpc)) : blobs [⟨.rpc connection rpc, reply⟩] = [] := by
  cases rpc with
  | contentRead => cases inert
  | _ => rfl

/-- A program that keeps every assertion. -/
def Inert {α : Type} (p : ClientProg α) : Prop :=
  ∀ P, Prog.Triple Daemon.Answers (Says P) p fun _ => Says P

section

variable {α β : Type} {c : Client}

theorem inert_ret (out : α × Client) :
    Inert (.ret out) := fun _ => Prog.triple_ret fun _ holds => holds

theorem Inert.bind {p : ClientProg α} {f : α × Client → ClientProg β} (first : Inert p)
    (rest : ∀ out, Inert (f out)) : Inert (p.bind f) := fun P =>
  (first P).bind fun out => rest out P

theorem inert_sharedUnary (inert : rpc.isInert = true) : Inert (sharedUnary rpc c) :=
  fun P => sharedUnary_spec (unread_of_inert inert .shared) (fun _ => P)
    (Daemon.Serves.keeps inert P) fun _ _ holds => holds

theorem inert_helperRpc (inert : rpc.isInert = true) : Inert (helperRpc rpc c) :=
  fun P => helperRpc_spec (unread_of_inert inert .shared) (fun _ => P)
    (Daemon.Serves.keeps inert P) fun _ _ holds => holds

variable (container : Container)

theorem inert_loadTask : Inert (loadTask container c) := by
  refine (inert_sharedUnary rfl).bind fun ⟨result, c⟩ => ?_
  rcases result with rc | _ | pid <;> exact inert_ret _

variable (task : Task)

theorem inert_taskStart : Inert (taskStart task c) := by
  refine (inert_sharedUnary rfl).bind fun ⟨result, c⟩ => ?_
  cases result <;> exact inert_ret _

theorem inert_createTask (logfile : Option Octets) (mounts : List RootMount) :
    Inert (createTask container logfile mounts c) := by
  refine (inert_sharedUnary rfl).bind fun ⟨result, c⟩ => ?_
  rcases result with rc | _ | pid <;> exact inert_ret _

theorem inert_newTask (logfile : Option Octets) : Inert (newTask container logfile c) := by
  unfold newTask
  cases container.snapshot with
  | none => exact inert_createTask container logfile []
  | some =>
    refine (inert_helperRpc rfl).bind fun ⟨result, c⟩ => ?_
    rcases result with rc | _ | mounts
    · exact inert_ret _
    · exact inert_ret _
    · exact inert_createTask container logfile mounts

theorem inert_taskKill (signum : ℕ) : Inert (taskKill task signum c) := by
  refine (inert_sharedUnary rfl).bind fun ⟨result, c⟩ => ?_
  cases result with
  | ok _ => exact inert_ret _
  | error =>
    dsimp only
    split_ifs <;> exact inert_ret _

theorem inert_deleteTaskRecord : Inert (deleteTaskRecord task c) := by
  refine (inert_sharedUnary rfl).bind fun ⟨result, c⟩ => ?_
  cases result with
  | ok _ => exact inert_ret _
  | error =>
    dsimp only
    split_ifs <;> exact inert_ret _

theorem inert_taskWait : Inert (taskWait task c) := by
  intro P
  refine triple_dial fun reply => ?_
  cases reply with
  | error => exact inert_ret _ P
  | ok _ =>
    refine triple_rpc (fun _ => rfl) (fun _ => P) (Daemon.Serves.keeps rfl P)
      fun ⟨result, died⟩ => ?_
    rcases result with rc | _ | exitStatus <;> exact inert_ret _ P

theorem inert_waitAndDelete : Inert (waitAndDelete task c) := by
  refine (inert_taskWait task).bind fun ⟨result, c⟩ => ?_
  cases result with
  | ok => exact inert_deleteTaskRecord task
  | error =>
    dsimp only
    split_ifs
    · exact inert_deleteTaskRecord task
    · exact inert_ret _

theorem inert_taskDelete (force : Bool) : Inert (taskDelete task force c) := by
  cases force with
  | false => exact inert_deleteTaskRecord task
  | true =>
    refine (inert_sharedUnary rfl).bind fun ⟨result, c⟩ => ?_
    cases result with
    | ok => exact inert_waitAndDelete task
    | error =>
      dsimp only
      split_ifs
      · exact inert_waitAndDelete task
      · exact inert_ret _

end

/-! ## Containers -/

theorem mapRpcErr_eq_notFound {rc : ℤ} (missing : mapRpcErr rc = ctrdErrNotFound) :
    rc = statusNotFound := by
  have tolerated : ∀ rc, mapGrpcErr rc = ctrdErrNotFound → rc = statusNotFound := by
    intro rc missing
    by_contra other
    unfold mapGrpcErr at missing
    split_ifs at missing <;> cases missing
  unfold mapRpcErr at missing
  split_ifs at missing
  · cases missing
  · exact tolerated rc missing

/-- The container as `load_container_locked` returns it. -/
def ContainerRecord.loaded (record : ContainerRecord) (id : Octets) : Container :=
  ⟨id, record.image, record.runtimeName, record.snapshotter, record.snapshotKey⟩

/-- What is known once `Containers/Get` has returned. -/
def Found (d₀ : Daemon) (id : Octets) : Except Failure (Rpc.containersGet id).Body → Assertion
  | .error rc, d, _ => d = d₀ ∧ (rc.val = statusNotFound → d₀.containers id = none)
  | .ok none, d, _ => d = d₀
  | .ok (some record), d, _ => d = d₀ ∧ d₀.containers id = some record

/-- What is known once `load_container_locked` has returned. -/
def Loaded (id : Octets) (containers : Octets → Option ContainerRecord) : Except ℤ Container → Prop
  | .ok container => ∃ record, containers id = some record ∧ container = record.loaded id
  | .error rc => rc = ctrdErrNotFound → containers id = none

def Container.held (container : Container) : Option SnapshotName :=
  container.snapshot.map fun key => (container.snapshotter.getD defaultSnapshotter, key)

/-- The snapshots, once the one that is named is removed. -/
def Snapshots.without (snapshots : Snapshots) : Option SnapshotName → Snapshots
  | none => snapshots
  | some name => Function.update snapshots name none

/-- The snapshots behind `Snapshots/Prepare`, whether the snapshot was there or not. -/
def Snapshots.prepared (snapshots : Snapshots) (name : SnapshotName) (parent : Octets) :
    Snapshots :=
  Function.update snapshots name (some ((snapshots name).getD parent))

section

variable {c : Client}

theorem loadContainer_spec (d₀ : Daemon) (id : Octets) :
    Prog.Triple Daemon.Answers (Says fun d _ => d = d₀) (loadContainer id c) fun out =>
      Says fun d _ => d = d₀ ∧ Loaded id d₀.containers out.1 := by
  refine (sharedUnary_spec (fun _ => rfl) (Found d₀ id) ?_ ?_).bind fun ⟨result, c⟩ => ?_
  · rintro d b result d' rfl serves
    rcases result with rc | _ | record
    · exact ⟨serves.2, serves.1⟩
    · exact serves
    · exact ⟨serves.2, serves.1⟩
  · rintro d _ rfl
    exact ⟨rfl, nofun⟩
  rcases result with rc | _ | record
  · exact Prog.triple_ret fun w known =>
      ⟨known.1, fun missing => known.2 (mapRpcErr_eq_notFound missing)⟩
  · exact Prog.triple_ret fun w known => ⟨known, nofun⟩
  · exact Prog.triple_ret fun w known => ⟨known.1, record, known.2, rfl⟩

/-- The container is deleted, whatever is known of the snapshots. -/
theorem deleteRecord_spec (P : Snapshots → Prop) (id : Octets) :
    Prog.Triple Daemon.Answers (Says fun d _ => P d.snapshots) (deleteRecord id c)
      (Done fun _ d _ => P d.snapshots) := by
  refine (sharedUnary_spec (fun _ => rfl) (fun _ d _ => P d.snapshots) ?_
    (fun _ _ holds => holds)).bind fun ⟨result, c⟩ => ?_
  · intro d b result d' holds serves
    cases result with
    | ok =>
      cases serves
      exact holds
    | error => rcases serves with rfl | rfl <;> exact holds
  · cases result with
    | error => exact done_error _ _
    | ok _ => exact done_ok fun _ _ holds => holds

/-- The snapshot of a container goes with it. -/
theorem deleteContainer_spec (snapshots : Snapshots) (container : Container) :
    Prog.Triple Daemon.Answers (Says fun d _ => d.snapshots = snapshots)
      (deleteContainer container true c)
      (Done fun _ d _ => d.snapshots = snapshots.without container.held) := by
  rw [deleteContainer, if_pos rfl, Container.held]
  cases container.snapshot with
  | none => exact deleteRecord_spec (· = snapshots) container.id
  | some key =>
    let name : SnapshotName := (container.snapshotter.getD defaultSnapshotter, key)
    refine (helperRpc_spec (fun _ => rfl)
      (Passed (fun d _ => d.snapshots = snapshots.without (some name)) _)
      ?_ (by rintro _ _ _ ⟨⟩)).bind fun out => ?_
    · rintro d b result d' rfl serves
      cases result with
      | ok =>
        cases serves
        rfl
      | error =>
        intro missing
        have absent := serves.1 (of_decide_eq_true missing)
        rcases serves.2 with rfl | rfl
        · exact (Function.update_eq_self_iff.mpr absent.symm).symm
        · rfl
    obtain ⟨result, c⟩ := out
    cases result with
    | ok => exact deleteRecord_spec (· = snapshots.without (some name)) container.id
    | error =>
      dsimp only
      split_ifs with missing
      · exact (deleteRecord_spec (· = snapshots.without (some name)) container.id).pre_mono
          fun w known => known (decide_eq_true missing)
      · exact done_error _ _

/-! ## New containers -/

/-- A blob that is returned is the one that was read last. -/
theorem contentReadBlob_spec (P : Daemon → Prop) (digest : Octets) :
    Prog.Triple Daemon.Answers (Says fun d _ => P d) (contentReadBlob digest c) fun out =>
      Says fun d blobs => P d ∧ ∀ blob, out.1 = .ok blob → blobs.getLast? = some blob := by
  refine (triple_contentReadBlob (Says fun d _ => P d)
    (fun blob => Says fun _ blobs => blobs.getLast? = some blob) (fun _ => id) ?_).post_mono
    fun _ _ known => known.2
  rintro w ⟨result, died⟩ ⟨d', _⟩ holds ⟨serves, rfl⟩
  cases (show d' = w.1 from serves)
  refine ⟨holds, fun blob same => ?_⟩
  cases same
  rw [Says, blobs_append]
  exact List.getLast?_concat

section

variable (env : Env) (id snapshotId imageName : Octets) (spec : Spec)

/-- The container that `new_container_locked` creates. -/
def newRecord : ContainerRecord :=
  ⟨some imageName, some defaultRuntime, some defaultSnapshotter, some snapshotId⟩

theorem createContainer_spec (P : Snapshots → List Octets → Prop) (config : ImageConfig) :
    Prog.Triple Daemon.Answers (Says fun d b => P d.snapshots b)
      (createContainer env id snapshotId imageName spec config c)
      (Done fun _ d b => P d.snapshots b ∧
        d.containers id = some (newRecord snapshotId imageName)) := by
  rw [createContainer]
  cases buildSpec env.alloc env.host spec config (some c.ns) id env.cdi with
  | none => exact done_error _ _
  | some =>
    refine (sharedUnary_spec (fun _ => rfl) (Passed (fun d b =>
      P d.snapshots b ∧ d.containers id = some (newRecord snapshotId imageName)) _)
      ?_ (by rintro _ _ _ ⟨⟩)).bind fun out => ?_
    · intro d b result d' holds serves
      cases result with
      | error => rintro ⟨⟩
      | ok =>
        cases serves
        exact ⟨holds, Function.update_self ..⟩
    rcases out with ⟨rc | _ | _, c⟩
    · exact done_error _ _
    · exact done_error _ _
    · exact done_ok fun _ _ holds => holds

/-- The snapshot has the chain id as its parent, unless it was there before. -/
theorem prepareAndCreate_spec (snapshots : Snapshots) (parsed : ParsedConfig) :
    Prog.Triple Daemon.Answers (Says fun d b => d.snapshots = snapshots ∧ ConfigLast parsed b)
      (prepareAndCreate env id snapshotId imageName spec parsed c)
      (Done fun _ d b => ∃ chainId, computeChainId parsed.diffIds = some chainId ∧
        ConfigLast parsed b ∧
        d.snapshots = snapshots.prepared (defaultSnapshotter, snapshotId) chainId ∧
        d.containers id = some (newRecord snapshotId imageName)) := by
  rw [prepareAndCreate]
  cases chain : computeChainId parsed.diffIds with
  | none => exact done_error _ _
  | some chainId =>
    let name : SnapshotName := (defaultSnapshotter, snapshotId)
    have create : ∀ c, Prog.Triple Daemon.Answers
        (Says fun d b => d.snapshots = snapshots.prepared name chainId ∧ ConfigLast parsed b)
        (createContainer env id snapshotId imageName spec parsed.config c)
        (Done fun _ d b => ∃ chainId', some chainId = some chainId' ∧ ConfigLast parsed b ∧
          d.snapshots = snapshots.prepared (defaultSnapshotter, snapshotId) chainId' ∧
          d.containers id = some (newRecord snapshotId imageName)) := by
      intro c
      refine (createContainer_spec env id snapshotId imageName spec
        (fun s b => s = snapshots.prepared name chainId ∧ ConfigLast parsed b)
        parsed.config).post_mono ?_
      intro out w done container ok
      obtain ⟨⟨prepared, last⟩, created⟩ := done container ok
      exact ⟨chainId, rfl, last, prepared, created⟩
    refine (helperRpc_spec (fun _ => rfl) (Passed (fun d b =>
      d.snapshots = snapshots.prepared name chainId ∧ ConfigLast parsed b) _)
      ?_ (by rintro _ _ _ ⟨⟩)).bind fun out => ?_
    · rintro d b result d' ⟨rfl, last⟩ serves
      cases result with
      | ok _ =>
        obtain ⟨absent, rfl⟩ := serves
        refine ⟨?_, last⟩
        rw [Snapshots.prepared, absent]
        rfl
      | error =>
        intro exists_
        have there := serves.1 (of_decide_eq_true exists_)
        rcases serves.2 with rfl | ⟨absent, -⟩
        · obtain ⟨parent, found⟩ := Option.ne_none_iff_exists'.mp there
          refine ⟨?_, last⟩
          rw [Snapshots.prepared, found]
          exact (Function.update_eq_self_iff.mpr found.symm).symm
        · exact (there absent).elim
    obtain ⟨result, c⟩ := out
    cases result with
    | ok => exact create c
    | error =>
      dsimp only
      split_ifs with exists_
      · exact (create c).pre_mono fun w known => known (decide_eq_true exists_)
      · exact done_error _ _

theorem newContainer_spec (snapshots : Snapshots) :
    Prog.Triple Daemon.Answers (Says fun d _ => d.snapshots = snapshots)
      (newContainer env id snapshotId imageName spec c)
      (Done fun _ d b => ∃ parsed chainId, ConfigLast parsed b ∧
        computeChainId parsed.diffIds = some chainId ∧
        d.snapshots = snapshots.prepared (defaultSnapshotter, snapshotId) chainId ∧
        d.containers id = some (newRecord snapshotId imageName)) := by
  have image : Inert (getImage imageName c) := by
    refine (inert_sharedUnary rfl).bind fun ⟨result, c⟩ => ?_
    rcases result with rc | _ | digest <;> exact inert_ret _
  refine (image _).bind fun ⟨result, c⟩ => ?_
  rcases result with rc | ⟨name, _ | targetDigest⟩
  · exact done_error _ _
  · exact done_error _ _
  refine (triple_resolveConfigDigest (fun digest c => (contentReadBlob_spec _ digest).post_mono
    fun _ _ => And.left) env.wantArch targetDigest c).bind fun ⟨result, c⟩ => ?_
  rcases result with rc | digest
  · exact done_error _ _
  refine (contentReadBlob_spec _ digest).bind fun ⟨result, c⟩ => ?_
  rcases result with rc | blob
  · exact done_error _ _
  dsimp only
  cases parse : parseImageConfig blob with
  | none => exact done_error _ _
  | some parsed =>
    refine Prog.Triple.post_mono ((prepareAndCreate_spec env id snapshotId imageName spec snapshots
      parsed).pre_mono ?_) ?_
    · intro w known
      refine ⟨known.1, ?_⟩
      rw [ConfigLast, known.2 blob rfl]
      exact parse
    intro out w done container ok
    obtain ⟨chainId, chain, last, rest⟩ := done container ok
    exact ⟨parsed, chainId, last, chain, rest⟩

end

end

end Strimserver.Containerd
