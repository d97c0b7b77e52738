import Strimserver.Containerd.ChainId
import Strimserver.Library.Json
import Strimserver.Library.Prog
import Strimserver.Oci.Spec

/-!
# The containerd client

`containerd_client.c` with `snapshots.c` and `content.c`: the calls of the client, as programs
that dial and make RPCs.

The client has one shared connection, present or absent. Most RPCs go through
`shared_unary_locked`, which dials first when the connection is absent. The helpers of the
Snapshots and Content services take the connection as it is, and refuse an absent one.
`strim_containerd_task_wait` has a connection of its own.

An RPC is its request as the source fills it in. It is answered by a code other than zero, a
gRPC status or a client-side error, or by the fields of its response that are read; a response
that cannot be decoded has none. A blob read is one RPC. Codes are integers: the error codes of
the two layers share their values.

Allocation failures, the media type and size of an image, and the namespace of a request are left
out, and so are the lists of handles, which the module `Handles` adds. `strdup` and `strcmp` stop
at a zero octet, so a string that comes from JSON is cut there.
-/

namespace Strimserver.Containerd

open Library Oci

/-! ## Codes -/

/-- `H2C_ERR_TIMEOUT`. -/
def h2cErrTimeout : ℤ := -1

/-- `H2C_ERR_IO`. -/
def h2cErrIo : ℤ := -2

/-- `H2C_ERR_PROTO`. -/
def h2cErrProto : ℤ := -3

/-- `H2C_ERR_GOAWAY`. -/
def h2cErrGoaway : ℤ := -4

/-- `H2C_ERR_NOSTREAM`. -/
def h2cErrNoStream : ℤ := -5

/-- `H2C_ERR_TOOBIG`. -/
def h2cErrTooBig : ℤ := -6

/-- `H2C_ERR_BADARG`. -/
def h2cErrBadArg : ℤ := -7

/-- `H2C_ERR_NOCONN`. -/
def h2cErrNoConn : ℤ := -9

/-- `H2C_ERR_CLOSED`. -/
def h2cErrClosed : ℤ := -10

/-- `H2C_STATUS_DEADLINE_EXCEEDED`. -/
def statusDeadlineExceeded : ℤ := 4

/-- `H2C_STATUS_NOT_FOUND`. -/
def statusNotFound : ℤ := 5

theorem statusNotFound_ne : statusNotFound ≠ 0 := by decide

/-- `H2C_STATUS_ALREADY_EXISTS`. -/
def statusAlreadyExists : ℤ := 6

/-- `H2C_STATUS_UNAVAILABLE`. -/
def statusUnavailable : ℤ := 14

/-- `STRIM_CTRD_ERR_CONNECT`. -/
def ctrdErrConnect : ℤ := -2

/-- `STRIM_CTRD_ERR_NOTFOUND`. -/
def ctrdErrNotFound : ℤ := -3

theorem ctrdErrNotFound_ne : ctrdErrNotFound ≠ 0 := by decide

/-- `STRIM_CTRD_ERR_TIMEOUT`. -/
def ctrdErrTimeout : ℤ := -4

/-- `STRIM_CTRD_ERR_IO`. -/
def ctrdErrIo : ℤ := -5

theorem ctrdErrIo_ne : ctrdErrIo ≠ 0 := by decide

/-- `STRIM_CTRD_ERR_PROTO`. -/
def ctrdErrProto : ℤ := -6

/-- `STRIM_CTRD_ERR_CLOSED`. -/
def ctrdErrClosed : ℤ := -7

/-- `STRIM_CTRD_ERR_NOMEM`. -/
def ctrdErrNoMem : ℤ := -8

/-- `STRIM_CTRD_ERR_RPC`. -/
def ctrdErrRpc : ℤ := -9

/-- A code that is not success. -/
abbrev Failure := { rc : ℤ // rc ≠ 0 }

/-- `map_grpc_err`. -/
def mapGrpcErr (rc : ℤ) : ℤ :=
  if 0 ≤ rc then
    if rc = 0 then 0
    else if rc = statusNotFound then ctrdErrNotFound
    else if rc = statusDeadlineExceeded then ctrdErrTimeout
    else if rc = statusAlreadyExists then ctrdErrIo
    else if rc = statusUnavailable then ctrdErrIo
    else ctrdErrRpc
  else if rc = h2cErrTimeout then ctrdErrTimeout
  else if rc = h2cErrClosed then ctrdErrClosed
  else if rc = h2cErrTooBig ∨ rc = h2cErrProto then ctrdErrProto
  else ctrdErrIo

/-- `map_rpc_err`. -/
def mapRpcErr (rc : ℤ) : ℤ := if rc = ctrdErrConnect then ctrdErrConnect else mapGrpcErr rc

/-- `transport_is_dead`. -/
def transportIsDead (rc : ℤ) : Bool :=
  rc = h2cErrIo || rc = h2cErrGoaway || rc = h2cErrProto || rc = h2cErrNoStream ||
    rc = h2cErrNoConn || rc = h2cErrClosed || rc = h2cErrTooBig

/-! ## RPCs -/

/-- A mount of `Snapshots/Mounts`. -/
structure RootMount where
  (type source target : Octets)
  options : List Octets

/-- The container of `Containers/Create`. -/
structure CreateRequest where
  (id image runtimeName specTypeUrl specValue snapshotter snapshotKey : Octets)

/-- The container of `Containers/Get`. -/
structure ContainerRecord where
  (image runtimeName snapshotter snapshotKey : Option Octets)

/-- The calls to containerd. -/
inductive Rpc where
  | imagesGet (name : Octets)
  | contentRead (digest : Octets)
  | snapshotsPrepare (snapshotter key parent : Octets)
  | snapshotsMounts (snapshotter key : Octets)
  | snapshotsRemove (snapshotter key : Octets)
  | containersGet (id : Octets)
  | containersCreate (container : CreateRequest)
  | containersDelete (id : Octets)
  | tasksCreate (containerId : Octets) (rootfs : List RootMount) (stdio : Option Octets)
  | tasksGet (containerId : Octets)
  | tasksStart (containerId : Octets)
  | tasksKill (containerId : Octets) (signal : ℕ) (all : Bool)
  | tasksDelete (containerId : Octets)
  | tasksWait (containerId : Octets)

/-- What is read of a response. -/
def Rpc.Body : Rpc → Type
  /- The digest of the target, where the response has an image. -/
  | imagesGet _ => Option (Option Octets)
  /- The blob, unless a message cannot be decoded or exceeds the bound. -/
  | contentRead _ => Option Octets
  | snapshotsPrepare .. => Unit
  | snapshotsMounts .. => Option (List RootMount)
  | snapshotsRemove .. => Unit
  | containersGet _ => Option ContainerRecord
  | containersCreate _ => Option Unit
  | containersDelete _ => Unit
  /- The process id. -/
  | tasksCreate .. => Option ℕ
  | tasksGet _ => Option ℕ
  | tasksStart _ => Unit
  | tasksKill .. => Unit
  | tasksDelete _ => Unit
  /- The exit status. -/
  | tasksWait _ => Option ℤ

/-- The connection that an RPC goes through. -/
inductive Connection where
  | shared
  | own
  deriving DecidableEq

/-- What a program of the client does. -/
inductive Call where
  /-- `h2c_connect`. -/
  | dial (connection : Connection)
  | rpc (connection : Connection) (rpc : Rpc)

/-- What an RPC comes to: its code or its response, and whether the connection died under it. The
client is not told the latter: a stream that the death completes has the status UNAVAILABLE, like
one that is refused. -/
structure Outcome (β : Type) where
  result : Except Failure β
  died : Bool

/-- What comes back. -/
def Reply : Call → Type
  | .dial _ => Except Failure Unit
  | .rpc _ rpc => Outcome rpc.Body

/-! ## The shared connection -/

/-- `struct strim_containerd_client`. -/
structure Client where
  /-- The shared connection is there. -/
  connected : Bool
  lastGrpcStatus : ℤ
  ns : Octets

/-- `strim_containerd_connect`. -/
def Client.connect (ns : Octets) : Client := ⟨false, 0, ns⟩

/-- `shared_conn_reset_locked`, when the code says that the connection is dead. -/
def Client.resetIfDead (c : Client) (rc : ℤ) : Client :=
  { c with connected := c.connected && !transportIsDead rc }

/-- A program that passes the client on. -/
abbrev ClientProg (α : Type) := Prog Call Reply (α × Client)

/-- What `shared_unary_locked` does after `h2c_unary`. -/
def Client.afterUnary {β : Type} (c : Client) : Except Failure β → Client
  | .ok _ => { c with lastGrpcStatus := 0 }
  | .error rc => { c.resetIfDead rc with lastGrpcStatus := if 0 < rc.val then rc.val else 0 }

/-- `h2c_unary` on the shared connection. -/
def unary (rpc : Rpc) (c : Client) : ClientProg (Except Failure rpc.Body) :=
  .call (.rpc .shared rpc) fun reply => .ret (reply.result, c.afterUnary reply.result)

/-- `shared_unary_locked`, with `shared_conn_locked`. -/
def sharedUnary (rpc : Rpc) (c : Client) : ClientProg (Except Failure rpc.Body) :=
  if c.connected then unary rpc c
  else
    .call (.dial .shared) fun
      | .error _ => .ret (.error ⟨ctrdErrConnect, by decide⟩, c)
      | .ok () => unary rpc { c with connected := true }

/-- An RPC of a helper that is given the shared connection, with the test of its argument. -/
def helperRpc (rpc : Rpc) (c : Client) : ClientProg (Except Failure rpc.Body) :=
  if c.connected then .call (.rpc .shared rpc) fun reply => .ret (reply.result, c)
  else .ret (.error ⟨h2cErrBadArg, by decide⟩, c)

/-- What the callers of a helper do when it fails. -/
def helperFailed {α : Type} (rc : ℤ) (c : Client) : ClientProg (Except ℤ α) :=
  .ret (.error (mapGrpcErr rc), c.resetIfDead rc)

/-! ## Images -/

/-- `struct strim_image`. -/
structure Image where
  name : Octets
  targetDigest : Option Octets

/-- `get_image_locked`. -/
def getImage (ref : Octets) (c : Client) : ClientProg (Except ℤ Image) :=
  (sharedUnary (.imagesGet ref) c).bind fun
    | (.error rc, c) => .ret (.error (mapRpcErr rc), c)
    | (.ok none, c) => .ret (.error ctrdErrProto, c)
    | (.ok (some targetDigest), c) => .ret (.ok ⟨ref, targetDigest⟩, c)

/-- The octets before the terminator. -/
def cString (s : Octets) : Octets := s.takeWhile (· ≠ 0)

/-- `dup_yy_str`. -/
def dupYyStr (value : Option Json) : Option Octets := (value.bind Json.str?).map cString

/-- `dup_str_array`. -/
def dupStrArray (value : Option Json) : Option (List Octets) :=
  match value.bind Json.arr? with
  | some (item :: items) => (item :: items).mapM fun item => dupYyStr (some item)
  | _ => none

/-- `image_config_get`. -/
def imageConfigGet (config : Json) (canonical lowercase : String) : Option Json :=
  (config.get? (ascii canonical)).or (config.get? (ascii lowercase))

/-- `struct image_config`. -/
structure ParsedConfig where
  config : ImageConfig
  diffIds : List Octets

/-- The `config` object of `parse_image_config`. -/
def parseConfigObject (config : Json) : ImageConfig where
  env := (dupStrArray (imageConfigGet config "Env" "env")).getD []
  entrypoint := (dupStrArray (imageConfigGet config "Entrypoint" "entrypoint")).getD []
  cmd := (dupStrArray (imageConfigGet config "Cmd" "cmd")).getD []
  workingDir := dupYyStr (imageConfigGet config "WorkingDir" "workingdir")
  user := dupYyStr (imageConfigGet config "User" "user")

def isObj : Json → Bool
  | .obj _ => true
  | _ => false

/-- `parse_image_config`. -/
def parseImageConfig (blob : Octets) : Option ParsedConfig := do
  let root ← Json.parse blob
  let rootfs ← root.get? (ascii "rootfs")
  let diffIds ← dupStrArray (rootfs.get? (ascii "diff_ids"))
  let config := (root.get? (ascii "config")).filter isObj
  return ⟨(config.map parseConfigObject).getD ⟨[], [], [], none, none⟩, diffIds⟩

/-- The test of a platform in `resolve_config_digest`. -/
def platformMatches (wantArch : Octets) (manifest : Json) : Bool :=
  let platform := manifest.get? (ascii "platform")
  let arch := (platform.bind (Json.get? (ascii "architecture"))).bind Json.str?
  let os := (platform.bind (Json.get? (ascii "os"))).bind Json.str?
  arch.any (fun arch => cString arch = wantArch) && os.all fun os => cString os = ascii "linux"

def chooseManifest (wantArch : Octets) (manifests : List Json) : Option Json :=
  (manifests.find? (platformMatches wantArch)).or manifests.head?

/-- The digest of the manifest behind an index, if the blob is one. -/
def indexDigest (wantArch : Octets) (root : Json) : Option Octets :=
  ((root.get? (ascii "manifests")).bind Json.arr?).bind fun manifests =>
    (chooseManifest wantArch manifests).bind fun chosen => dupYyStr (chosen.get? (ascii "digest"))

def configDigest (root : Json) : Except Failure Octets :=
  match (root.get? (ascii "config")).bind fun config => dupYyStr (config.get? (ascii "digest")) with
  | some digest => .ok digest
  | none => .error ⟨h2cErrProto, by decide⟩

/-- `content_read_blob`. -/
def contentReadBlob (digest : Octets) (c : Client) : ClientProg (Except Failure Octets) :=
  (helperRpc (.contentRead digest) c).bind fun
    | (.error rc, c) => .ret (.error rc, c)
    | (.ok none, c) => .ret (.error ⟨h2cErrProto, by decide⟩, c)
    | (.ok (some blob), c) => .ret (.ok blob, c)

/-- `resolve_config_digest`. -/
def resolveConfigDigest (wantArch targetDigest : Octets) (c : Client) :
    ClientProg (Except Failure Octets) :=
  (contentReadBlob targetDigest c).bind fun
    | (.error rc, c) => .ret (.error rc, c)
    | (.ok blob, c) =>
      match (Json.parse blob).filter isObj with
      | none => .ret (.error ⟨h2cErrProto, by decide⟩, c)
      | some root =>
        match indexDigest wantArch root with
        | none => .ret (configDigest root, c)
        | some digest =>
          (contentReadBlob digest c).bind fun
            | (.error rc, c) => .ret (.error rc, c)
            | (.ok blob, c) =>
              match Json.parse blob with
              | none => .ret (.error ⟨h2cErrProto, by decide⟩, c)
              | some root => .ret (configDigest root, c)

/-! ## Containers -/

/-- `STRIM_CTRD_DEFAULT_SNAPSHOTTER`. -/
def defaultSnapshotter : Octets := ascii "overlayfs"

/-- `STRIM_CTRD_DEFAULT_RUNTIME`. -/
def defaultRuntime : Octets := ascii "io.containerd.runc.v2"

def specTypeUrl : Octets := ascii "types.containerd.io/opencontainers/runtime-spec/1/Spec"

/-- `struct strim_container`. -/
structure Container where
  id : Octets
  (image runtimeName snapshotter snapshotKey : Option Octets)

/-- The snapshot key, unless it is absent or empty. -/
def Container.snapshot (container : Container) : Option Octets :=
  container.snapshotKey.filter (· ≠ [])

/-- What `new_container_locked` takes from elsewhere: the architecture, the allocator, the files
that the spec builder sees, and the pending CDI edits. -/
structure Env where
  wantArch : Octets
  alloc : ℕ → Bool
  host : Host
  cdi : Option CdiEdits

/-- The values of `pb_size_t`, without `PB_FIELD_32BIT`. -/
def pbSizeT : ℕ := 2 ^ 16

/-- `pb_bytes_new`, as the octets that are encoded: the size is cut to `pb_size_t`. -/
def pbBytesNew (data : Octets) : Octets := data.take (data.length % pbSizeT)

section

variable (env : Env) (id snapshotId imageName : Octets) (spec : Spec)

/-- Steps 4 and 5 of `new_container_locked`. -/
def createContainer (config : ImageConfig) (c : Client) : ClientProg (Except ℤ Container) :=
  match buildSpec env.alloc env.host spec config (some c.ns) id env.cdi with
  | none => .ret (.error ctrdErrNoMem, c)
  | some json =>
    (sharedUnary (.containersCreate ⟨id, imageName, defaultRuntime, specTypeUrl, pbBytesNew json,
        defaultSnapshotter, snapshotId⟩) c).bind fun
      | (.error rc, c) => .ret (.error (mapRpcErr rc), c)
      | (.ok none, c) => .ret (.error ctrdErrProto, c)
      | (.ok (some ()), c) => .ret (.ok ⟨id, some imageName, some defaultRuntime,
          some defaultSnapshotter, some snapshotId⟩, c)

/-- `new_container_locked` from step 3 on. -/
def prepareAndCreate (parsed : ParsedConfig) (c : Client) : ClientProg (Except ℤ Container) :=
  match computeChainId parsed.diffIds with
  | none => .ret (.error ctrdErrNoMem, c)
  | some chainId =>
    (helperRpc (.snapshotsPrepare defaultSnapshotter snapshotId chainId) c).bind fun
      | (.error rc, c) =>
        if rc.val = statusAlreadyExists then
          createContainer env id snapshotId imageName spec parsed.config c
        else helperFailed rc c
      | (.ok (), c) => createContainer env id snapshotId imageName spec parsed.config c

/-- `new_container_locked` once it has the image. -/
def containerFrom (c : Client) : Image → ClientProg (Except ℤ Container)
  | ⟨_, none⟩ => .ret (.error ctrdErrProto, c)
  | ⟨_, some targetDigest⟩ =>
    (resolveConfigDigest env.wantArch targetDigest c).bind fun
      | (.error rc, c) => helperFailed rc c
      | (.ok digest, c) =>
        (contentReadBlob digest c).bind fun
          | (.error rc, c) => helperFailed rc c
          | (.ok blob, c) =>
            match parseImageConfig blob with
            | none => .ret (.error ctrdErrProto, c)
            | some parsed => prepareAndCreate env id snapshotId imageName spec parsed c

/-- `new_container_locked`. -/
def newContainer (c : Client) : ClientProg (Except ℤ Container) :=
  (getImage imageName c).bind fun
    | (.error rc, c) => .ret (.error rc, c)
    | (.ok image, c) => containerFrom env id snapshotId imageName spec c image

end

/-- `load_container_locked`. -/
def loadContainer (id : Octets) (c : Client) : ClientProg (Except ℤ Container) :=
  (sharedUnary (.containersGet id) c).bind fun
    | (.error rc, c) => .ret (.error (mapRpcErr rc), c)
    | (.ok none, c) => .ret (.error ctrdErrProto, c)
    | (.ok (some record), c) => .ret (.ok ⟨id, record.image, record.runtimeName,
        record.snapshotter, record.snapshotKey⟩, c)

/-- `Containers/Delete` of `delete_container_locked`. -/
def deleteRecord (id : Octets) (c : Client) : ClientProg (Except ℤ Unit) :=
  (sharedUnary (.containersDelete id) c).bind fun
    | (.error rc, c) => .ret (.error (mapRpcErr rc), c)
    | (.ok (), c) => .ret (.ok (), c)

/-- `delete_container_locked`. -/
def deleteContainer (container : Container) (cleanupSnapshot : Bool) (c : Client) :
    ClientProg (Except ℤ Unit) :=
  match if cleanupSnapshot then container.snapshot else none with
  | none => deleteRecord container.id c
  | some key =>
    (helperRpc (.snapshotsRemove (container.snapshotter.getD defaultSnapshotter) key) c).bind fun
      | (.error rc, c) =>
        if rc.val = statusNotFound then deleteRecord container.id c else helperFailed rc c
      | (.ok (), c) => deleteRecord container.id c

/-! ## Tasks -/

/-- `struct strim_task`. -/
structure Task where
  containerId : Octets
  stdoutUri : Option Octets
  pid : ℕ

/-- `logfile_uri`, for a log file that is given. -/
def logfileUri (logfile : Option Octets) : Option Octets :=
  (logfile.filter (· ≠ [])).map (ascii "file://" ++ ·)

/-- `Tasks/Create` of `new_task_locked`. -/
def createTask (container : Container) (logfile : Option Octets) (mounts : List RootMount)
    (c : Client) : ClientProg (Except ℤ Task) :=
  (sharedUnary (.tasksCreate container.id mounts (logfileUri logfile)) c).bind fun
    | (.error rc, c) => .ret (.error (mapRpcErr rc), c)
    | (.ok none, c) => .ret (.error ctrdErrProto, c)
    | (.ok (some pid), c) => .ret (.ok ⟨container.id, logfileUri logfile, pid⟩, c)

/-- `new_task_locked`. -/
def newTask (container : Container) (logfile : Option Octets) (c : Client) :
    ClientProg (Except ℤ Task) :=
  match container.snapshot with
  | none => createTask container logfile [] c
  | some key =>
    (helperRpc (.snapshotsMounts (container.snapshotter.getD defaultSnapshotter) key) c).bind fun
      | (.error rc, c) => helperFailed rc c
      | (.ok none, c) => helperFailed h2cErrProto c
      | (.ok (some mounts), c) => createTask container logfile mounts c

/-- `load_task_locked`. -/
def loadTask (container : Container) (c : Client) : ClientProg (Except ℤ Task) :=
  (sharedUnary (.tasksGet container.id) c).bind fun
    | (.error rc, c) => .ret (.error (mapRpcErr rc), c)
    | (.ok none, c) => .ret (.error ctrdErrProto, c)
    | (.ok (some pid), c) => .ret (.ok ⟨container.id, none, pid⟩, c)

/-- `task_start_locked`. -/
def taskStart (task : Task) (c : Client) : ClientProg (Except ℤ Unit) :=
  (sharedUnary (.tasksStart task.containerId) c).bind fun
    | (.error rc, c) => .ret (.error (mapRpcErr rc), c)
    | (.ok (), c) => .ret (.ok (), c)

/-- `kill_locked`. -/
def kill (task : Task) (signum : ℕ) (all : Bool) (c : Client) : ClientProg (Except Failure Unit) :=
  sharedUnary (.tasksKill task.containerId signum all) c

/-- `strim_containerd_task_kill`. -/
def taskKill (task : Task) (signum : ℕ) (c : Client) : ClientProg (Except ℤ Unit) :=
  (kill task signum false c).bind fun
    | (.error rc, c) =>
      if rc.val = statusNotFound then .ret (.ok (), c) else .ret (.error (mapRpcErr rc), c)
    | (.ok (), c) => .ret (.ok (), c)

/-- `strim_containerd_task_wait`. -/
def taskWait (task : Task) (c : Client) : ClientProg (Except ℤ ℤ) :=
  .call (.dial .own) fun
    | .error _ => .ret (.error ctrdErrConnect, c)
    | .ok () =>
      .call (.rpc .own (.tasksWait task.containerId)) fun
        | ⟨.error rc, _⟩ => .ret (.error (mapGrpcErr rc), c)
        | ⟨.ok none, _⟩ => .ret (.error ctrdErrProto, c)
        | ⟨.ok (some exitStatus), _⟩ => .ret (.ok exitStatus, c)

/-- `Tasks/Delete` of `task_delete_locked`. -/
def deleteTaskRecord (task : Task) (c : Client) : ClientProg (Except ℤ Unit) :=
  (sharedUnary (.tasksDelete task.containerId) c).bind fun
    | (.error rc, c) =>
      if rc.val = statusNotFound then .ret (.ok (), c) else .ret (.error (mapRpcErr rc), c)
    | (.ok (), c) => .ret (.ok (), c)

/-- `SIGKILL`. -/
def sigKill : ℕ := 9

/-- The wait of a forced delete, once the task is killed. -/
def waitAndDelete (task : Task) (c : Client) : ClientProg (Except ℤ Unit) :=
  (taskWait task c).bind fun
    | (.error rc, c) =>
      if rc = ctrdErrNotFound ∨ rc = ctrdErrTimeout then deleteTaskRecord task c
      else .ret (.error rc, c)
    | (.ok _, c) => deleteTaskRecord task c

/-- `task_delete_locked`. -/
def taskDelete (task : Task) (force : Bool) (c : Client) : ClientProg (Except ℤ Unit) :=
  if force then
    (kill task sigKill true c).bind fun
      | (.error rc, c) =>
        if rc.val = statusNotFound then waitAndDelete task c
        else .ret (.error (mapRpcErr rc), c)
      | (.ok (), c) => waitAndDelete task c
  else deleteTaskRecord task c

/-! ## The calls -/

/-- The calls of the client that use its shared connection. -/
inductive Op where
  | getImage (ref : Octets)
  | loadContainer (id : Octets)
  | newContainer (env : Env) (id snapshotId imageName : Octets) (spec : Spec)
  | newTask (container : Container) (logfile : Option Octets)
  | loadTask (container : Container)
  | taskStart (task : Task)
  | taskKill (task : Task) (signum : ℕ)
  | taskDelete (task : Task) (force : Bool)
  | deleteContainer (container : Container) (cleanupSnapshot : Bool)

/-- What a call returns when it succeeds. -/
def Op.Result : Op → Type
  | getImage _ => Image
  | loadContainer _ | newContainer .. => Container
  | newTask .. | loadTask _ => Task
  | taskStart _ | taskKill .. | taskDelete .. | deleteContainer .. => Unit

/-- The program of a call. -/
def Op.run : (op : Op) → Client → ClientProg (Except ℤ op.Result)
  | .getImage ref => Containerd.getImage ref
  | .loadContainer id => Containerd.loadContainer id
  | .newContainer env id snapshotId imageName spec =>
    Containerd.newContainer env id snapshotId imageName spec
  | .newTask container logfile => Containerd.newTask container logfile
  | .loadTask container => Containerd.loadTask container
  | .taskStart task => Containerd.taskStart task
  | .taskKill task signum => Containerd.taskKill task signum
  | .taskDelete task force => Containerd.taskDelete task force
  | .deleteContainer container cleanupSnapshot =>
    Containerd.deleteContainer container cleanupSnapshot

end Strimserver.Containerd
