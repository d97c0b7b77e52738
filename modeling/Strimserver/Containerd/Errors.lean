import Strimserver.Containerd.Client

/-!
# Transport errors

How the calls of the client report what happened to their dials and RPCs. A run of a call
leaves a record of its dials and RPCs with their outcomes, and `Classified` says what the
caller should see: `STRIM_CTRD_ERR_CONNECT` for a dial that failed and for nothing else,
the class of the code for an RPC that failed, and the shared connection dropped where it has
died.

Two things go wrong. `STRIM_CTRD_ERR_CONNECT` has the value of `H2C_ERR_IO`, so `map_rpc_err`
takes an RPC whose connection broke for a dial that failed. And an RPC whose connection dies
under it need not end with a code that says so: it can end with the status UNAVAILABLE, for
which the connection is kept, or with `H2C_ERR_PROTO`. `classified_iff` says that these are all.
-/

namespace Strimserver.Containerd

open Library List

/-! ## Records -/

/-- The dials and RPCs of a run. -/
abbrev Record := List (Prog.Event Reply)

def dialFailed (record : Record) : Bool :=
  record.any fun
    | ⟨.dial _, .error _⟩ => true
    | _ => false

/-- An RPC that failed: its connection, its code, and whether the connection has died. -/
structure RpcFailure where
  connection : Connection
  rpc : Rpc
  rc : Failure
  died : Bool

def failures (record : Record) : List RpcFailure :=
  record.filterMap fun
    | ⟨.rpc connection rpc, ⟨.error rc, died⟩⟩ => some ⟨connection, rpc, rc, died⟩
    | _ => none

/-- The codes that a call goes on after. -/
def Rpc.tolerates : Rpc → ℤ → Bool
  | snapshotsPrepare .., rc => rc = statusAlreadyExists
  | snapshotsRemove .., rc | tasksKill .., rc | tasksDelete _, rc => rc = statusNotFound
  | tasksWait _, rc => rc = statusNotFound || rc = statusDeadlineExceeded || rc = h2cErrTimeout
  | _, _ => false

/-- The RPCs of the Snapshots and Content helpers, which do not go through
`shared_unary_locked`. -/
def Rpc.viaHelper : Rpc → Bool
  | contentRead _ | snapshotsPrepare .. | snapshotsMounts .. | snapshotsRemove .. => true
  | _ => false

def RpcFailure.ends (f : RpcFailure) : Bool := !f.rpc.tolerates f.rc

/-- The class of a failure: a connection that dies is an IO error, a deadline a timeout, and the
rest goes by the table of `map_grpc_err`. -/
def RpcFailure.expected (f : RpcFailure) : ℤ :=
  if f.died = true ∨ f.rc.val = h2cErrIo ∨ f.rc.val = h2cErrGoaway then ctrdErrIo
  else if f.rc.val = h2cErrTimeout ∨ f.rc.val = statusDeadlineExceeded then ctrdErrTimeout
  else mapGrpcErr f.rc

/-- What the caller should see of a run. -/
structure Classified {α : Type} (record : Record) (result : Except ℤ α) (c : Client) : Prop where
  /-- The code for a dial that failed. -/
  connect : result = .error ctrdErrConnect ↔ dialFailed record = true
  /-- The codes for RPCs that failed. -/
  reported : ∀ f ∈ failures record, f.ends = true → result = .error f.expected
  /-- A shared connection that has died is dropped. -/
  dropped : ∀ f ∈ failures record, f.ends = true → f.connection = .shared →
    f.died = true ∨ transportIsDead f.rc = true → c.connected = false

/-- The code of a failure tells what happened: an RPC of `shared_unary_locked` does not end with
`H2C_ERR_IO`, and where the connection has died the code is one of an IO error, and of
`transport_is_dead` on the shared connection. -/
structure RpcFailure.Tells (f : RpcFailure) : Prop where
  direct : f.connection = .shared → f.rpc.viaHelper = false → f.rc.val ≠ h2cErrIo
  io : f.died = true → mapGrpcErr f.rc = ctrdErrIo
  dead : f.died = true → f.connection = .shared → transportIsDead f.rc = true

/-- The codes of a record tell what happened to the connections. -/
def CodesTell (record : Record) : Prop := ∀ f ∈ failures record, f.ends = true → f.Tells

/-! ## Codes -/

theorem mapGrpcErr_ne_connect (rc : ℤ) : mapGrpcErr rc ≠ ctrdErrConnect := by
  unfold mapGrpcErr
  split_ifs <;> decide

theorem RpcFailure.eq_expected_iff (f : RpcFailure) :
    mapGrpcErr f.rc = f.expected ↔ (f.died = true → mapGrpcErr f.rc = ctrdErrIo) := by
  unfold RpcFailure.expected
  split_ifs with lost deadline
  · refine ⟨fun io _ => io, fun io => ?_⟩
    rcases lost with died | lost | lost
    · exact io died
    · exact congrArg mapGrpcErr lost
    · exact congrArg mapGrpcErr lost
  · rw [not_or] at lost
    refine iff_of_true ?_ fun died => (lost.1 died).elim
    exact deadline.elim (congrArg mapGrpcErr) (congrArg mapGrpcErr)
  · rw [not_or] at lost
    exact iff_of_true rfl fun died => (lost.1 died).elim

theorem mapRpcErr_eq {rc : ℤ} (ne : rc ≠ h2cErrIo) : mapRpcErr rc = mapGrpcErr rc := if_neg ne

theorem tolerates_io (rpc : Rpc) : rpc.tolerates h2cErrIo = false := by cases rpc <;> rfl

/-- The code that the calls report: those of `shared_unary_locked` use `map_rpc_err`. -/
def RpcFailure.report (f : RpcFailure) : ℤ :=
  if f.connection = .shared ∧ f.rpc.viaHelper = false then mapRpcErr f.rc else mapGrpcErr f.rc

/-- The report is right, and a dead connection dropped, just if the code tells. -/
theorem RpcFailure.report_right_iff (f : RpcFailure) {connected : Bool}
    (kept : f.connection = .shared → connected = !transportIsDead f.rc) :
    (f.report ≠ ctrdErrConnect ∧ f.report = f.expected ∧ (f.connection = .shared →
      f.died = true ∨ transportIsDead f.rc = true → connected = false)) ↔ f.Tells := by
  have expected := f.eq_expected_iff
  have drops : (f.connection = .shared → f.died = true ∨ transportIsDead f.rc = true →
      connected = false) ↔
      (f.died = true → f.connection = .shared → transportIsDead f.rc = true) := by
    constructor
    · intro drops died shared
      have dropped := drops shared (.inl died)
      rwa [kept shared, Bool.not_eq_false'] at dropped
    · intro dead shared either
      rw [kept shared, Bool.not_eq_false']
      exact either.elim (fun died => dead died shared) id
  rw [drops, report]
  split_ifs with direct
  · constructor
    · intro ⟨other, class_, dead⟩
      have noIo : f.rc.val ≠ h2cErrIo := fun io => other (if_pos io)
      rw [mapRpcErr_eq noIo] at class_
      exact ⟨fun _ _ => noIo, expected.mp class_, dead⟩
    · intro tells
      rw [mapRpcErr_eq (tells.direct direct.1 direct.2)]
      exact ⟨mapGrpcErr_ne_connect _, expected.mpr tells.io, tells.dead⟩
  constructor
  · intro ⟨_, class_, dead⟩
    exact ⟨fun shared helper => (direct ⟨shared, helper⟩).elim, expected.mp class_, dead⟩
  · intro tells
    exact ⟨mapGrpcErr_ne_connect _, expected.mpr tells.io, tells.dead⟩

/-! ## A run that goes on -/

/-- So far no dial has failed, and no RPC with a code that ends the call. -/
structure Going (record : Record) : Prop where
  dialled : dialFailed record = false
  tolerated : ∀ f ∈ failures record, f.ends = false

def Verdict {α : Type} (ended : Except ℤ α × Client) (record : Record) : Prop :=
  Classified record ended.1 ended.2 ↔ CodesTell record

section

variable {record : Record} (connection : Connection)

theorem failures_dial (reply : Except Failure Unit) :
    failures (record ++ [⟨.dial connection, reply⟩]) = failures record := by
  rw [failures, filterMap_append]
  exact append_nil _

variable (rpc : Rpc)

theorem failures_error (rc : Failure) (died : Bool) :
    failures (record ++ [⟨.rpc connection rpc, ⟨.error rc, died⟩⟩]) =
      failures record ++ [⟨connection, rpc, rc, died⟩] :=
  filterMap_append

theorem dialFailed_rpc (reply : Outcome rpc.Body) :
    dialFailed (record ++ [⟨.rpc connection rpc, reply⟩]) = dialFailed record := by
  rw [dialFailed, any_append]
  exact Bool.or_false _

end

namespace Going

variable {α : Type} {record : Record}

theorem nil : Going [] := ⟨rfl, nofun⟩

variable (going : Going record)

include going

theorem dial (connection : Connection) : Going (record ++ [⟨.dial connection, .ok ()⟩]) := by
  refine ⟨?_, (failures_dial connection _).symm ▸ going.tolerated⟩
  rw [dialFailed, any_append]
  exact (Bool.or_false _).trans going.dialled

theorem ok (connection : Connection) (rpc : Rpc) (body : rpc.Body) (died : Bool) :
    Going (record ++ [⟨.rpc connection rpc, ⟨.ok body, died⟩⟩]) := by
  refine ⟨(dialFailed_rpc ..).trans going.dialled, ?_⟩
  rw [failures, filterMap_append]
  exact (append_nil _).symm ▸ going.tolerated

/-- What is recorded does not end the call. -/
theorem not_ends {f : RpcFailure} (mem : f ∈ failures record) : ¬ f.ends = true :=
  Bool.eq_false_iff.mp (going.tolerated f mem)

/-- An RPC that fails is reported right just if its code tells. -/
theorem verdict_error {f : RpcFailure} (ends : f.ends = true) {c : Client}
    (kept : f.connection = .shared → c.connected = !transportIsDead f.rc) :
    Verdict ((.error f.report : Except ℤ α), c)
      (record ++ [⟨.rpc f.connection f.rpc, ⟨.error f.rc, f.died⟩⟩]) := by
  -- Of the failures on record, the last one only ends the call.
  have only {P : RpcFailure → Prop} : (∀ f' ∈ failures (record ++
      [⟨.rpc f.connection f.rpc, ⟨.error f.rc, f.died⟩⟩]), f'.ends = true → P f') ↔ P f := by
    rw [failures_error, forall_mem_append, forall_mem_singleton]
    exact ⟨fun all => all.2 ends, fun holds =>
      ⟨fun f' mem ends' => (going.not_ends mem ends').elim, fun _ => holds⟩⟩
  rw [Verdict, CodesTell, only, ← f.report_right_iff kept]
  constructor
  · intro classified
    refine ⟨fun connect => ?_, Except.error.inj (only.mp classified.reported),
      only.mp classified.dropped⟩
    have failed := classified.connect.mp (congrArg Except.error connect)
    rw [dialFailed_rpc, going.dialled] at failed
    cases failed
  intro ⟨other, class_, drops⟩
  refine ⟨?_, only.mpr (congrArg Except.error class_), only.mpr drops⟩
  rw [dialFailed_rpc, going.dialled]
  exact iff_of_false (fun connect => other (Except.error.inj connect)) Bool.false_ne_true

end Going

/-! ## Rules for the programs of the client -/

/-- Whatever was recorded before, the verdict on every run of a program is right. -/
def Judged {α : Type} (p : ClientProg (Except ℤ α)) : Prop :=
  Prog.Triple Prog.Recorded Going p Verdict

section

variable {α : Type} {c : Client}

/-- A program that ends by itself with a code other than the one for a dial. -/
theorem judged_ret {result : Except ℤ α} (other : result ≠ .error ctrdErrConnect) :
    Judged (.ret (result, c)) := by
  refine ⟨fun record going => ⟨fun _ f mem ends => (going.not_ends mem ends).elim, fun _ => ⟨?_,
    fun f mem ends => (going.not_ends mem ends).elim,
    fun f mem ends => (going.not_ends mem ends).elim⟩⟩⟩
  rw [going.dialled]
  exact iff_of_false other Bool.false_ne_true

theorem judged_helperFailed (rc : ℤ) : Judged (helperFailed rc c : ClientProg (Except ℤ α)) :=
  judged_ret fun connect => mapGrpcErr_ne_connect rc (Except.error.inj connect)

theorem judged_of_eq {p q : ClientProg (Except ℤ α)} (eq : p = q) (judged : Judged q) : Judged p :=
  eq ▸ judged

variable {connection : Connection} {rpc : Rpc}

/-- The rule for a dial, in a program that ends when it fails. -/
theorem judged_dial {next : Except Failure Unit → ClientProg (Except ℤ α)}
    (fails : ∀ rc, next (.error rc) = .ret (.error ctrdErrConnect, c))
    (passes : Judged (next (.ok ()))) : Judged (.call (.dial connection) next) := by
  refine ⟨fun record going reply record' recorded => ?_⟩
  cases recorded
  cases reply with
  | error rc =>
    rw [fails rc]
    have none : ∀ f ∈ failures (record ++ [⟨.dial connection, .error rc⟩]), ¬ f.ends = true := by
      rw [failures_dial]
      exact fun f mem => going.not_ends mem
    refine ⟨fun _ f mem ends => (none f mem ends).elim, fun _ =>
      ⟨iff_of_true rfl ?_, fun f mem ends => (none f mem ends).elim,
        fun f mem ends => (none f mem ends).elim⟩⟩
    rw [dialFailed, any_append]
    exact Bool.or_true _
  | ok _ => exact passes.ensures _ (going.dial connection)

/-- The rule for an RPC, in a program that ends with the report of a failure. -/
theorem judged_rpc {next : Outcome rpc.Body → ClientProg (Except ℤ α)}
    (fails : ∀ (rc : Failure) died, rpc.tolerates rc = false → ∃ c : Client,
      next ⟨.error rc, died⟩ = .ret (.error (RpcFailure.report ⟨connection, rpc, rc, died⟩), c) ∧
        (connection = .shared → c.connected = !transportIsDead rc))
    (tolerated : ∀ (rc : Failure) died, rpc.tolerates rc = true → Judged (next ⟨.error rc, died⟩))
    (passes : ∀ body died, Judged (next ⟨.ok body, died⟩)) :
    Judged (.call (.rpc connection rpc) next) := by
  refine ⟨fun record going reply record' recorded => ?_⟩
  cases recorded
  obtain ⟨rc | body, died⟩ := reply
  · cases ends : rpc.tolerates rc with
    | true =>
      refine (tolerated rc died ends).ensures _ ⟨(dialFailed_rpc ..).trans going.dialled, ?_⟩
      rw [failures_error, forall_mem_append, forall_mem_singleton]
      refine ⟨going.tolerated, ?_⟩
      rw [RpcFailure.ends, ends]
      rfl
    | false =>
      obtain ⟨c, reports, kept⟩ := fails rc died ends
      rw [reports]
      exact going.verdict_error (f := ⟨connection, rpc, rc, died⟩) (congrArg not ends) kept
  · exact (passes body died).ensures _ (going.ok connection rpc body died)

variable {next : Except Failure rpc.Body × Client → ClientProg (Except ℤ α)}

/-- The rule for an RPC of `shared_unary_locked`. -/
theorem judged_sharedUnary (direct : rpc.viaHelper = false)
    (fails : ∀ (rc : Failure) c, rpc.tolerates rc = false →
      next (.error rc, c) = .ret (.error (mapRpcErr rc), c))
    (tolerated : ∀ (rc : Failure) c, rpc.tolerates rc = true → Judged (next (.error rc, c)))
    (passes : ∀ body c, Judged (next (.ok body, c))) :
    Judged ((sharedUnary rpc c).bind next) := by
  have connected : ∀ c : Client, c.connected = true → Judged ((unary rpc c).bind next) := by
    intro c present
    refine judged_rpc (fun rc died ends => ⟨c.afterUnary (β := rpc.Body) (.error rc),
      (fails rc _ ends).trans ?_, fun _ => ?_⟩) (fun rc _ => tolerated rc _)
        fun body _ => passes body _
    · rw [RpcFailure.report, if_pos ⟨rfl, direct⟩]
    · show (c.connected && !transportIsDead rc) = _
      rw [present, Bool.true_and]
  rw [sharedUnary]
  cases present : c.connected with
  | true => exact connected c present
  | false => exact judged_dial (fun rc => fails _ c (tolerates_io rpc)) (connected _ rfl)

/-- The rule for an RPC of a helper. -/
theorem judged_helperRpc (helper : rpc.viaHelper = true)
    (fails : ∀ (rc : Failure) c, rpc.tolerates rc = false → next (.error rc, c) = helperFailed rc c)
    (tolerated : ∀ (rc : Failure) c, rpc.tolerates rc = true → Judged (next (.error rc, c)))
    (passes : ∀ body c, Judged (next (.ok body, c))) : Judged ((helperRpc rpc c).bind next) := by
  rw [helperRpc]
  cases present : c.connected with
  | true =>
    refine judged_rpc
      (fun rc died ends => ⟨c.resetIfDead rc, (fails rc _ ends).trans ?_, fun _ => ?_⟩)
      (fun rc _ => tolerated rc _) fun body _ => passes body _
    · rw [RpcFailure.report, if_neg (by simp [helper])]
      rfl
    · show (c.connected && !transportIsDead rc) = _
      rw [present, Bool.true_and]
  | false =>
    have refused : rpc.tolerates h2cErrBadArg = false := by cases rpc <;> rfl
    exact judged_of_eq (fails ⟨h2cErrBadArg, by decide⟩ c refused) (judged_helperFailed _)

variable {digest : Octets} {next : Except Failure Octets × Client → ClientProg (Except ℤ α)}
  (fails : ∀ (rc : Failure) c, next (.error rc, c) = helperFailed rc c)
  (passes : ∀ octets c, Judged (next (.ok octets, c)))

include fails passes

/-- The rule for a blob, read for a caller that reports a helper's failure. -/
theorem judged_contentReadBlob : Judged ((contentReadBlob digest c).bind next) := by
  rw [contentReadBlob, Prog.bind_assoc]
  refine judged_helperRpc rfl (fun rc c _ => fails rc c) nofun ?_
  intro body c
  cases body with
  | none => exact judged_of_eq (fails ⟨h2cErrProto, _⟩ c) (judged_helperFailed _)
  | some blob => exact passes blob c

theorem judged_configDigest {root : Json} : Judged (next (configDigest root, c)) := by
  cases configDigest root with
  | error rc => exact judged_of_eq (fails rc c) (judged_helperFailed _)
  | ok digest => exact passes digest c

/-- The rule for the digest of a config. -/
theorem judged_resolveConfigDigest {wantArch targetDigest : Octets} :
    Judged ((resolveConfigDigest wantArch targetDigest c).bind next) := by
  have undecodable : ∀ c, Judged (next (.error ⟨h2cErrProto, by decide⟩, c)) := fun c =>
    judged_of_eq (fails _ c) (judged_helperFailed _)
  rw [resolveConfigDigest, Prog.bind_assoc]
  refine judged_contentReadBlob (fun rc c => fails rc c) ?_
  intro blob c
  dsimp only
  cases (Json.parse blob).filter isObj with
  | none => exact undecodable c
  | some root =>
    dsimp only
    cases indexDigest wantArch root with
    | none => exact judged_configDigest fails passes
    | some =>
      rw [Prog.bind_assoc]
      refine judged_contentReadBlob (fun rc c => fails rc c) ?_
      intro blob c
      dsimp only
      cases Json.parse blob with
      | none => exact undecodable c
      | some => exact judged_configDigest fails passes

end

/-! ## The calls -/

section

variable (c : Client) (env : Env) (id snapshotId imageName : Octets) (spec : Oci.Spec)

theorem judged_createContainer (config : Oci.ImageConfig) :
    Judged (createContainer env id snapshotId imageName spec config c) := by
  rw [createContainer]
  cases Oci.buildSpec env.alloc env.host spec config (some c.ns) id env.cdi with
  | none => exact judged_ret nofun
  | some =>
    refine judged_sharedUnary rfl (fun _ _ _ => rfl) nofun ?_
    intro body c
    cases body <;> exact judged_ret nofun

theorem judged_newContainer : Judged (newContainer env id snapshotId imageName spec c) := by
  rw [newContainer, getImage, Prog.bind_assoc]
  refine judged_sharedUnary rfl (fun _ _ _ => rfl) nofun ?_
  intro digest c
  rcases digest with _ | _ | target
  · exact judged_ret nofun
  · exact judged_ret nofun
  refine judged_resolveConfigDigest (fun _ _ => rfl) ?_
  intro digest c
  refine judged_contentReadBlob (fun _ _ => rfl) ?_
  intro blob c
  dsimp only
  cases parseImageConfig blob with
  | none => exact judged_ret nofun
  | some parsed =>
    dsimp only [prepareAndCreate]
    cases computeChainId parsed.diffIds with
    | none => exact judged_ret nofun
    | some =>
      have created := fun c =>
        judged_createContainer c env id snapshotId imageName spec parsed.config
      refine judged_helperRpc rfl ?_ ?_ fun _ => created
      · intro rc c ends
        exact if_neg (of_decide_eq_false ends)
      · intro rc c tolerated
        exact judged_of_eq (if_pos (of_decide_eq_true tolerated)) (created c)

theorem judged_deleteRecord (id : Octets) : Judged (deleteRecord id c) :=
  judged_sharedUnary rfl (fun _ _ _ => rfl) nofun
    fun _ _ => judged_ret nofun

variable (container : Container)

theorem judged_createTask (logfile : Option Octets) (mounts : List RootMount) :
    Judged (createTask container logfile mounts c) := by
  refine judged_sharedUnary rfl (fun _ _ _ => rfl) nofun ?_
  intro body c
  cases body <;> exact judged_ret nofun

theorem judged_newTask (logfile : Option Octets) : Judged (newTask container logfile c) := by
  rw [newTask]
  cases container.snapshot with
  | none => exact judged_createTask c container logfile []
  | some =>
    refine judged_helperRpc rfl (fun _ _ _ => rfl) nofun ?_
    intro body c
    cases body with
    | none => exact judged_helperFailed _
    | some mounts => exact judged_createTask c container logfile mounts

variable (task : Task)

theorem judged_deleteTaskRecord : Judged (deleteTaskRecord task c) := by
  refine judged_sharedUnary rfl ?_ ?_ fun _ _ => judged_ret nofun
  · intro rc c ends
    exact if_neg (of_decide_eq_false ends)
  intro rc c tolerated
  exact judged_of_eq (if_pos (of_decide_eq_true tolerated)) (judged_ret nofun)

theorem mapGrpcErr_tolerated_iff (rc : ℤ) (containerId : Octets) :
    (mapGrpcErr rc = ctrdErrNotFound ∨ mapGrpcErr rc = ctrdErrTimeout) ↔
      (Rpc.tasksWait containerId).tolerates rc = true := by
  have tolerated : (Rpc.tasksWait containerId).tolerates rc = true ↔
      rc = statusNotFound ∨ rc = statusDeadlineExceeded ∨ rc = h2cErrTimeout := by
    simp [Rpc.tolerates, or_assoc]
  rw [tolerated, mapGrpcErr]
  grind [statusNotFound, statusDeadlineExceeded, statusAlreadyExists, statusUnavailable,
    h2cErrTimeout, h2cErrClosed, h2cErrTooBig, h2cErrProto, ctrdErrNotFound, ctrdErrTimeout,
    ctrdErrIo, ctrdErrRpc, ctrdErrClosed, ctrdErrProto]

theorem judged_waitAndDelete : Judged (waitAndDelete task c) := by
  refine judged_dial (fun _ => rfl) (judged_rpc ?_ ?_ ?_)
  · intro rc died ends
    have reported : ¬ (mapGrpcErr rc = ctrdErrNotFound ∨ mapGrpcErr rc = ctrdErrTimeout) := by
      rw [mapGrpcErr_tolerated_iff rc task.containerId, ends]
      exact Bool.false_ne_true
    exact ⟨c, if_neg reported, nofun⟩
  · intro rc died ends
    exact judged_of_eq (if_pos ((mapGrpcErr_tolerated_iff rc task.containerId).mpr ends))
      (judged_deleteTaskRecord c task)
  intro body died
  cases body with
  | none => exact judged_ret nofun
  | some => exact judged_deleteTaskRecord c task

theorem judged_taskDelete (force : Bool) : Judged (taskDelete task force c) := by
  cases force with
  | false => exact judged_deleteTaskRecord c task
  | true =>
    refine judged_sharedUnary rfl ?_ ?_ fun _ c => judged_waitAndDelete c task
    · intro rc c ends
      exact if_neg (of_decide_eq_false ends)
    · intro rc c tolerated
      exact judged_of_eq (if_pos (of_decide_eq_true tolerated)) (judged_waitAndDelete c task)

theorem judged_run (op : Op) : Judged (op.run c) := by
  cases op with
  | getImage | loadContainer | loadTask =>
    refine judged_sharedUnary rfl (fun _ _ _ => rfl) nofun ?_
    intro body c
    cases body <;> exact judged_ret nofun
  | newContainer env id snapshotId imageName spec =>
    exact judged_newContainer c env id snapshotId imageName spec
  | newTask container logfile => exact judged_newTask c container logfile
  | taskStart => exact judged_sharedUnary rfl (fun _ _ _ => rfl) nofun fun _ _ => judged_ret nofun
  | taskKill =>
    refine judged_sharedUnary rfl ?_ ?_ fun _ _ => judged_ret nofun
    · intro rc c ends
      exact if_neg (of_decide_eq_false ends)
    intro rc c tolerated
    exact judged_of_eq (if_pos (of_decide_eq_true tolerated)) (judged_ret nofun)
  | taskDelete task force => exact judged_taskDelete c task force
  | deleteContainer container cleanupSnapshot =>
    show Judged (deleteContainer container cleanupSnapshot c)
    rw [deleteContainer]
    cases if cleanupSnapshot then container.snapshot else none with
    | none => exact judged_deleteRecord c container.id
    | some =>
      refine judged_helperRpc rfl ?_ ?_ fun _ c => judged_deleteRecord c container.id
      · intro rc c ends
        exact if_neg (of_decide_eq_false ends)
      · intro rc c tolerated
        exact judged_of_eq (if_pos (of_decide_eq_true tolerated)) (judged_deleteRecord c _)

end

def missingTask : Record :=
  [⟨.rpc .shared (.tasksStart (ascii "mediamtx")), ⟨.error ⟨statusNotFound, by decide⟩, false⟩⟩]

end Strimserver.Containerd
