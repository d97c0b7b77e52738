import Strimserver.Containerd.Client

/-!
# Lazy reconnect

A call that finds the shared connection absent should dial, and then do what it would have
done with the connection present. The calls that begin with `shared_unary_locked` do so. A
call that begins with a helper of the Snapshots service passes the absent connection on, and
fails without dialling: `new_task` and `delete_container` of a container with a snapshot.
-/

namespace Strimserver.Containerd

open Library Option

def Client.present (c : Client) : Client := { c with connected := true }

/-- A program that dials and goes on as it would with the connection present. -/
def DialsFirst {α : Type} (program : Client → ClientProg (Except ℤ α)) (c : Client) : Prop :=
  program c = .call (.dial .shared) fun
    | .error _ => .ret (.error ctrdErrConnect, c)
    | .ok () => program c.present

/-- The call begins with a helper of the Snapshots service. -/
def Op.startsWithSnapshot : Op → Bool
  | .newTask container _ => container.snapshot.isSome
  | .deleteContainer container cleanupSnapshot => cleanupSnapshot && container.snapshot.isSome
  | _ => false

/-! ## Calls that begin with an RPC of the shared connection -/

section

variable {α : Type} {c : Client}

/-- What the shared connection is used for does not matter, as long as a failed dial is
reported. -/
theorem sharedUnary_dialsFirst (absent : c.connected = false) (rpc : Rpc)
    (next : Except Failure rpc.Body × Client → ClientProg (Except ℤ α))
    (reports : ∀ rc c, rc.val = ctrdErrConnect →
      next (.error rc, c) = .ret (.error ctrdErrConnect, c)) :
    DialsFirst (fun c => (sharedUnary rpc c).bind next) c := by
  have gone : sharedUnary rpc c = .call (.dial .shared) fun
      | .error _ => .ret (.error ⟨ctrdErrConnect, by decide⟩, c)
      | .ok () => unary rpc c.present := by
    rw [sharedUnary, absent]
    rfl
  show (sharedUnary rpc c).bind next = _
  rw [gone, Prog.call_bind]
  congr 1
  funext reply
  cases reply with
  | error => exact reports _ c rfl
  | ok => rfl

theorem DialsFirst.bind {β : Type} {program : Client → ClientProg (Except ℤ α)}
    (dials : DialsFirst program c) (next : Except ℤ α × Client → ClientProg (Except ℤ β))
    (reports : ∀ c, next (.error ctrdErrConnect, c) = .ret (.error ctrdErrConnect, c)) :
    DialsFirst (fun c => (program c).bind next) c := by
  show (program c).bind next = _
  rw [dials, Prog.call_bind]
  congr 1
  funext reply
  cases reply with
  | error => exact reports c
  | ok => rfl

theorem report_connect {rc : Failure} (connect : rc.val = ctrdErrConnect) (c : Client) :
    (Prog.ret (.error (mapRpcErr rc.val), c) : ClientProg (Except ℤ α)) =
      .ret (.error ctrdErrConnect, c) := by
  rw [mapRpcErr, if_pos connect]

/-- The same where NOT_FOUND is tolerated. -/
theorem report_connect_tolerant {rc : Failure} (connect : rc.val = ctrdErrConnect) (c : Client)
    (gone : ClientProg (Except ℤ α)) :
    (if rc.val = statusNotFound then gone else .ret (.error (mapRpcErr rc.val), c)) =
      .ret (.error ctrdErrConnect, c) := by
  have other : rc.val ≠ statusNotFound := by rw [connect]; decide
  rw [if_neg other, report_connect connect]

end

/-! ## The calls -/

variable {c : Client}

theorem getImage_dialsFirst (absent : c.connected = false) (ref : Octets) :
    DialsFirst (getImage ref) c :=
  sharedUnary_dialsFirst absent _ _ fun _ c connect => report_connect connect c

theorem run_dialsFirst (op : Op) (absent : c.connected = false)
    (plain : op.startsWithSnapshot = false) : DialsFirst op.run c := by
  cases op with
  | getImage | loadContainer | loadTask | taskStart =>
    exact sharedUnary_dialsFirst absent _ _ fun _ c connect => report_connect connect c
  | newContainer env id snapshotId imageName spec =>
    exact (getImage_dialsFirst absent imageName).bind _ fun _ => rfl
  | newTask container logfile =>
    have none := isNone_iff_eq_none.mp (isSome_eq_false_iff.mp plain)
    have direct : newTask container logfile = createTask container logfile [] := by
      funext c
      rw [newTask, none]
    rw [Op.run, direct]
    exact sharedUnary_dialsFirst absent _ _ fun _ c connect => report_connect connect c
  | taskKill =>
    exact sharedUnary_dialsFirst absent _ _ fun _ c connect => report_connect_tolerant connect c _
  | taskDelete task force =>
    cases force with
    | false =>
      exact sharedUnary_dialsFirst absent _ _ fun _ c connect => report_connect_tolerant connect c _
    | true =>
      exact sharedUnary_dialsFirst absent (.tasksKill task.containerId sigKill true) _
        fun _ c connect => report_connect_tolerant connect c _
  | deleteContainer container cleanupSnapshot =>
    have none : (if cleanupSnapshot then container.snapshot else none) = none := by
      cases cleanupSnapshot with
      | false => rfl
      | true => exact isNone_iff_eq_none.mp (isSome_eq_false_iff.mp plain)
    have direct : deleteContainer container cleanupSnapshot = deleteRecord container.id := by
      funext c
      rw [deleteContainer, none]
    rw [Op.run, direct]
    exact sharedUnary_dialsFirst absent _ _ fun _ c connect => report_connect connect c

/-- A helper refuses the absent connection. -/
theorem helperRpc_absent {α : Type} (absent : c.connected = false) (rpc : Rpc)
    (next : Except Failure rpc.Body × Client → ClientProg (Except ℤ α)) :
    (helperRpc rpc c).bind next = next (.error ⟨h2cErrBadArg, by decide⟩, c) := by
  rw [helperRpc, absent]
  rfl

theorem helperFailed_absent {α : Type} (absent : c.connected = false) :
    (helperFailed h2cErrBadArg c : ClientProg (Except ℤ α)) = .ret (.error ctrdErrIo, c) := by
  have reset : c.resetIfDead h2cErrBadArg = c := by
    rw [Client.resetIfDead, absent]
    exact congrArg (fun connected => { c with connected }) absent.symm
  rw [helperFailed, reset]
  rfl

/-- A call that begins with the Snapshots service gives up at once. -/
theorem run_of_startsWithSnapshot (op : Op) (absent : c.connected = false)
    (snapshot : op.startsWithSnapshot = true) : op.run c = .ret (.error ctrdErrIo, c) := by
  cases op with
  | newTask container logfile =>
    obtain ⟨key, found⟩ := isSome_iff_exists.mp snapshot
    show newTask container logfile c = _
    rw [newTask, found]
    exact (helperRpc_absent absent _ _).trans (helperFailed_absent absent)
  | deleteContainer container cleanupSnapshot =>
    rw [Op.startsWithSnapshot, Bool.and_eq_true] at snapshot
    obtain ⟨key, found⟩ := isSome_iff_exists.mp snapshot.2
    show deleteContainer container cleanupSnapshot c = _
    rw [deleteContainer, snapshot.1, if_pos rfl, found]
    exact (helperRpc_absent absent _ _).trans (helperFailed_absent absent)
  | _ => cases snapshot

/-- **Lazy reconnect.** A call made without the shared connection dials and then does what it
would have done with it, unless it begins with the Snapshots service. -/
theorem lazy_reconnect_iff (op : Op) (c : Client) :
    (c.connected = false → DialsFirst op.run c) ↔
      (c.connected = true ∨ op.startsWithSnapshot = false) := by
  constructor
  · intro dials
    by_contra neither
    rw [not_or, Bool.not_eq_true, Bool.not_eq_false] at neither
    have immediate := run_of_startsWithSnapshot op neither.1 neither.2
    rw [dials neither.1] at immediate
    cases immediate
  intro either absent
  rcases either with present | plain
  · rw [absent] at present
    cases present
  · exact run_dialsFirst op absent plain

/-! ## A reachable failure -/

/-- The states of a client after any calls, with any replies. -/
inductive Client.Reachable (ns : Octets) : Client → Prop
  | connect : Reachable ns (.connect ns)
  | call {c c' : Client} (reached : Reachable ns c) (op : Op) {result : Except ℤ op.Result}
      {record : List (Prog.Event Reply)}
      (run : Prog.Runs Prog.Recorded [] (op.run c) (result, c') record) : Reachable ns c'

def loadedContainer : Container :=
  ⟨ascii "mediamtx", none, none, none, some (ascii "mediamtx-snapshot")⟩

/-- A container is loaded, the connection dies under the next call, and the delete of the
container fails, without a call of its own. -/
theorem delete_container_without_connection :
    ∃ c, Client.Reachable (ascii "default") c ∧ c.connected = false ∧
      ¬ DialsFirst (Op.deleteContainer loadedContainer true).run c ∧
      (Op.deleteContainer loadedContainer true).run c = .ret (.error ctrdErrIo, c) := by
  let c₁ : Client := ⟨true, 0, ascii "default"⟩
  let c₂ : Client := ⟨false, 0, ascii "default"⟩
  have loaded : Client.Reachable (ascii "default") c₁ := by
    let record : ContainerRecord := ⟨none, none, none, some (ascii "mediamtx-snapshot")⟩
    apply Client.Reachable.call .connect (.loadContainer (ascii "mediamtx"))
    apply Prog.Runs.call (r := Except.ok ()) rfl
    apply Prog.Runs.call (r := ⟨Except.ok (some record), false⟩) rfl
    exact .ret (Except.ok loadedContainer, c₁)
  have dropped : Client.Reachable (ascii "default") c₂ := by
    apply Client.Reachable.call loaded (.loadTask loadedContainer)
    apply Prog.Runs.call (r := ⟨Except.error ⟨h2cErrIo, by decide⟩, true⟩) rfl
    exact .ret (Except.error ctrdErrConnect, c₂)
  have immediate : (Op.deleteContainer loadedContainer true).run c₂ = .ret (.error ctrdErrIo, c₂) :=
    run_of_startsWithSnapshot _ rfl rfl
  refine ⟨c₂, dropped, rfl, fun dials => ?_, immediate⟩
  unfold DialsFirst at dials
  rw [immediate] at dials
  cases dials

end Strimserver.Containerd
