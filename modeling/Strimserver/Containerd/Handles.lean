import Strimserver.Containerd.Errors

/-!
# The handles of the client

The client keeps a list of the images, one of the containers and one of the tasks that it has
handed out, and frees what is left in them when it is closed. The calls of the client are given
here with these lists: a call that creates or loads something registers its handle, a delete that
succeeds removes it, and `new_container_locked` frees the image that it has resolved before it
returns. `Tasks/Delete` answered by NOT_FOUND is a success that leaves the handle where it is.

The three lists are one multiset. Handles with the same contents are not told apart: a call
removes a handle that is registered, so it makes no difference which of them it is.

Each program is the one of the client with its handles (`Forgets`).
-/

namespace Strimserver.Containerd

open Library Oci List

/-! ## Handles -/

deriving instance DecidableEq for Image
deriving instance DecidableEq for Container
deriving instance DecidableEq for Task

/-- What a caller holds of a client. -/
inductive Handle where
  | image (image : Image)
  | container (container : Container)
  | task (task : Task)
  deriving DecidableEq

/-- The lists `images`, `containers` and `tasks` of `struct strim_containerd_client`. -/
abbrev Handles := Multiset Handle

/-- `image_register`, `container_register` and `task_register`, when there is something to register.
-/
def Handles.register {α : Type} (handle : α → Handle) (h : Handles) : Except ℤ α → Handles
  | .ok a => handle a ::ₘ h
  | .error _ => h

/-- `container_unregister`, when the delete has succeeded. -/
def Handles.release (handle : Handle) (h : Handles) : Except ℤ Unit → Handles
  | .ok () => h.erase handle
  | .error _ => h

/-- A program that passes the handles on too. -/
abbrev HandleProg (α : Type) := Prog Call Reply ((α × Client) × Handles)

/-- A program that registers what it returns. -/
def registering {α : Type} (handle : α → Handle) (p : ClientProg (Except ℤ α)) (h : Handles) :
    HandleProg (Except ℤ α) :=
  p.bind fun out => .ret (out, h.register handle out.1)

def releasing (handle : Handle) (p : ClientProg (Except ℤ Unit)) (h : Handles) :
    HandleProg (Except ℤ Unit) :=
  p.bind fun out => .ret (out, h.release handle out.1)

/-- A program that leaves the handles as they are. -/
def keeping {α : Type} (p : ClientProg α) (h : Handles) : HandleProg α :=
  p.bind fun out => .ret (out, h)

/-! ## The calls -/

namespace Registry

/-- `get_image_locked`. -/
def getImage (ref : Octets) (c : Client) : Handles → HandleProg (Except ℤ Image) :=
  registering .image (Containerd.getImage ref c)

/-- `new_container_locked`. On every path the image is freed, and then the container registered if
there is one. -/
def newContainer (env : Env) (id snapshotId imageName : Octets) (spec : Spec) (c : Client)
    (h : Handles) : HandleProg (Except ℤ Container) :=
  (getImage imageName c h).bind fun
    | ((.error rc, c), h) => .ret ((.error rc, c), h)
    | ((.ok image, c), h) =>
      (containerFrom env id snapshotId imageName spec c image).bind fun out =>
        .ret (out, Handles.register .container (h.erase (.image image)) out.1)

/-- `load_container_locked`. -/
def loadContainer (id : Octets) (c : Client) : Handles → HandleProg (Except ℤ Container) :=
  registering .container (Containerd.loadContainer id c)

/-- `delete_container_locked`. -/
def deleteContainer (container : Container) (cleanupSnapshot : Bool) (c : Client) :
    Handles → HandleProg (Except ℤ Unit) :=
  releasing (.container container) (Containerd.deleteContainer container cleanupSnapshot c)

/-- `new_task_locked`. -/
def newTask (container : Container) (logfile : Option Octets) (c : Client) :
    Handles → HandleProg (Except ℤ Task) :=
  registering .task (Containerd.newTask container logfile c)

/-- `load_task_locked`. -/
def loadTask (container : Container) (c : Client) : Handles → HandleProg (Except ℤ Task) :=
  registering .task (Containerd.loadTask container c)

/-- `Tasks/Delete` of `task_delete_locked`. -/
def deleteTaskRecord (task : Task) (c : Client) (h : Handles) : HandleProg (Except ℤ Unit) :=
  (sharedUnary (.tasksDelete task.containerId) c).bind fun
    | (.error rc, c) =>
      -- the early return of the source, in front of `task_unregister`
      if rc.val = statusNotFound then .ret ((.ok (), c), h)
      else .ret ((.error (mapRpcErr rc), c), h)
    | (.ok (), c) => .ret ((.ok (), c), h.erase (.task task))

/-- The wait of a forced delete, once the task is killed. -/
def waitAndDelete (task : Task) (c : Client) (h : Handles) : HandleProg (Except ℤ Unit) :=
  (taskWait task c).bind fun
    | (.error rc, c) =>
      if rc = ctrdErrNotFound ∨ rc = ctrdErrTimeout then deleteTaskRecord task c h
      else .ret ((.error rc, c), h)
    | (.ok _, c) => deleteTaskRecord task c h

/-- `task_delete_locked`. -/
def taskDelete (task : Task) (force : Bool) (c : Client) (h : Handles) :
    HandleProg (Except ℤ Unit) :=
  if force then
    (kill task sigKill true c).bind fun
      | (.error rc, c) =>
        if rc.val = statusNotFound then waitAndDelete task c h
        else .ret ((.error (mapRpcErr rc), c), h)
      | (.ok (), c) => waitAndDelete task c h
  else deleteTaskRecord task c h

end Registry

/-! ## Without the handles -/

/-- The program without its handles. -/
def Forgets {α : Type} (q : HandleProg α) (p : ClientProg α) : Prop :=
  (q.bind fun out => .ret out.1) = p

section

variable {α β : Type}

theorem forgets_ret (out : α × Client) (h : Handles) : Forgets (.ret (out, h)) (.ret out) := rfl

theorem forgets_bind {p : Prog Call Reply β} {f : β → HandleProg α} {g : β → ClientProg α}
    (rest : ∀ b, Forgets (f b) (g b)) : Forgets (p.bind f) (p.bind g) := by
  rw [Forgets, Prog.bind_assoc]
  exact congrArg p.bind (funext rest)

/-- A program that only does something to the handles at its end. -/
theorem forgets_end (p : ClientProg α) (after : α × Client → Handles) :
    Forgets (p.bind fun out => .ret (out, after out)) p := by
  rw [Forgets, Prog.bind_assoc]
  induction p with
  | ret => rfl
  | call e next ih => exact congrArg (Prog.call e) (funext ih)

/-- Every run of the client's program is one with handles. -/
theorem Forgets.runs {W : Type} {answers : W → (e : Call) → Reply e → W → Prop} {q : HandleProg α}
    {p : ClientProg α} (forgets : Forgets q p) {w w' : W} {out : α × Client}
    (run : Prog.Runs answers w p out w') : ∃ h, Prog.Runs answers w q (out, h) w' := by
  rw [← forgets, Prog.runs_bind] at run
  obtain ⟨⟨out', h⟩, w₁, run, last⟩ := run
  cases last
  exact ⟨h, run⟩

end

variable (task : Task)

theorem forgets_deleteTaskRecord (c : Client) (h : Handles) :
    Forgets (Registry.deleteTaskRecord task c h) (deleteTaskRecord task c) := by
  refine forgets_bind fun out => ?_
  rcases out with ⟨rc | ⟨⟩, c⟩
  · dsimp only
    split_ifs
    · exact forgets_ret _ h
    · exact forgets_ret _ h
  · exact forgets_ret _ _

theorem forgets_waitAndDelete (c : Client) (h : Handles) :
    Forgets (Registry.waitAndDelete task c h) (waitAndDelete task c) := by
  refine forgets_bind fun out => ?_
  rcases out with ⟨rc | exitStatus, c⟩
  · dsimp only
    split_ifs
    · exact forgets_deleteTaskRecord task c h
    · exact forgets_ret _ h
  · exact forgets_deleteTaskRecord task c h

/-! ## What a call does to the handles -/

/-- `Tasks/Delete` finds no task. -/
def Rpc.missesTask : (rpc : Rpc) → Except Failure rpc.Body → Bool
  | .tasksDelete _, .error rc => rc.val = statusNotFound
  | _, _ => false

/-- The same of what is recorded. -/
def missesTask : Prog.Event Reply → Bool
  | ⟨.dial _, _⟩ => false
  | ⟨.rpc _ rpc, outcome⟩ => rpc.missesTask outcome.result

/-- No `Tasks/Delete` so far found no task. -/
def Unmissed (record : Record) : Prop := record.any missesTask = false

section

variable {α : Type} {record record' : Record} {h h' : Handles} {c c' : Client}

theorem handles_of_end {p : ClientProg α} {after : α × Client → Handles} {out : α × Client}
    (run : Prog.Runs Prog.Recorded record (p.bind fun out => .ret (out, after out))
      (out, h') record') :
    h' = after out := by
  obtain ⟨out', _, -, last⟩ := Prog.runs_bind.mp run
  cases last
  rfl

/-- A new container registers no image, since the one that it resolves is freed. -/
theorem handles_newContainer {env : Env} {id snapshotId imageName : Octets} {spec : Spec}
    {result : Except ℤ Container}
    (run : Prog.Runs Prog.Recorded record
      (Registry.newContainer env id snapshotId imageName spec c h) ((result, c'), h') record') :
    h' = h.register .container result := by
  rw [Registry.newContainer, Registry.getImage, registering, Prog.bind_assoc] at run
  obtain ⟨⟨rc | image, c₁⟩, _, -, rest⟩ := Prog.runs_bind.mp run
  · cases rest
    rfl
  have freed := handles_of_end rest
  have same : Multiset.erase (Handles.register .image h (.ok image)) (.image image) = h :=
    Multiset.erase_cons_head _ _
  rwa [same] at freed

/-- What an RPC on the shared connection adds to the record. -/
theorem sharedUnary_missesTask {rpc : Rpc} {result : Except Failure rpc.Body}
    (run : Prog.Runs Prog.Recorded record (sharedUnary rpc c) (result, c') record') :
    record'.any missesTask = (record.any missesTask || rpc.missesTask result) := by
  have called : ∀ {record : Record} {c : Client},
      Prog.Runs Prog.Recorded record (unary rpc c) (result, c') record' →
        record'.any missesTask = (record.any missesTask || rpc.missesTask result) := by
    intro record c run
    cases run with
    | call answer rest =>
      cases rest
      cases answer
      rw [any_append, any_cons, any_nil, Bool.or_false]
      rfl
  unfold sharedUnary at run
  split_ifs at run
  · exact called run
  cases run with
  | @call _ _ _ _ reply _ _ answer rest =>
    cases answer
    have dialled : List.any (record ++ [Prog.Event.mk (.dial .shared) reply]) missesTask =
        record.any missesTask := by
      rw [any_append, any_cons, any_nil]
      exact Bool.or_false _
    rcases reply with rc | ⟨⟩
    · cases rest
      have unmissed : rpc.missesTask (.error ⟨ctrdErrConnect, by decide⟩) = false := by
        cases rpc <;> rfl
      rw [dialled, unmissed, Bool.or_false]
    · rw [← dialled]
      exact called rest

variable {task : Task}

/-- A wait leaves the record without such an answer. -/
theorem unmissed_taskWait {out : Except ℤ ℤ × Client} (quiet : Unmissed record)
    (run : Prog.Runs Prog.Recorded record (taskWait task c) out record') : Unmissed record' := by
  have makes : Prog.Makes (fun e => ∀ r, missesTask ⟨e, r⟩ = false) (taskWait task c) := by
    refine ⟨fun _ => rfl, fun reply => ?_⟩
    rcases reply with rc | ⟨⟩
    · trivial
    · refine ⟨fun _ => rfl, fun outcome => ?_⟩
      rcases outcome with ⟨rc | _ | exitStatus, died⟩ <;> trivial
  have step : ∀ {record : Record} {e : Call} {r : Reply e} {record' : Record},
      (∀ r, missesTask ⟨e, r⟩ = false) → Prog.Recorded record e r record' →
        Unmissed record → Unmissed record' := by
    intro record e r record' never answer quiet
    cases answer
    rw [Unmissed, any_append, quiet, any_cons, any_nil, never]
    rfl
  exact makes.keeps run step quiet

/-- A task is released when it is deleted, unless `Tasks/Delete` finds none. -/
def Released (task : Task) (h : Handles) (result : Except ℤ Unit) (h' : Handles) (record : Record) :
    Prop :=
  h' = if record.any missesTask then h else h.release (.task task) result

variable {result : Except ℤ Unit}

theorem handles_deleteTaskRecord (quiet : Unmissed record)
    (run : Prog.Runs Prog.Recorded record (Registry.deleteTaskRecord task c h)
      ((result, c'), h') record') :
    Released task h result h' record' := by
  obtain ⟨⟨reply, c₁⟩, _, first, rest⟩ := Prog.runs_bind.mp run
  have missed := sharedUnary_missesTask first
  rw [quiet, Bool.false_or] at missed
  rcases reply with rc | ⟨⟩
  · dsimp only at rest
    split_ifs at rest with missing
    · cases rest
      have missed : record'.any missesTask = true := missed.trans (decide_eq_true missing)
      rw [Released, if_pos missed]
    · cases rest
      exact (ite_self h).symm
  · cases rest
    rw [Released, missed]
    rfl

theorem handles_waitAndDelete (quiet : Unmissed record)
    (run : Prog.Runs Prog.Recorded record (Registry.waitAndDelete task c h)
      ((result, c'), h') record') :
    Released task h result h' record' := by
  obtain ⟨⟨waited, c₁⟩, record₁, first, rest⟩ := Prog.runs_bind.mp run
  have quiet₁ := unmissed_taskWait quiet first
  rcases waited with rc | exitStatus
  · dsimp only at rest
    split_ifs at rest
    · exact handles_deleteTaskRecord quiet₁ rest
    · cases rest
      exact (ite_self h).symm
  · exact handles_deleteTaskRecord quiet₁ rest

theorem handles_taskDelete {force : Bool} (quiet : Unmissed record)
    (run : Prog.Runs Prog.Recorded record (Registry.taskDelete task force c h)
      ((result, c'), h') record') :
    Released task h result h' record' := by
  cases force with
  | false => exact handles_deleteTaskRecord quiet run
  | true =>
    obtain ⟨⟨killed, c₁⟩, record₁, first, rest⟩ := Prog.runs_bind.mp run
    have quiet₁ : Unmissed record₁ := by
      rw [Unmissed, sharedUnary_missesTask first, quiet]
      rfl
    rcases killed with rc | ⟨⟩
    · dsimp only at rest
      split_ifs at rest
      · exact handles_waitAndDelete quiet₁ rest
      · cases rest
        exact (ite_self h).symm
    · exact handles_waitAndDelete quiet₁ rest

end

end Strimserver.Containerd
