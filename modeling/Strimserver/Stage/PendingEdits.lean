import Strimserver.Library.Threads
import Strimserver.Oci.Faithful
import Strimserver.Stage.Ops

/-!
# The edits that a container gets

Start operations of any stages, interleaved call by call, with the one variable for the pending
CDI edits. `strim_containerd_new_container` takes the edits that are pending, whichever operation
has resolved them, and leaves them there: only a scan or another resolve replaces them.

So a container of MediaMTX gets the edits that an ffmpeg stage has left, and an ffmpeg stage gets
the edits, or none, of another one that came between. `containers_get_their_edits` says that
nothing else goes wrong. Also edits that a merge has refused stay there and are copied, into arrays
that they do not fit.
-/

namespace Strimserver.Oci

deriving instance DecidableEq for CdiMount, CdiDevice, Hook, CdiEdits

/-! ## Edits that make no difference -/

theorem collect_take {α : Type} (cap n : ℕ) (xs acc : List α) (room : cap ≤ acc.length + n) :
    collect cap (fun _ _ => true) (xs.take n) acc = collect cap (fun _ _ => true) xs acc := by
  induction xs generalizing acc n with
  | nil => rw [List.take_nil]
  | cons x xs ih =>
    cases n with
    | zero =>
      have full : ¬ acc.length < cap := Nat.not_lt.mpr room
      rw [List.take_zero, collect, collect, if_neg full]
    | succ n =>
      rw [List.take_succ_cons, collect, collect, if_pos rfl, ih n]
      rw [List.length_append, List.length_singleton]
      omega

end Strimserver.Oci

namespace Strimserver.Stage

open Library Oci Containerd List Option

/-! ## Threads -/

/-- A container that was created: its spec, the edits that were pending, and those that its own
operation had resolved. -/
structure Built where
  spec : Spec
  used : Option CdiEdits
  own : Option CdiEdits

/-- The document is the one with the edits of the operation. -/
def Built.Right (b : Built) : Prop :=
  ∀ host image ns containerId,
    document host b.spec image ns containerId b.used =
      document host b.spec image ns containerId b.own

/-- What the operations share: the variables of `cdi.c`, what a scan would find, whether memory is
there, how often the pending edits have changed, and the created containers. -/
structure CdiShared where
  cdi : Cdi
  disk : Except Failure (List CdiSpec)
  granted : Bool
  changes : ℕ
  log : List Built

def CdiShared.touch (s : CdiShared) (cdi : Cdi) : CdiShared :=
  { s with
    cdi
    changes := if cdi.pending = s.cdi.pending then s.changes else s.changes + 1 }

/-- An operation: whether its stage runs ffmpeg, and the edits that it has resolved, with the number
of changes up to then. -/
structure StartThread where
  ffmpeg : Bool
  resolved : Option (CdiEdits × ℕ)

/-- The edits that a container of the operation should get. -/
def StartThread.own (t : StartThread) : Option CdiEdits :=
  if t.ffmpeg then t.resolved.map Prod.fst else none

/-- What happens around the operations. -/
inductive CdiAct where
  | fireStart (ops : StageOps) (timeoutMs : ℤ)
  | writeSpecs (disk : Except Failure (List CdiSpec))
  | setMemory (granted : Bool)

/-- A call of `cdi.c` with its result. -/
def cdiCall (s : CdiShared) (result : Except Failure Unit × Cdi) (r : Except Failure Unit)
    (t : StartThread) : Option (CdiShared × StartThread) :=
  if r = result.1 then some (s.touch result.2, t) else none

def StartThread.resolve (s : CdiShared) (cdi : Cdi) (t : StartThread) :
    Except Failure Unit → StartThread
  | .ok () => { t with resolved := cdi.pending.map fun edits => (edits, (s.touch cdi).changes) }
  | .error _ => t

def startThreads : Threads Call Reply CdiShared StartThread CdiAct where
  act s
    | .fireStart ops timeoutMs =>
      (s, some (⟨ops.ffmpeg, none⟩, runStageOp (stageStartOp ops timeoutMs)))
    | .writeSpecs disk => ({ s with disk }, none)
    | .setMemory granted => ({ s with granted }, none)
  serve s t
    | .cdiScan, r => cdiCall s (s.cdi.scan s.disk) r t
    | .cdiResolve ref, r =>
      let result := s.cdi.resolve ref s.granted
      cdiCall s result r (t.resolve s result.2 r)
    | .cdiMergeEdits spec, r => cdiCall s (s.cdi.mergeEdits spec) r t
    | .client (.newContainer _ _ _ spec), _ =>
      some ({ s with log := s.log ++ [⟨spec, s.cdi.getPendingEdits, t.own⟩] }, t)
    | _, _ => some (s, t)

/-- A container of an ffmpeg stage is created before the edits of its operation are changed, and
another one while no edits are pending, or empty ones. -/
def editsUndisturbed (s : CdiShared) (t : StartThread) : (e : Call) → Reply e → Bool
  | .client (.newContainer ..), _ =>
    if t.ffmpeg then t.resolved.all fun resolved => resolved.2 = s.changes
    else s.cdi.pending.all fun edits => edits = noEdits
  | _, _ => true

/-! ## The order of the calls -/

def Call.createsContainer : Call → Bool
  | client (.newContainer ..) => true
  | _ => false

def Call.resolves : (e : Call) → Reply e → Bool
  | .cdiResolve _, .ok () => true
  | _, _ => false

/-- A program that resolves the device before it creates a container, if its stage runs
ffmpeg. -/
def Orderly {α : Type} (ffmpeg : Bool) : Bool → StageProg α → Prop
  | _, .ret _ => True
  | resolved, .call e next =>
    (e.createsContainer = true → ffmpeg = true → resolved = true) ∧
      ∀ r, Orderly ffmpeg (resolved || e.resolves r) (next r)

section

variable {α β : Type} {ffmpeg resolved : Bool}

theorem Orderly.mono {p : StageProg α} {resolved' : Bool} (orderly : Orderly ffmpeg resolved p)
    (stays : resolved = true → resolved' = true) : Orderly ffmpeg resolved' p := by
  induction p generalizing resolved resolved' with
  | ret => trivial
  | call e next ih =>
    refine ⟨fun creates runs => stays (orderly.1 creates runs), fun r => ih r (orderly.2 r) ?_⟩
    intro either
    rcases Bool.or_eq_true_iff.mp either with before | now
    · exact Bool.or_eq_true_iff.mpr (.inl (stays before))
    · exact Bool.or_eq_true_iff.mpr (.inr now)

theorem Orderly.bind {p : StageProg α} {f : α → StageProg β} (orderly : Orderly ffmpeg resolved p)
    (rest : ∀ a, Orderly ffmpeg false (f a)) : Orderly ffmpeg resolved (p.bind f) := by
  induction p generalizing resolved with
  | ret a => exact (rest a).mono nofun
  | call e next ih => exact ⟨orderly.1, fun r => ih r (orderly.2 r)⟩

/-- The rule for a call that creates no container. -/
theorem orderly_call {e : Call} {next : Reply e → StageProg α} (other : e.createsContainer = false)
    (rest : ∀ r, Orderly ffmpeg false (next r)) : Orderly ffmpeg resolved (.call e next) := by
  refine ⟨fun creates => ?_, fun r => (rest r).mono nofun⟩
  rw [other] at creates
  cases creates

theorem orderly_unlessSuperseded {p : StageProg ℤ} (orderly : Orderly ffmpeg resolved p) :
    Orderly ffmpeg resolved (unlessSuperseded p) := by
  refine ⟨nofun, fun r => ?_⟩
  cases r with
  | true => trivial
  | false => exact orderly.mono fun before => Bool.or_eq_true_iff.mpr (.inl before)

/-- A call of the client whose failure ends the program. -/
theorem orderly_client {call : ClientCall} {next : Reply (.client call) → StageProg ℤ}
    (fails : ∀ rc, next (.error rc) = .ret rc.val)
    (creates : (Call.client call).createsContainer = true → ffmpeg = true → resolved = true)
    (passes : ∀ result, Orderly ffmpeg resolved (next (.ok result))) :
    Orderly ffmpeg resolved (.call (.client call) next) := by
  refine ⟨creates, fun r => ?_⟩
  cases r with
  | error =>
    rw [fails]
    trivial
  | ok result => exact (passes result).mono fun before => Bool.or_eq_true_iff.mpr (.inl before)

/-! ## The operations are orderly -/

/-- A program that creates no container. -/
theorem orderly_of_makes {p : StageProg ℤ} (makes : p.Makes fun e => e.createsContainer = false) :
    Orderly ffmpeg false p := by
  induction p with
  | ret => trivial
  | call e next ih => exact orderly_call makes.1 fun r => ih r (makes.2 r)

theorem passes_orderly : Passes (fun e => !e.createsContainer) (Orderly ffmpeg false) :=
  ⟨fun _ => trivial, orderly_unlessSuperseded,
    fun other => orderly_call (Bool.not_eq_true' _ ▸ other)⟩

variable (ops : StageOps)

theorem orderly_stageStopOp (timeoutMs : ℤ) : Orderly ffmpeg false (stageStopOp ops timeoutMs) := by
  rw [stageStopOp_budgeted]
  refine passes_orderly.budgeted rfl fun budgetMs => orderly_of_makes ?_
  refine (stopWithin_makes ops budgetMs).mono fun e stops => ?_
  cases e with
  | client call =>
    cases call with
    | newContainer => exact stops.elim
    | _ => rfl
  | _ => rfl

/-- What comes behind the device. -/
theorem orderly_withMounts (spec : Spec) (mounts : Option (List Mount))
    (ready : ffmpeg = true → resolved = true) :
    Orderly ffmpeg resolved (withMounts ops spec mounts) := by
  cases mounts with
  | none => trivial
  | some =>
    refine orderly_unlessSuperseded
      (orderly_client (fun _ => rfl) (fun _ => ready) fun container => ?_)
    refine orderly_unlessSuperseded (orderly_client (fun _ => rfl) nofun
      fun task => ?_)
    exact orderly_unlessSuperseded (orderly_client (fun _ => rfl) nofun
      fun _ => trivial)

theorem orderly_stageStartOp (timeoutMs : ℤ) :
    Orderly ops.ffmpeg false (stageStartOp ops timeoutMs) := by
  have build : Orderly ops.ffmpeg false (buildAndCreate ops) := by
    unfold buildAndCreate
    split_ifs with runs
    · cases stageArgv ops.stageTable ops.containerId with
      | none => trivial
      | some =>
        refine orderly_call rfl fun scanned => ?_
        cases scanned with
        | error => trivial
        | ok _ =>
          refine ⟨nofun, fun answered => ?_⟩
          cases answered with
          | error => trivial
          | ok _ =>
            refine ⟨nofun, fun merged => ?_⟩
            cases merged with
            | error => trivial
            | ok => exact orderly_withMounts ops _ _ fun _ => rfl
    · exact orderly_withMounts ops _ _ fun absurd => (runs absurd).elim
  rw [stageStartOp_budgeted]
  refine passes_orderly.budgeted rfl fun budgetMs =>
    (orderly_stageStopOp ops budgetMs).bind fun rc => ?_
  unfold startStopped
  split_ifs
  · trivial
  · exact orderly_unlessSuperseded build

theorem orderly_runStageOp {op : StageProg ℤ} (orderly : Orderly ffmpeg resolved op) :
    Orderly ffmpeg resolved (runStageOp op) := by
  refine orderly.bind fun err => orderly_call rfl fun _ => ?_
  split_ifs
  · trivial
  refine orderly_call rfl fun superseded => ?_
  cases superseded with
  | true => trivial
  | false => exact orderly_call rfl fun _ => trivial

end

/-! ## What a call does -/

/-- Edits that were resolved are the pending ones, unless these have changed since. -/
def Known (s : CdiShared) (resolved : CdiEdits × ℕ) : Prop :=
  resolved.2 ≤ s.changes ∧ (resolved.2 = s.changes → s.cdi.pending = some resolved.1)

/-- What is known of an operation. -/
structure Own (s : CdiShared) (t : StartThread) (p : StageProg Unit) : Prop where
  orderly : Orderly t.ffmpeg t.resolved.isSome p
  known : ∀ resolved ∈ t.resolved, Known s resolved

theorem Known.touch {s : CdiShared} {resolved : CdiEdits × ℕ}
    (known : Known s resolved) (cdi : Cdi) :
    Known (s.touch cdi) resolved := by
  obtain ⟨earlier, same⟩ := known
  rw [CdiShared.touch]
  split_ifs with unchanged
  · rw [← unchanged] at same
    exact ⟨earlier, same⟩
  · exact ⟨Nat.le_succ_of_le earlier,
      fun now => (Nat.ne_of_lt (Nat.lt_succ_of_le earlier) now).elim⟩

variable {s s' : CdiShared} {e : Call} {t : StartThread} {r : Reply e}

theorem Own.next {next : Reply e → StageProg Unit} (own : Own s t (.call e next))
    (other : e.resolves r = false) (kept : ∀ resolved, Known s resolved → Known s' resolved) :
    Own s' t (next r) := by
  refine ⟨?_, fun resolved mem => kept resolved (own.known resolved mem)⟩
  have orderly := own.orderly.2 r
  rw [other, Bool.or_false] at orderly
  exact orderly

theorem Own.resolved {ref : CdiRef} {next : Reply (.cdiResolve ref) → StageProg Unit}
    (own : Own s t (.call _ next)) {cdi : Cdi} {edits : CdiEdits}
    (pending : cdi.pending = some edits) :
    Own (s.touch cdi) (t.resolve s cdi (.ok ())) (next (.ok ())) := by
  have orderly := own.orderly.2 (.ok ())
  rw [Call.resolves, Bool.or_true] at orderly
  refine ⟨?_, fun resolved mem => ?_⟩
  · rw [StartThread.resolve, pending]
    exact orderly
  rw [StartThread.resolve, pending] at mem
  cases mem
  exact ⟨le_rfl, fun _ => pending⟩

variable {t t' : StartThread}

theorem cdiCall_eq_some {result : Except Failure Unit × Cdi} {r : Except Failure Unit}
    (served : cdiCall s result r t = some (s', t')) :
    r = result.1 ∧ s' = s.touch result.2 ∧ t' = t := by
  obtain ⟨same, moved⟩ := ite_none_right_eq_some.mp served
  cases moved
  exact ⟨same, rfl, rfl⟩

/-- A resolve that succeeds leaves the edits of the spec and of the device that it has found, and
one that fails none of its own. -/
theorem resolve_cases (cdi : Cdi) (ref : CdiRef) (granted : Bool) :
    ((cdi.resolve ref granted).1 = .ok () ∧ ∃ spec ∈ cdi.index.bind (Cdi.findSpec ref),
      ∃ device ∈ Cdi.findDevice ref spec, (cdi.resolve ref granted).2.pending =
        some (Cdi.pendingAppendEdits (Cdi.pendingAppendEdits noEdits spec.edits) device.2)) ∨
    (cdi.resolve ref granted).1 ≠ .ok () ∧
      ∀ edits ∈ (cdi.resolve ref granted).2.pending, edits ∈ cdi.pending := by
  unfold Cdi.resolve
  cases cdi.index with
  | none => exact .inr ⟨nofun, fun _ mem => mem⟩
  | some specs =>
    dsimp only
    cases found : Cdi.findSpec ref specs with
    | none => exact .inr ⟨nofun, fun _ mem => mem⟩
    | some spec =>
      cases granted with
      | false => exact .inr ⟨nofun, nofun⟩
      | true =>
        dsimp only
        cases named : Cdi.findDevice ref spec with
        | none => exact .inr ⟨nofun, nofun⟩
        | some device => exact .inl ⟨rfl, spec, found, device, named, rfl⟩

section

variable {r : Reply e} (served : startThreads.serve s t e r = some (s', t'))

include served

/-- What a call keeps of the edits that were resolved. -/
theorem served_known (resolved : CdiEdits × ℕ) (known : Known s resolved) : Known s' resolved := by
  have cdi : ∀ {result r t}, cdiCall s result r t = some (s', t') → Known s' resolved := by
    intro result r t served
    rw [(cdiCall_eq_some served).2.1]
    exact known.touch _
  cases e with
  | cdiScan | cdiResolve | cdiMergeEdits => exact cdi served
  | client call =>
    cases call <;>
      · cases served
        exact known
  | _ =>
    cases served
    exact known

theorem served_own {next : Reply e → StageProg Unit} (own : Own s t (.call e next)) :
    Own s' t' (next r) := by
  have kept := served_known served
  cases e with
  | cdiScan | cdiMergeEdits =>
    rw [(cdiCall_eq_some served).2.2]
    exact own.next rfl kept
  | cdiResolve ref =>
    obtain ⟨answer, rfl, rfl⟩ := cdiCall_eq_some served
    cases r with
    | error => exact own.next rfl kept
    | ok _ =>
      rcases resolve_cases s.cdi ref s.granted with ⟨_, _, _, _, _, pending⟩ | ⟨failed, _⟩
      · exact own.resolved pending
      · exact (failed answer.symm).elim
  | client call =>
    cases call <;>
      · cases served
        exact own.next rfl kept
  | _ =>
    cases served
    exact own.next rfl kept

theorem served_right {next : Reply e → StageProg Unit}
    (undisturbed : editsUndisturbed s t e r = true) (own : Own s t (.call e next))
    (right : ∀ built ∈ s.log, built.Right) : ∀ built ∈ s'.log, built.Right := by
  have cdi : ∀ {result r t}, cdiCall s result r t = some (s', t') →
      ∀ built ∈ s'.log, built.Right := by
    intro result r t served
    rw [(cdiCall_eq_some served).2.1]
    exact right
  cases e with
  | cdiScan | cdiResolve | cdiMergeEdits => exact cdi served
  | client call =>
    cases call with
    | newContainer =>
      cases served
      rw [forall_mem_append, forall_mem_singleton]
      refine ⟨right, fun host image ns containerId => ?_⟩
      obtain ⟨ffmpeg, resolved⟩ := t
      cases ffmpeg with
      | true =>
        -- The device has been resolved, and its edits are still the pending ones.
        obtain ⟨⟨edits, changes⟩, found⟩ := isSome_iff_exists.mp (own.orderly.1 rfl rfl)
        cases found
        have same := (own.known _ rfl).2 (of_decide_eq_true undisturbed)
        rw [Cdi.getPendingEdits, same]
        -- No more than 16 groups are used.
        have gids : mergedGids host image (some { edits with
            additionalGids := edits.additionalGids.take 16 }) =
              mergedGids host image (some edits) :=
          collect_take 16 16 _ _ (Nat.le_add_left _ _)
        rw [map_some, document, processJson, gids]
        rfl
      | false =>
        have empty : s.cdi.pending.all (fun edits => edits = noEdits) = true := undisturbed
        rw [Cdi.getPendingEdits]
        cases pending : s.cdi.pending with
        | none => rfl
        | some =>
          rw [pending] at empty
          cases of_decide_eq_true empty
          rfl
    | _ =>
      cases served
      exact right
  | _ =>
    cases served
    exact right

end

/-- **The edits of a container.** In every run in which each container of an ffmpeg stage is created
before the pending edits are changed behind its resolve, and each other container while no edits are
pending, the document of each container is the one with the edits that its operation has resolved,
and for MediaMTX without any. -/
theorem containers_get_their_edits (disk : Except Failure (List CdiSpec)) (granted : Bool)
    (pool : Threads.Pool Call Reply CdiShared StartThread)
    (reachable : ((startThreads.limit editsUndisturbed).machine
      ⟨⟨none, none⟩, disk, granted, 0, []⟩).Reachable pool) :
    ∀ built ∈ pool.shared.log, built.Right := by
  refine (Threads.invariant (fun s => ∀ built ∈ s.log, built.Right) Own
    nofun ?_ ?_ ?_ ?_ reachable).1
  · intro s k right
    cases k with
    | fireStart ops timeoutMs =>
      refine ⟨right, fun thread started => ?_⟩
      cases started
      exact ⟨orderly_runStageOp (orderly_stageStartOp ops timeoutMs), nofun⟩
    | writeSpecs | setMemory => exact ⟨right, nofun⟩
  · intro s k t p _ own
    cases k <;> exact ⟨own.orderly, own.known⟩
  · intro s t e r next s' t' right own served
    obtain ⟨undisturbed, served⟩ := Threads.limit_serve served
    exact ⟨served_right served undisturbed own right, served_own served own⟩
  intro s t e r s' t' u p _ served own
  have kept := served_known (Threads.limit_serve served).2
  exact ⟨own.orderly, fun resolved mem => kept resolved (own.known resolved mem)⟩

/-! ## Runs -/

/-- A stage of ffmpeg and one of MediaMTX. -/
def gpuOps : StageOps :=
  ⟨true, ascii "normalize", ascii "normalize-snapshot", ascii "ffmpeg", [], true,
    ⟨some [], some [], some [], some [], some [], some [], some [], some []⟩, [], 10000⟩

def serverOps : StageOps :=
  { gpuOps with
    containerId := ascii "mediamtx", snapshotId := ascii "mediamtx-snapshot"
    imageName := ascii "mediamtx", ffmpeg := false }

/-- What a scan finds. -/
def gpuSpecs : List CdiSpec := [⟨ascii "nvidia.com/gpu", noEdits, [(ascii "0", gpuEdits)]⟩]

/-- The container of the stage is not there, and a new one is created. -/
def fresh : (e : Call) → Reply e
  | .superseded => false
  | .remainingMs => (30000 : ℤ)
  | .client (.newContainer id ..) => .ok ⟨id, none, none, none, none⟩
  | .client (.loadContainer _) | .client (.loadTask _) =>
    .error ⟨ctrdErrNotFound, ctrdErrNotFound_ne⟩
  | .client (.newTask ..) => .error ⟨ctrdErrIo, ctrdErrIo_ne⟩
  | .client (.taskStart _) | .client (.taskKill ..) | .client (.taskDelete ..)
  | .client (.deleteContainer ..) => .error ⟨ctrdErrIo, ctrdErrIo_ne⟩
  | .createWaiter .. => false
  | .joinWaiter .. => .error ⟨ctrdErrIo, ctrdErrIo_ne⟩
  | .cdiScan | .cdiResolve _ | .cdiMergeEdits _ => .ok ()
  | .returned | .enqueueClear => ()

def beforeStarts : CdiShared := ⟨⟨none, none⟩, .ok gpuSpecs, true, 0, []⟩

/-- A container of ffmpeg gets the edits of its device. -/
theorem container_gets_gpu :
    ∃ pool built, ((startThreads.limit editsUndisturbed).machine beforeStarts).Reachable pool ∧
      built ∈ pool.shared.log ∧ built.own = some gpuEdits ∧ built.Right := by
  have run : ∃ pool built,
      ((startThreads.limit editsUndisturbed).machine beforeStarts).exec ⟨beforeStarts, []⟩
      (.act (.fireStart gpuOps 30000) :: List.replicate 11 (.call 0 fresh)) = some pool ∧
      pool.shared.log = [built] ∧ built.own = some gpuEdits := ⟨_, _, rfl, rfl, rfl⟩
  obtain ⟨pool, built, run, log, own⟩ := run
  have mem : built ∈ pool.shared.log := log ▸ mem_singleton.mpr rfl
  have reachable : ((startThreads.limit editsUndisturbed).machine beforeStarts).Reachable pool :=
    ⟨_, rfl, _, run⟩
  exact ⟨pool, built, reachable, mem, own, containers_get_their_edits _ _ pool reachable built mem⟩

/-- The number of variables in a document. -/
def envSize (doc : Json) : Option ℕ :=
  (((doc.get? (ascii "process")).bind (Json.get? (ascii "env"))).bind Json.arr?).map List.length

theorem envSize_document (spec : Spec) (image : ImageConfig) (cdi : Option CdiEdits) :
    envSize (document ⟨none, none⟩ spec image none [] cdi) =
      some (mergedEnv spec image cdi).length :=
  congrArg some (length_map _)

/-- The edits of the device show. -/
theorem document_gpuEdits_ne (spec : Spec) (empty : spec.process.env = []) :
    document ⟨none, none⟩ spec ⟨[], [], [], none, none⟩ none [] (some gpuEdits) ≠
      document ⟨none, none⟩ spec ⟨[], [], [], none, none⟩ none [] none := by
  intro same
  have sizes := congrArg envSize same
  rw [envSize_document, envSize_document, Option.some.injEq] at sizes
  have base : baseEnv spec ⟨[], [], [], none, none⟩ = defaultUnixEnv := by
    rw [baseEnv, empty]
    rfl
  rw [mergedEnv, mergedEnv, base] at sizes
  revert sizes
  decide

/-- An ffmpeg stage has resolved its device when the container of MediaMTX is created, which gets
the edits. And an ffmpeg stage gets none when the scan of another one comes between. -/
theorem edits_reach_another_container :
    (∃ pool built, (startThreads.machine beforeStarts).Reachable pool ∧ built ∈ pool.shared.log ∧
      built.own = none ∧ built.used = some gpuEdits ∧ ¬ built.Right) ∧
    ∃ pool built, (startThreads.machine beforeStarts).Reachable pool ∧ built ∈ pool.shared.log ∧
      built.own = some gpuEdits ∧ built.used = none ∧ ¬ built.Right := by
  have server : ∃ pool built, (startThreads.machine beforeStarts).exec ⟨beforeStarts, []⟩
      (.act (.fireStart gpuOps 30000) :: List.replicate 11 (.call 0 fresh) ++
        .act (.fireStart serverOps 30000) :: List.replicate 8 (.call 1 fresh)) = some pool ∧
      pool.shared.log.getLast? = some built ∧ built.own = none ∧ built.used = some gpuEdits ∧
      built.spec.process.env = [] := ⟨_, _, rfl, rfl, rfl, rfl, rfl⟩
  have other : ∃ pool built, (startThreads.machine beforeStarts).exec ⟨beforeStarts, []⟩
      (.act (.fireStart gpuOps 30000) :: List.replicate 10 (.call 0 fresh) ++
        .act (.fireStart gpuOps 30000) :: List.replicate 7 (.call 1 fresh) ++ [.call 0 fresh]) =
          some pool ∧
      pool.shared.log.getLast? = some built ∧ built.own = some gpuEdits ∧ built.used = none ∧
      built.spec.process.env = [] := ⟨_, _, rfl, rfl, rfl, rfl, rfl⟩
  obtain ⟨pool, built, run, last, own, used, empty⟩ := server
  refine ⟨⟨pool, built, ⟨_, rfl, _, run⟩, mem_of_getLast? last, own, used, fun right => ?_⟩, ?_⟩
  · have same := right ⟨none, none⟩ ⟨[], [], [], none, none⟩ none []
    rw [own, used] at same
    exact document_gpuEdits_ne built.spec empty same
  obtain ⟨pool, built, run, last, own, used, empty⟩ := other
  refine ⟨pool, built, ⟨_, rfl, _, run⟩, mem_of_getLast? last, own, used, fun right => ?_⟩
  have same := right ⟨none, none⟩ ⟨[], [], [], none, none⟩ none []
  rw [own, used] at same
  exact document_gpuEdits_ne built.spec empty same.symm

/-! ## The arrays of the copy -/

/-- The indices that `strim_cdi_get_pending_edits` uses, with the sizes of the arrays. -/
def copyIndices (edits : CdiEdits) : List (ℕ × ℕ) :=
  (List.range edits.mounts.length).map (·, specMaxMounts) ++
    (List.range edits.devices.length).map (·, cdiMaxDevices) ++
    (List.range edits.hooks.length).map (·, cdiMaxDevices) ++
    (List.range (min edits.additionalGids.length 16)).map (·, 16)

def fitsArrays (edits : CdiEdits) : Bool :=
  edits.mounts.length ≤ specMaxMounts && edits.devices.length ≤ cdiMaxDevices &&
    edits.hooks.length ≤ cdiMaxDevices

/-- A spec and one of its devices have no more together than the arrays hold. -/
def fitTogether (spec : CdiSpec) (device : Octets × CdiEdits) : Bool :=
  spec.edits.mounts.length + device.2.mounts.length ≤ specMaxMounts &&
    spec.edits.devices.length + device.2.devices.length ≤ cdiMaxDevices &&
    spec.edits.hooks.length + device.2.hooks.length ≤ cdiMaxDevices

/-- Each resolve is for a device that fits together with its spec, if they are there. -/
def resolvesFitting (s : CdiShared) (_ : StartThread) : (e : Call) → Reply e → Bool
  | .cdiResolve ref, _ => (s.cdi.index.bind (Cdi.findSpec ref)).all fun spec =>
    (Cdi.findDevice ref spec).all (fitTogether spec)
  | _, _ => true

/-- What is pending fits, and so did the edits of every container. -/
def AllFit (s : CdiShared) : Prop :=
  (∀ edits ∈ s.cdi.pending, fitsArrays edits = true) ∧
    ∀ built ∈ s.log, ∀ edits ∈ built.used, fitsArrays edits = true

theorem served_allFit (served : startThreads.serve s t e r = some (s', t'))
    (fitting : resolvesFitting s t e r = true) (fits : AllFit s) : AllFit s' := by
  have cdi : ∀ {result : Except Failure Unit × Cdi} {r t}, cdiCall s result r t = some (s', t') →
      (∀ edits ∈ result.2.pending, fitsArrays edits = true) → AllFit s' := by
    intro result r t served pending
    rw [(cdiCall_eq_some served).2.1]
    exact ⟨pending, fits.2⟩
  cases e with
  | cdiScan =>
    refine cdi served ?_
    cases s.disk <;> exact nofun
  | cdiResolve ref =>
    refine cdi served fun edits mem => ?_
    rcases resolve_cases s.cdi ref s.granted with ⟨_, spec, found, device, named, left⟩ | ⟨_, old⟩
    · cases left.symm.trans mem
      have both := (all_eq_true _ _).mp ((all_eq_true _ _).mp fitting spec found) device named
      simpa [fitTogether, fitsArrays, Cdi.pendingAppendEdits, noEdits] using both
    · exact fits.1 edits (old edits mem)
  | cdiMergeEdits spec =>
    refine cdi served ?_
    unfold Cdi.mergeEdits
    cases pending : s.cdi.pending with
    | none => exact fun _ absurd => by cases pending ▸ absurd
    | some edits =>
      have old := fits.1 edits pending
      dsimp only
      split_ifs
      · exact fits.1
      · exact fits.1
      · exact fits.1
      · rintro _ ⟨⟩
        exact old
  | client call =>
    cases call with
    | newContainer =>
      cases served
      refine ⟨fits.1, ?_⟩
      rw [forall_mem_append, forall_mem_singleton]
      refine ⟨fits.2, fun edits mem => ?_⟩
      obtain ⟨pending, found, rfl⟩ := map_eq_some_iff.mp mem
      exact fits.1 pending found
    | _ =>
      cases served
      exact fits
  | _ =>
    cases served
    exact fits

/-- **The copy stays inside its arrays.** In every run in which the resolved specs and devices have
no more mounts, device nodes and hooks together than the arrays have room for, every index used for
the edits of a container is inside its array. -/
theorem copies_stay_inside (disk : Except Failure (List CdiSpec)) (granted : Bool)
    (pool : Threads.Pool Call Reply CdiShared StartThread)
    (reachable : ((startThreads.limit resolvesFitting).machine
      ⟨⟨none, none⟩, disk, granted, 0, []⟩).Reachable pool) :
    ∀ built ∈ pool.shared.log, ∀ edits ∈ built.used, ∀ used ∈ copyIndices edits,
      used.1 < used.2 := by
  have fits : AllFit pool.shared := by
    refine (Threads.invariant AllFit (fun _ _ _ => True) ?_ ?_ ?_ ?_ ?_ reachable).1
    · exact ⟨nofun, nofun⟩
    · intro s k fits
      cases k <;> exact ⟨fits, fun _ _ => trivial⟩
    · exact fun _ _ _ _ _ _ => trivial
    · intro s t e r next s' t' fits _ served
      obtain ⟨fitting, served⟩ := Threads.limit_serve served
      exact ⟨served_allFit served fitting fits, trivial⟩
    · exact fun _ _ _ _ _ _ _ _ _ _ _ => trivial
  intro built mem edits used
  have fits := fits.2 built mem edits used
  simp only [fitsArrays, Bool.and_eq_true, decide_eq_true_eq] at fits
  obtain ⟨⟨mounts, devices⟩, hooks⟩ := fits
  simp only [copyIndices, List.forall_mem_append, List.forall_mem_map, List.mem_range]
  refine ⟨⟨⟨fun i below => ?_, fun i below => ?_⟩, fun i below => ?_⟩, fun i below => ?_⟩
  · exact below.trans_le mounts
  · exact below.trans_le devices
  · exact below.trans_le hooks
  · exact below.trans_le (min_le_right _ _)

/-- The run with the edits of the device, each of which is copied to the first place. -/
theorem gpu_copy_inside :
    ∃ pool built, ((startThreads.limit resolvesFitting).machine beforeStarts).Reachable pool ∧
      built ∈ pool.shared.log ∧ built.used = some gpuEdits ∧
      copyIndices gpuEdits = [(0, 256), (0, 32), (0, 32), (0, 16)] ∧
      ∀ used ∈ copyIndices gpuEdits, used.1 < used.2 := by
  have run : ∃ pool built,
      ((startThreads.limit resolvesFitting).machine beforeStarts).exec ⟨beforeStarts, []⟩
      (.act (.fireStart gpuOps 30000) :: List.replicate 11 (.call 0 fresh)) = some pool ∧
      pool.shared.log = [built] ∧ built.used = some gpuEdits := ⟨_, _, rfl, rfl, rfl⟩
  obtain ⟨pool, built, run, log, used⟩ := run
  have mem : built ∈ pool.shared.log := log ▸ mem_singleton.mpr rfl
  have reachable : ((startThreads.limit resolvesFitting).machine beforeStarts).Reachable pool :=
    ⟨_, rfl, _, run⟩
  exact ⟨pool, built, reachable, mem, used, by decide,
    copies_stay_inside _ _ pool reachable built mem _ used⟩

/-- A device with one node more than the array holds. -/
def crowdedEdits : CdiEdits :=
  { noEdits with
    devices := List.replicate 33 ⟨ascii "/dev/nvidia0", some (ascii "c"), 195, 0, 0, 0, 0⟩ }

def beforeCrowded : CdiShared :=
  { beforeStarts with disk := .ok [⟨ascii "nvidia.com/gpu", noEdits, [(ascii "0", crowdedEdits)]⟩] }

/-- The merge refuses the edits. -/
def refusing : (e : Call) → Reply e
  | .cdiMergeEdits _ => .error ⟨cdiErrParse, cdiErrParse_ne⟩
  | e => fresh e

/-- The edits that a merge has refused are copied for the container of MediaMTX. -/
theorem refused_edits_copied :
    ∃ pool built edits, (startThreads.machine beforeCrowded).Reachable pool ∧
      built ∈ pool.shared.log ∧ built.used = some edits ∧ (32, 32) ∈ copyIndices edits := by
  have run : ∃ pool built, (startThreads.machine beforeCrowded).exec ⟨beforeCrowded, []⟩
      (.act (.fireStart gpuOps 30000) :: List.replicate 9 (.call 0 refusing) ++
        .act (.fireStart serverOps 30000) :: List.replicate 8 (.call 1 fresh)) = some pool ∧
      pool.shared.log = [built] ∧ built.used = some crowdedEdits := ⟨_, _, rfl, rfl, rfl⟩
  obtain ⟨pool, built, run, log, used⟩ := run
  exact ⟨pool, built, _, ⟨_, rfl, _, run⟩, log ▸ mem_singleton.mpr rfl, used, by decide⟩

end Strimserver.Stage
