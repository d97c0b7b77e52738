import Strimserver.Library.Threads
import Strimserver.Stage.Ops

/-!
# Superseded operations

Any number of operations of one stage, interleaved call by call, while the generation of the stage
is bumped at any time. An operation that is fired bumps the generation and keeps it; the
teardown bumps it and runs the stop operation without one. A thread is stale when its
generation had been bumped before its last call of the client returned, and from its return
to `run_stage_op` on, when it had been bumped before that.

A stale thread should make no further call that changes anything, and should not clear the
in-flight mark. Behind every call but one the operations look at the generation first:
when `load_task` finds no task, `stage_stop_op` deletes the container at once.
`superseded_ops_are_quiet` says that this is all. The generation has 64 bits, so a thread that
lives through 2^64 bumps would not see them.
-/

namespace Strimserver.Stage

open Library Containerd

/-! ## Threads -/

def ClientCall.mutates : ClientCall → Bool
  | newContainer .. | newTask .. | taskStart _ | taskKill .. | taskDelete .. | deleteContainer .. =>
    true
  | loadContainer _ | loadTask _ => false

/-- What is recorded of the threads. -/
inductive Entry where
  /-- A call of the client by a thread that was stale or not. -/
  | called (call : ClientCall) (stale : Bool)
  /-- A clear, put on the queue by a thread that was stale or not. -/
  | cleared (stale : Bool)

/-- Something is changed. -/
def Entry.mutates : Entry → Bool
  | called call _ => call.mutates
  | cleared _ => true

/-- Nothing is changed by a stale thread. -/
def Entry.quiet : Entry → Bool
  | called call stale => !(call.mutates && stale)
  | cleared stale => !stale

/-- The generation of the stage as the number of its bumps, and the record. -/
structure Shared where
  bumps : ℕ
  log : List Entry

/-- A thread of the stage: the number of bumps when it was fired, unless it runs for the teardown,
and whether it is stale. -/
structure OpThread where
  fired : Option ℕ
  stale : Bool

def OpThread.superseded (s : Shared) (t : OpThread) : Bool :=
  t.fired.any fun fired => UInt64.ofNat s.bumps ≠ UInt64.ofNat fired

def OpThread.bumped (s : Shared) (t : OpThread) : Bool := t.fired.any (· < s.bumps)

/-- What happens to the stage. -/
inductive Act where
  | bump
  | fireStart (timeoutMs : ℤ)
  | fireStop (timeoutMs : ℤ)
  | teardown (timeoutMs : ℤ)

/-- The threads of a stage. -/
def opThreads (ops : StageOps) : Threads Call Reply Shared OpThread Act where
  act s k :=
    let s' := { s with bumps := s.bumps + 1 }
    match k with
    | .bump => (s', none)
    | .fireStart timeoutMs =>
      (s', some (⟨some s'.bumps, false⟩, runStageOp (stageStartOp ops timeoutMs)))
    | .fireStop timeoutMs =>
      (s', some (⟨some s'.bumps, false⟩, runStageOp (stageStopOp ops timeoutMs)))
    | .teardown timeoutMs =>
      (s', some (⟨none, false⟩, (stageStopOp ops timeoutMs).bind fun _ => .ret ()))
  serve s t
    | .superseded, true => if t.superseded s then some (s, t) else none
    | .superseded, false => if t.superseded s then none else some (s, t)
    | .client call, _ =>
      some ({ s with log := s.log ++ [.called call t.stale] }, { t with stale := t.bumped s })
    | .joinWaiter .., _ | .returned, _ => some (s, { t with stale := t.bumped s })
    | .enqueueClear, _ => some ({ s with log := s.log ++ [.cleared t.stale] }, t)
    | _, _ => some (s, t)

/-- A load of a task by a thread whose generation has been bumped does not find that there is
none, and no thread looks at the generation after 2^64 bumps. -/
def answersTell (s : Shared) (t : OpThread) : (e : Call) → Reply e → Bool
  | .client (.loadTask _), .error rc => !(t.bumped s && rc.val = ctrdErrNotFound)
  | .superseded, _ => t.fired.all fun fired => s.bumps < fired + 2 ^ 64
  | _, _ => true

/-! ## Programs that look first -/

def Call.harmless : Call → Bool
  | client call => !call.mutates
  | enqueueClear => false
  | _ => true

/-- The replies to a thread whose generation has been bumped. -/
def Call.admits : (e : Call) → Reply e → Prop
  | .superseded, r => r = true
  | .client (.loadTask _), .error rc => rc.val ≠ ctrdErrNotFound
  | _, _ => True

/-- After the call it is known whether the thread is stale. -/
def Call.settles : Call → Bool
  | client _ | joinWaiter .. | returned => true
  | _ => false

/-- A program that changes nothing once its generation has been bumped. -/
def Held {α : Type} : StageProg α → Prop
  | .ret _ => True
  | .call e next => e.harmless = true ∧ ∀ r, e.admits r → Held (next r)

/-- A program that looks at the generation behind every call, before it changes anything. -/
def Guarded {α : Type} : StageProg α → Prop
  | .ret _ => True
  | .call e next => ∀ r, Guarded (next r) ∧ (e.settles = true → e.admits r → Held (next r))

section

variable {α β : Type} {f : α → StageProg β}

theorem Held.bind {p : StageProg α} (held : Held p) (rest : ∀ a, Held (f a)) : Held (p.bind f) := by
  induction p with
  | ret a => exact rest a
  | call e next ih => exact ⟨held.1, fun r admitted => ih r (held.2 r admitted)⟩

theorem Guarded.bind {p : StageProg α} (guarded : Guarded p) (held : ∀ a, Held (f a))
    (rest : ∀ a, Guarded (f a)) : Guarded (p.bind f) := by
  induction p with
  | ret a => exact rest a
  | call e next ih =>
    intro r
    exact ⟨ih r (guarded r).1, fun settles admitted => ((guarded r).2 settles admitted).bind held⟩

/-- What comes behind a look at the generation is not run by a thread that has been bumped. -/
theorem held_unlessSuperseded (p : StageProg ℤ) : Held (unlessSuperseded p) := by
  refine ⟨rfl, fun r admitted => ?_⟩
  cases admitted
  trivial

theorem guarded_unlessSuperseded {p : StageProg ℤ} (guarded : Guarded p) :
    Guarded (unlessSuperseded p) := by
  intro r
  refine ⟨?_, nofun⟩
  cases r with
  | true => trivial
  | false => exact guarded

/-! ## The operations look first -/

/-- The rule for a call whose failure ends the program. -/
theorem guarded_client {call : ClientCall} {next : Reply (.client call) → StageProg ℤ}
    (fails : ∀ rc, next (.error rc) = .ret rc.val) (held : ∀ result, Held (next (.ok result)))
    (passes : ∀ result, Guarded (next (.ok result))) : Guarded (.call (.client call) next) := by
  intro r
  cases r with
  | error =>
    rw [fails]
    exact ⟨trivial, fun _ _ => trivial⟩
  | ok result => exact ⟨passes result, fun _ _ => held result⟩

variable (container : Container)

theorem guarded_deleteContainer : Guarded (deleteContainer container) :=
  guarded_client (fun _ => rfl) (fun _ => trivial) fun _ => trivial

variable (task : Task)

theorem guarded_deleteTask (force : Bool) : Guarded (deleteTask container task force) :=
  guarded_client (fun _ => rfl) (fun _ => held_unlessSuperseded _)
    fun _ => guarded_unlessSuperseded (guarded_deleteContainer container)

theorem guarded_afterWait (waited : Except Failure ℤ) :
    Guarded (afterWait container task waited) := by
  cases waited with
  | ok => exact guarded_deleteTask container task false
  | error =>
    rw [afterWait]
    split_ifs
    · exact guarded_deleteTask container task true
    · exact guarded_unlessSuperseded (guarded_deleteContainer container)
    · trivial

theorem guarded_killTask (waitMs : ℤ) : Guarded (killTask container task waitMs) := by
  intro r
  cases r with
  | error => exact ⟨fun _ => ⟨trivial, fun _ _ => trivial⟩, fun _ _ => ⟨rfl, fun _ _ => trivial⟩⟩
  | ok _ =>
    refine ⟨fun waited => ⟨?_, fun _ _ => held_unlessSuperseded _⟩, fun _ _ => ?_⟩
    · exact guarded_unlessSuperseded (guarded_afterWait container task waited)
    · exact ⟨rfl, fun _ _ => held_unlessSuperseded _⟩

variable (ops : StageOps)

theorem guarded_stopTask (budgetMs : ℤ) (container : Container) (task : Task) :
    Guarded (stopTask ops budgetMs container task) := by
  intro created
  refine ⟨?_, nofun⟩
  cases created with
  | false => trivial
  | true =>
    intro superseded
    refine ⟨?_, nofun⟩
    cases superseded with
    | true => exact fun _ => ⟨trivial, fun _ _ => trivial⟩
    | false => exact guarded_killTask container task _

theorem passes_guarded : Passes (fun e => !e.settles) Guarded := by
  refine ⟨fun _ => trivial, guarded_unlessSuperseded,
    fun quiet rest r => ⟨rest r, fun settles => ?_⟩⟩
  rw [settles] at quiet
  cases quiet

theorem guarded_stageStopOp (timeoutMs : ℤ) : Guarded (stageStopOp ops timeoutMs) := by
  rw [stageStopOp_budgeted]
  refine passes_guarded.budgeted rfl fun budgetMs r => ?_
  cases r with
  | error =>
    dsimp only
    split_ifs <;> exact ⟨trivial, fun _ _ => trivial⟩
  | ok container =>
    refine ⟨guarded_unlessSuperseded fun r => ?_, fun _ _ => held_unlessSuperseded _⟩
    cases r with
    | ok task =>
      exact ⟨guarded_unlessSuperseded (guarded_stopTask ops _ container task),
        fun _ _ => held_unlessSuperseded _⟩
    | error =>
      -- A task that is not found is not admitted: here the container is deleted without a look.
      dsimp only
      split_ifs with missing
      · exact ⟨guarded_deleteContainer container, fun _ found => (found missing).elim⟩
      · exact ⟨trivial, fun _ _ => trivial⟩

variable (spec : Oci.Spec)

theorem guarded_createContainer : Guarded (createContainer ops spec) := by
  have started : ∀ task, Guarded (startTask task) := fun task =>
    guarded_client (fun _ => rfl) (fun _ => trivial) fun _ => trivial
  have created : ∀ container, Guarded (createTask ops container) := fun container =>
    guarded_client (fun _ => rfl) (fun _ => held_unlessSuperseded _)
      fun task => guarded_unlessSuperseded (started task)
  exact guarded_client (fun _ => rfl) (fun _ => held_unlessSuperseded _)
    fun container => guarded_unlessSuperseded (created container)

theorem guarded_buildAndCreate : Guarded (buildAndCreate ops) :=
  passes_guarded.buildAndCreate rfl (fun _ => rfl) (fun _ => rfl) (guarded_createContainer ops)

theorem guarded_stageStartOp (timeoutMs : ℤ) : Guarded (stageStartOp ops timeoutMs) := by
  rw [stageStartOp_budgeted]
  refine passes_guarded.budgeted rfl fun budgetMs => ?_
  unfold startStopped
  refine (guarded_stageStopOp ops _).bind (fun rc => ?_) fun rc => ?_
  · split_ifs
    · trivial
    · exact held_unlessSuperseded _
  split_ifs
  · trivial
  · exact guarded_unlessSuperseded (guarded_buildAndCreate ops)

/-- `run_stage_op` looks before it clears. -/
theorem guarded_runStageOp {op : StageProg ℤ} (guarded : Guarded op) : Guarded (runStageOp op) := by
  refine guarded.bind (fun err => ⟨rfl, fun _ _ => ?_⟩) fun err _ => ?_
  · split_ifs
    · trivial
    refine ⟨rfl, fun r admitted => ?_⟩
    cases admitted
    trivial
  split_ifs
  · exact ⟨trivial, fun _ _ => trivial⟩
  refine ⟨fun r => ⟨?_, nofun⟩, fun _ _ => ⟨rfl, fun r admitted => ?_⟩⟩
  · cases r with
    | true => trivial
    | false => exact fun _ => ⟨trivial, nofun⟩
  · cases admitted
    trivial

end

/-! ## What a call does -/

variable {t : OpThread}

/-- What a call does to the shared state and to its thread, and which replies a thread gets whose
generation has been bumped. -/
structure Served (s : Shared) (t : OpThread) (e : Call) (r : Reply e) (s' : Shared)
    (t' : OpThread) :
    Prop where
  bumps : s'.bumps = s.bumps
  fired : t'.fired = t.fired
  stale : t'.stale = if e.settles then t.bumped s else t.stale
  log : s'.log = s.log ∨ ∃ entry, s'.log = s.log ++ [entry] ∧
    ((t.stale = true → e.harmless = true) → entry.quiet = true)
  admits : t.bumped s = true → e.admits r

variable {s s' : Shared}

theorem served {ops : StageOps} {t' : OpThread} {e : Call} {r : Reply e}
    (served : ((opThreads ops).limit answersTell).serve s t e r = some (s', t')) :
    Served s t e r s' t' := by
  obtain ⟨tells, served⟩ := Threads.limit_serve served
  cases e with
  | superseded =>
    -- A thread that has been bumped fewer than 2^64 times is superseded.
    have told : t.bumped s = true → t.superseded s = true := by
      intro bumped
      obtain ⟨_ | fired, stale⟩ := t
      · cases bumped
      have few := tells
      have later : fired < s.bumps := of_decide_eq_true bumped
      rw [answersTell, Option.all_some, decide_eq_true_eq] at few
      refine decide_eq_true fun same => ?_
      have equal := congrArg UInt64.toNat same
      rw [UInt64.toNat_ofNat', UInt64.toNat_ofNat'] at equal
      omega
    cases r with
    | true =>
      obtain ⟨-, same⟩ := Option.ite_none_right_eq_some.mp served
      cases same
      exact ⟨rfl, rfl, rfl, .inl rfl, fun _ => rfl⟩
    | false =>
      obtain ⟨live, same⟩ := Option.ite_none_left_eq_some.mp served
      cases same
      exact ⟨rfl, rfl, rfl, .inl rfl, fun bumped => (live (told bumped)).elim⟩
  | client call =>
    cases served
    refine ⟨rfl, rfl, rfl, .inr ⟨_, rfl, fun harmless => ?_⟩, fun bumped => ?_⟩
    · show (!(call.mutates && t.stale)) = true
      cases stale : t.stale with
      | false => rw [Bool.and_false, Bool.not_false]
      | true => rw [Bool.and_true, ← harmless stale, Call.harmless]
    cases call with
    | loadTask =>
      cases r with
      | ok => trivial
      | error rc =>
        intro missing
        have told : (!(t.bumped s && decide (rc.val = ctrdErrNotFound))) = true := tells
        rw [bumped, decide_eq_true missing] at told
        cases told
    | _ => trivial
  | enqueueClear =>
    cases served
    refine ⟨rfl, rfl, rfl, .inr ⟨_, rfl, fun harmless => ?_⟩, fun _ => trivial⟩
    cases stale : t.stale with
    | false => rfl
    | true => cases harmless stale
  | _ =>
    cases served
    exact ⟨rfl, rfl, rfl, .inl rfl, fun _ => trivial⟩

/-! ## Every run -/

/-- A thread whose program looks first, and changes nothing once it is stale. -/
structure Quiet (s : Shared) (t : OpThread) (p : StageProg Unit) : Prop where
  guarded : Guarded p
  held : t.stale = true → t.bumped s = true ∧ Held p

theorem OpThread.bumped_mono (later : s.bumps ≤ s'.bumps) (bumped : t.bumped s = true) :
    t.bumped s' = true := by
  obtain ⟨_ | fired, stale⟩ := t
  · cases bumped
  · have before : fired < s.bumps := of_decide_eq_true bumped
    exact decide_eq_true (before.trans_le later)

theorem Quiet.mono {p : StageProg Unit} (quiet : Quiet s t p) (later : s.bumps ≤ s'.bumps) :
    Quiet s' t p :=
  ⟨quiet.guarded,
    fun stale => ⟨OpThread.bumped_mono later (quiet.held stale).1, (quiet.held stale).2⟩⟩

theorem Quiet.next {t' : OpThread} {e : Call} {r : Reply e} {next : Reply e → StageProg Unit}
    (quiet : Quiet s t (.call e next)) (served : Served s t e r s' t') : Quiet s' t' (next r) := by
  have same : t'.bumped s' = t.bumped s := by
    rw [OpThread.bumped, OpThread.bumped, served.fired, served.bumps]
  refine ⟨(quiet.guarded r).1, fun stale => ?_⟩
  rw [served.stale] at stale
  rw [same]
  cases settles : e.settles with
  | true =>
    rw [settles, if_pos rfl] at stale
    exact ⟨stale, (quiet.guarded r).2 settles (served.admits stale)⟩
  | false =>
    rw [settles, if_neg Bool.false_ne_true] at stale
    obtain ⟨bumped, held⟩ := quiet.held stale
    exact ⟨bumped, held.2 r (served.admits bumped)⟩

theorem Quiet.fresh (s : Shared) (fired : Option ℕ) {p : StageProg Unit} (guarded : Guarded p) :
    Quiet s ⟨fired, false⟩ p := ⟨guarded, nofun⟩

/-- **Superseded operations are quiet.** In every run in which no load of a task by a superseded
operation finds that there is none, and no operation lives through 2^64 bumps, an operation whose
generation was bumped before its last call of the client returned makes no call that changes
anything, and one that was superseded when it returned is not followed by a clear. -/
theorem superseded_ops_are_quiet (ops : StageOps) (pool : Threads.Pool Call Reply Shared OpThread)
    (reachable : (((opThreads ops).limit answersTell).machine ⟨0, []⟩).Reachable pool) :
    ∀ entry ∈ pool.shared.log, entry.quiet = true := by
  refine (Threads.invariant (fun s => ∀ entry ∈ s.log, entry.quiet = true) Quiet
    nofun ?_ ?_ ?_ ?_ reachable).1
  · intro s k quiet
    refine ⟨by cases k <;> exact quiet, fun thread started => ?_⟩
    cases k with
    | bump => cases started
    | fireStart timeoutMs =>
      cases started
      exact Quiet.fresh _ _ (guarded_runStageOp (guarded_stageStartOp ops timeoutMs))
    | fireStop timeoutMs =>
      cases started
      exact Quiet.fresh _ _ (guarded_runStageOp (guarded_stageStopOp ops timeoutMs))
    | teardown timeoutMs =>
      cases started
      exact Quiet.fresh _ _
        ((guarded_stageStopOp ops timeoutMs).bind (fun _ => trivial) fun _ => trivial)
  · intro s k t p _ quiet
    refine quiet.mono ?_
    cases k <;> exact Nat.le_succ _
  · intro s t e r next s' t' quiet own done
    have effect := served done
    refine ⟨?_, own.next effect⟩
    rcases effect.log with same | ⟨entry, appended, fine⟩
    · rw [same]
      exact quiet
    · rw [appended, List.forall_mem_append, List.forall_mem_singleton]
      exact ⟨quiet, fine fun stale => (own.held stale).2.1⟩
  · intro s t e r s' t' u p _ done quiet
    exact quiet.mono (served done).bumps.ge

/-! ## A run that is not quiet -/

/-- A stage whose paths do not matter. -/
def someOps : StageOps :=
  ⟨true, ascii "normalize", ascii "normalize-snapshot", ascii "ffmpeg", [], true,
    ⟨none, none, none, none, none, none, none, none⟩, [], 10000⟩

/-- The container of the stage is there, but it has no task. -/
def noTask (superseded : Bool) : (e : Call) → Reply e
  | .superseded => superseded
  | .remainingMs => (30000 : ℤ)
  | .client (.loadContainer id) => .ok ⟨id, none, none, none, some (ascii "normalize-snapshot")⟩
  | .client (.loadTask _) => .error ⟨ctrdErrNotFound, ctrdErrNotFound_ne⟩
  | .client (.deleteContainer ..) => .ok ()
  | .client (.newContainer ..) | .client (.newTask ..) => .error ⟨ctrdErrIo, ctrdErrIo_ne⟩
  | .client (.taskStart _) | .client (.taskKill ..) | .client (.taskDelete ..) =>
    .error ⟨ctrdErrIo, ctrdErrIo_ne⟩
  | .createWaiter .. => false
  | .joinWaiter .. => .error ⟨ctrdErrIo, ctrdErrIo_ne⟩
  | .cdiScan | .cdiResolve _ | .cdiMergeEdits _ => .error ⟨ctrdErrIo, ctrdErrIo_ne⟩
  | .returned | .enqueueClear => ()

/-- The container of the stage has a task, and the operation is superseded. -/
def someTask : (e : Call) → Reply e
  | .client (.loadTask container) => .ok ⟨container.id, none, 7⟩
  | e => noTask true e

/-- A stop is superseded by a start while it loads the task. It ends behind the load, and only the
start deletes the container. -/
theorem superseded_stop_is_quiet :
    ∃ pool, (((opThreads someOps).limit answersTell).machine ⟨0, []⟩).Reachable pool ∧
      pool.threads.head? = some (⟨some 1, true⟩, .ret ()) ∧
      pool.shared.log.map Entry.mutates = [false, false, false, false, true] ∧
      ∀ entry ∈ pool.shared.log, entry.quiet = true := by
  have run : ∃ pool, (((opThreads someOps).limit answersTell).machine ⟨0, []⟩).exec ⟨⟨0, []⟩, []⟩
      (.act (.fireStop 30000) :: List.replicate 4 (.call 0 (noTask false)) ++
        .act (.fireStart 30000) :: List.replicate 3 (.call 0 someTask) ++
        List.replicate 8 (.call 1 (noTask false))) = some pool ∧
      pool.threads.head? = some (⟨some 1, true⟩, .ret ()) ∧
      pool.shared.log.map Entry.mutates = [false, false, false, false, true] := ⟨_, rfl, rfl, rfl⟩
  obtain ⟨pool, run, ended, log⟩ := run
  have reachable : (((opThreads someOps).limit answersTell).machine ⟨0, []⟩).Reachable pool :=
    ⟨_, rfl, _, run⟩
  exact ⟨pool, reachable, ended, log, superseded_ops_are_quiet someOps pool reachable⟩

/-- A stop has loaded the container when a start supersedes it. The load of the task finds none, and
the stop deletes the container, which may be that of the start by then. -/
theorem superseded_stop_deletes :
    ∃ pool, ((opThreads someOps).machine ⟨0, []⟩).Reachable pool ∧
      ∃ container, .called (.deleteContainer container true) true ∈ pool.shared.log := by
  have run : ∃ pool, ((opThreads someOps).machine ⟨0, []⟩).exec ⟨⟨0, []⟩, []⟩
      (.act (.fireStop 30000) :: List.replicate 4 (.call 0 (noTask false)) ++
        .act (.fireStart 30000) :: List.replicate 2 (.call 0 (noTask true))) = some pool ∧
      pool.shared.log.getLast? = some (.called (.deleteContainer
        ⟨ascii "normalize", none, none, none, some (ascii "normalize-snapshot")⟩ true) true) :=
    ⟨_, rfl, rfl⟩
  obtain ⟨pool, run, last⟩ := run
  exact ⟨pool, ⟨_, rfl, _, run⟩, _, List.mem_of_getLast? last⟩

end Strimserver.Stage
