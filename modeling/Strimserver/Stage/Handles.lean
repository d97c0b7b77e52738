import Strimserver.Containerd.Handles
import Strimserver.Stage.Snapshots

/-!
# The handles that operations leave

Any number of operations of the four stages on one client, interleaved call by call, with every
RPC answered in any way and every look at the generation as well. The client is locked while it
serves a call.

The client owns its handles until it is closed, and only a delete that succeeds releases one before.
The handles that a start creates are not the ones that a later stop loads and deletes, so they stay
(`handles_accumulate`). `handles_bounded` says that besides these only an operation that was
disturbed leaves handles, and how many.
-/

namespace Strimserver.Stage

open Library Oci Containerd Controller List

/-! ## Operations on one client -/

def ClientCall.registered (env : Env) :
    (call : ClientCall) → Client → Handles → HandleProg (Except ℤ call.Result)
  | loadContainer id => Registry.loadContainer id
  | newContainer id snapshotId imageName spec =>
    Registry.newContainer env id snapshotId imageName spec
  | newTask container logfile => Registry.newTask container (some logfile)
  | loadTask container => Registry.loadTask container
  | taskStart task => fun c => keeping (Containerd.taskStart task c)
  | taskKill task signum => fun c => keeping (Containerd.taskKill task signum c)
  | taskDelete task force => Registry.taskDelete task force
  | deleteContainer container cleanupSnapshot => Registry.deleteContainer container cleanupSnapshot

theorem forgets_registered (env : Env) (call : ClientCall) (c : Client) (h : Handles) :
    Forgets (call.registered env c h) (call.program env c) := by
  cases call with
  | newContainer id snapshotId imageName spec =>
    rw [ClientCall.program, newContainer, ClientCall.registered, Registry.newContainer,
      Registry.getImage, registering, Prog.bind_assoc]
    refine forgets_bind fun out => ?_
    rcases out with ⟨rc | image, c⟩
    · exact forgets_ret _ h
    · exact forgets_end _ _
  | taskDelete task force =>
    cases force with
    | false => exact forgets_deleteTaskRecord task c h
    | true =>
      refine forgets_bind fun out => ?_
      rcases out with ⟨rc | ⟨⟩, c⟩
      · dsimp only
        split_ifs
        · exact forgets_waitAndDelete task c h
        · exact forgets_ret _ h
      · exact forgets_waitAndDelete task c h
  | _ => exact forgets_end _ _

/-- A call of an operation with its reply, and the RPCs of the client for it. -/
structure Answered where
  event : Prog.Event Reply
  rpcs : Record

/-- The operations of a stage. -/
inductive OpKind where
  | start
  | stop

def OpKind.program (ops : StageOps) (timeoutMs : ℤ) : OpKind → StageProg ℤ
  | start => stageStartOp ops timeoutMs
  | stop => stageStopOp ops timeoutMs

/-- An operation: what it has still to do, and what it has done. -/
structure OpRun where
  kind : OpKind
  program : StageProg ℤ
  record : List Answered

/-- The client, its handles, and the operations that have been fired. -/
structure Site where
  client : Client
  handles : Handles
  ops : List OpRun

/-- How a call of an operation is served. -/
def Serves (c : Client) (h : Handles) : (e : Call) → Reply e → Record → Client → Handles → Prop
  | .client call, reply, rpcs, c', h' =>
    ∃ env, Prog.Runs Prog.Recorded [] (call.registered env c h) ((seenResult reply, c'), h') rpcs
  | _, _, rpcs, c', h' => rpcs = [] ∧ c' = c ∧ h' = h

/-- A step: an operation is fired, or makes its next call. -/
inductive Site.Step (stages : StageName → StageOps) : Site → Site → Prop
  | fire (s : Site) (stage : StageName) (kind : OpKind) (timeoutMs : ℤ) :
      Step stages s { s with ops := s.ops ++ [⟨kind, kind.program (stages stage) timeoutMs, []⟩] }
  | call {c c' : Client} {h h' : Handles} {first last : List OpRun} {kind : OpKind} {e : Call}
      {next : Reply e → StageProg ℤ} {record : List Answered} {r : Reply e} {rpcs : Record}
      (served : Serves c h e r rpcs c' h') :
      Step stages ⟨c, h, first ++ ⟨kind, .call e next, record⟩ :: last⟩
        ⟨c', h', first ++ ⟨kind, next r, record ++ [⟨⟨e, r⟩, rpcs⟩]⟩ :: last⟩

/-- What can be reached from a client that was just connected. -/
def Site.Reachable (stages : StageName → StageOps) (ns : Octets) : Site → Prop :=
  Relation.ReflTransGen (Site.Step stages) ⟨Client.connect ns, 0, []⟩

def OpRun.returned (op : OpRun) : Bool :=
  match op.program with
  | .ret _ => true
  | .call .. => false

/-- Every operation has returned. -/
def Site.AtRest (s : Site) : Prop := ∀ op ∈ s.ops, op.returned = true

/-! ## What an operation leaves -/

/-- What a call of the client does to the handles. -/
def ClientCall.after : (call : ClientCall) → Except Failure call.Result → Record → Handles → Handles
  | loadContainer _, .ok container, _, h | newContainer .., .ok container, _, h =>
    .container container ::ₘ h
  | newTask .., .ok task, _, h | loadTask _, .ok task, _, h => .task task ::ₘ h
  | taskDelete task _, .ok (), rpcs, h => if rpcs.any missesTask then h else h.erase (.task task)
  | deleteContainer container _, .ok (), _, h => h.erase (.container container)
  | _, _, _, h => h

/-- What a call does to the handles. -/
def Answered.after : Answered → Handles → Handles
  | ⟨⟨.client call, reply⟩, rpcs⟩, h => call.after reply rpcs h
  | _, h => h

/-- The handles that are left of those that an operation has registered. -/
def held (record : List Answered) : Handles := record.foldl (fun h answered => answered.after h) 0

/-- A safe point that aborts, a call that fails, and a wait that ends neither with the task nor by
its timeout. A load may find nothing. -/
def Call.refused : (e : Call) → Reply e → Bool
  | .superseded, told => told
  | .client (.loadContainer _), .error rc | .client (.loadTask _), .error rc =>
    rc.val ≠ ctrdErrNotFound
  | .client _, .error _ => true
  | .createWaiter .., created => !created
  | .joinWaiter .., .error rc => rc.val ≠ ctrdErrTimeout
  | _, _ => false

/-- The call is refused, or a `Tasks/Delete` of it finds no task. -/
def Answered.disturbs (answered : Answered) : Bool :=
  answered.event.call.refused answered.event.reply || answered.rpcs.any missesTask

def disturbed (record : List Answered) : Bool := record.any Answered.disturbs

def OpKind.creates : OpKind → ℕ
  | start => 2
  | stop => 0

/-- The handles that an operation may leave: those that it creates, and unless it has returned
undisturbed those that it loads. -/
def OpRun.allowance (op : OpRun) : ℕ :=
  op.kind.creates + if op.returned && !disturbed op.record then 0 else 2

theorem held_append (record : List Answered) (answered : Answered) :
    held (record ++ [answered]) = answered.after (held record) := foldl_concat ..

variable {stages : StageName → StageOps} {rpcs : Record} {e : Call}

/-- **What the client does to its handles** is what the record says. -/
theorem Serves.handles {c c' : Client} {h h' : Handles} {r : Reply e}
    (served : Serves c h e r rpcs c' h') : h' = (Answered.mk ⟨e, r⟩ rpcs).after h := by
  cases e with
  | client call =>
    obtain ⟨env, run⟩ := served
    cases call with
    | loadContainer | newTask | loadTask | deleteContainer =>
      have same := handles_of_end run
      cases r <;> exact same
    | newContainer =>
      have same := handles_newContainer run
      cases r <;> exact same
    | taskStart | taskKill => exact handles_of_end run
    | taskDelete =>
      have quiet : Unmissed [] := rfl
      have same := handles_taskDelete quiet run
      cases r with
      | error => exact same.trans (ite_self h)
      | ok => exact same
  | _ => exact served.2.2

/-! ## Bounds along an operation -/

/-- The record of an operation, whatever it is answered. -/
def Noted (record : List Answered) (e : Call) (r : Reply e) (record' : List Answered) : Prop :=
  ∃ rpcs, record' = record ++ [⟨⟨e, r⟩, rpcs⟩]

/-- An operation has at most so many handles, and just these if it was not disturbed. -/
structure Holds (n : ℕ) (h : Handles) (record : List Answered) : Prop where
  card : (held record).card ≤ n
  exact : disturbed record = false → held record = h

/-- An operation leaves at most so many handles, and at most so many if it was not disturbed. -/
structure Leaves (n b : ℕ) (record : List Answered) : Prop where
  card : (held record).card ≤ n
  undisturbed : disturbed record = false → (held record).card ≤ b

section

variable {n m k b : ℕ} {h h' : Handles} {record : List Answered} {rc : ℤ}

theorem Holds.leaves (holds : Holds n h record) (few : n ≤ k) (small : h.card ≤ b) :
    Leaves k b record :=
  ⟨holds.card.trans few, fun calm => by rw [holds.exact calm]; exact small⟩

theorem Leaves.holds (leaves : Leaves n 0 record) : Holds n 0 record :=
  ⟨leaves.card, fun calm => Multiset.card_eq_zero.mp (Nat.le_zero.mp (leaves.undisturbed calm))⟩

/-- What is known after a call. Of an operation that is disturbed nothing but the number is kept. -/
theorem Holds.noted {answered : Answered} (holds : Holds n h record)
    (few : ∀ own : Handles, own.card ≤ n → (answered.after own).card ≤ m)
    (same : answered.disturbs = false → answered.after h = h') :
    Holds m h' (record ++ [answered]) := by
  refine ⟨?_, fun calm => ?_⟩
  · rw [held_append]
    exact few _ holds.card
  rw [disturbed, any_append, Bool.or_eq_false_iff, any_cons, any_nil, Bool.or_false] at calm
  rw [held_append, holds.exact calm.1]
  exact same calm.2

variable {post : ℤ → List Answered → Prop} {next : Reply e → StageProg ℤ} {call : ClientCall}

/-- The rule for a call. -/
theorem triple_noted (rest : ∀ r, ∃ m h',
      (∀ rpcs (own : Handles), own.card ≤ n → ((Answered.mk ⟨e, r⟩ rpcs).after own).card ≤ m) ∧
      (∀ rpcs, e.refused r = false → Unmissed rpcs → (Answered.mk ⟨e, r⟩ rpcs).after h = h') ∧
      Prog.Triple Noted (Holds m h') (next r) post) :
    Prog.Triple Noted (Holds n h) (.call e next) post := by
  refine ⟨fun record holds r record' noted => ?_⟩
  obtain ⟨rpcs, rfl⟩ := noted
  obtain ⟨m, h', few, same, triple⟩ := rest r
  refine triple.ensures _ (holds.noted (few rpcs) fun calm => ?_)
  obtain ⟨accepted, quiet⟩ := Bool.or_eq_false_iff.mp calm
  exact same rpcs accepted quiet

/-- The rule for a call that leaves the handles as they are. -/
theorem triple_idle (idle : ∀ r rpcs (own : Handles), (Answered.mk ⟨e, r⟩ rpcs).after own = own)
    (rest : ∀ r, ∃ h', (e.refused r = false → h = h') ∧
      Prog.Triple Noted (Holds n h') (next r) post) :
    Prog.Triple Noted (Holds n h) (.call e next) post := by
  refine triple_noted fun r => ?_
  obtain ⟨h', same, triple⟩ := rest r
  refine ⟨n, h', fun rpcs own few => ?_, fun rpcs accepted _ => ?_, triple⟩
  · rw [idle]
    exact few
  · rw [idle]
    exact same accepted

/-- The rule for a call that registers what it returns. -/
theorem triple_opens {next : Except Failure call.Result → StageProg ℤ}
    (handle : call.Result → Handle)
    (opens : ∀ a rpcs own, call.after (.ok a) rpcs own = handle a ::ₘ own)
    (fails : ∀ rc rpcs own, call.after (.error rc) rpcs own = own)
    (failed : ∀ rc, ∃ h', ((Call.client call).refused (.error rc) = false → h = h') ∧
      Prog.Triple Noted (Holds n h') (next (.error rc)) post)
    (opened : ∀ a, Prog.Triple Noted (Holds (n + 1) (handle a ::ₘ h)) (next (.ok a)) post) :
    Prog.Triple Noted (Holds n h) (.call (.client call) next) post := by
  refine triple_noted fun r => ?_
  cases r with
  | error rc =>
    obtain ⟨h', same, triple⟩ := failed rc
    refine ⟨n, h', fun rpcs own few => ?_, fun rpcs accepted _ => ?_, triple⟩
    · exact (congrArg Multiset.card (fails rc rpcs own)).trans_le few
    · exact (fails rc rpcs h).trans (same accepted)
  | ok a =>
    refine ⟨n + 1, handle a ::ₘ h, fun rpcs own few => ?_, fun rpcs _ _ => opens a rpcs h, opened a⟩
    calc (call.after (.ok a) rpcs own).card
      _ = own.card + 1 := by rw [opens, Multiset.card_cons]
      _ ≤ n + 1 := Nat.succ_le_succ few

/-- The rule for a delete, of the handle that was registered last. -/
theorem triple_releases {next : Except Failure call.Result → StageProg ℤ} {handle : Handle}
    (fails : ∀ rc rpcs own, call.after (.error rc) rpcs own = own)
    (refuses : ∀ rc, (Call.client call).refused (.error rc) = true)
    (releases : ∀ a rpcs own, Unmissed rpcs → call.after (.ok a) rpcs own = own.erase handle)
    (lowers : ∀ a rpcs own, call.after (.ok a) rpcs own ≤ own)
    (failed : ∀ rc, Prog.Triple Noted (Holds n 0) (next (.error rc)) post)
    (released : ∀ a, Prog.Triple Noted (Holds n h) (next (.ok a)) post) :
    Prog.Triple Noted (Holds n (handle ::ₘ h)) (.call (.client call) next) post := by
  refine triple_noted fun r => ?_
  cases r with
  | error rc =>
    refine ⟨n, 0, fun rpcs own few => ?_, fun rpcs accepted _ => ?_, failed rc⟩
    · exact (congrArg Multiset.card (fails rc rpcs own)).trans_le few
    · rw [refuses rc] at accepted
      cases accepted
  | ok a =>
    refine ⟨n, h, fun rpcs own few => ?_, fun rpcs _ quiet => ?_, released a⟩
    · exact (Multiset.card_le_card (lowers a rpcs own)).trans few
    · exact (releases a rpcs _ quiet).trans (Multiset.erase_cons_head handle h)

end

/-- A program that leaves at most so many handles, from the handles that the operation has. -/
def Within (k b n : ℕ) (h : Handles) (p : StageProg ℤ) : Prop :=
  Prog.Triple Noted (Holds n h) p fun _ => Leaves k b

section

variable {k b n : ℕ} {h : Handles}

theorem within_ret {rc : ℤ} (few : n ≤ k) (small : h.card ≤ b) : Within k b n h (.ret rc) :=
  Prog.triple_ret fun _ holds => holds.leaves few small

theorem within_aborted {rc : ℤ} (few : n ≤ k) : Within k b n 0 (.ret rc) :=
  within_ret few (Nat.zero_le b)

theorem within_unlessSuperseded {p : StageProg ℤ} (few : n ≤ k) (rest : Within k b n h p) :
    Within k b n h (unlessSuperseded p) := by
  refine triple_idle (fun _ _ _ => rfl) fun told => ?_
  cases told with
  | true => exact ⟨0, nofun, within_aborted few⟩
  | false => exact ⟨h, fun _ => rfl, rest⟩

theorem passes_within (few : n ≤ k) : Passes Call.isLocal (Within k b n 0) := by
  refine ⟨fun _ => within_aborted few, within_unlessSuperseded few, fun {e} _ isLocal rest => ?_⟩
  refine triple_idle (fun r rpcs own => ?_) fun r => ⟨0, fun _ => rfl, rest r⟩
  cases e with
  | client => cases isLocal
  | _ => rfl

end

/-! ## Stopping -/

section

variable (container : Container) (task : Task)

theorem within_deleteContainer :
    Within 2 0 2 {.container container} (deleteContainer container) := by
  refine triple_releases (fun _ _ _ => rfl) (fun _ => rfl) (fun _ _ _ _ => rfl)
    (fun _ _ own => Multiset.erase_le _ own) (fun rc => within_aborted le_rfl) fun _ => ?_
  exact within_ret le_rfl le_rfl

theorem within_deleteTask (force : Bool) :
    Within 2 0 2 (.task task ::ₘ {.container container}) (deleteTask container task force) := by
  refine triple_releases (fun _ _ _ => rfl) (fun _ => rfl) (fun _ rpcs _ quiet => ?_)
    (fun _ rpcs own => ?_)
    (fun rc => within_aborted le_rfl) fun _ => ?_
  · exact if_neg (Bool.not_eq_true _ ▸ quiet)
  · show (if rpcs.any missesTask then own else own.erase (.task task)) ≤ own
    split_ifs
    · exact le_rfl
    · exact Multiset.erase_le _ own
  · exact within_unlessSuperseded le_rfl (within_deleteContainer container)

/-- The join of the waiter and what comes behind it. A wait that finds no task is a disturbance,
since the handle of the task is left. -/
theorem within_joinWaiter (waitMs : ℤ) : Within 2 0 2 (.task task ::ₘ {.container container})
      (.call (.joinWaiter task waitMs) fun waited =>
        unlessSuperseded (afterWait container task waited)) := by
  refine triple_idle (fun _ _ _ => rfl) fun waited => ?_
  cases waited with
  | ok =>
    exact ⟨_, fun _ => rfl, within_unlessSuperseded le_rfl (within_deleteTask container task false)⟩
  | error rc =>
    rw [afterWait]
    by_cases timeout : rc.val = ctrdErrTimeout
    · rw [if_pos timeout]
      exact ⟨_, fun _ => rfl,
        within_unlessSuperseded le_rfl (within_deleteTask container task true)⟩
    have refused : Call.refused (.joinWaiter task waitMs) (.error rc) = true :=
      decide_eq_true timeout
    have absurd : ∀ h, Call.refused (.joinWaiter task waitMs) (.error rc) = false →
        (.task task ::ₘ {.container container} : Handles) = h := fun h accepted =>
      Bool.noConfusion (refused.symm.trans accepted)
    rw [if_neg timeout]
    split_ifs
    · refine ⟨{.container container}, absurd _, within_unlessSuperseded le_rfl ?_⟩
      exact within_unlessSuperseded le_rfl (within_deleteContainer container)
    · exact ⟨0, absurd _, within_unlessSuperseded le_rfl (within_aborted le_rfl)⟩

/-- A join behind which the operation returns. -/
theorem within_joined (waitMs rc : ℤ) :
    Within 2 0 2 0 (.call (.joinWaiter task waitMs) fun _ => .ret rc) :=
  triple_idle (fun _ _ _ => rfl) fun _ => ⟨0, fun _ => rfl, within_aborted le_rfl⟩

theorem within_stopTask (ops : StageOps) (budgetMs : ℤ) :
    Within 2 0 2 (.task task ::ₘ {.container container})
      (stopTask ops budgetMs container task) := by
  refine triple_idle (fun _ _ _ => rfl) fun created => ?_
  cases created with
  | false => exact ⟨0, nofun, within_aborted le_rfl⟩
  | true =>
    refine ⟨_, fun _ => rfl, triple_idle (fun _ _ _ => rfl) fun told => ?_⟩
    cases told with
    | true => exact ⟨0, nofun, within_joined task _ 0⟩
    | false =>
      refine ⟨_, fun _ => rfl, triple_idle (fun reply _ _ => by cases reply <;> rfl)
        fun reply => ?_⟩
      cases reply with
      | error rc => exact ⟨0, nofun, within_joined task _ rc⟩
      | ok _ => exact ⟨_, fun _ => rfl, within_joinWaiter container task _⟩

end

variable (ops : StageOps)

theorem within_stopContainer (budgetMs : ℤ) (container : Container) :
    Within 2 0 1 {.container container} (stopContainer ops budgetMs container) := by
  refine triple_opens Handle.task (fun _ _ _ => rfl) (fun _ _ _ => rfl) (fun rc => ?_)
    fun task => ?_
  · dsimp only
    by_cases missing : rc.val = ctrdErrNotFound
    · rw [if_pos missing]
      refine ⟨_, fun _ => rfl, (within_deleteContainer container).pre_mono fun record holds => ?_⟩
      exact ⟨holds.card.trans one_le_two, holds.exact⟩
    have refused : Call.refused (.client (.loadTask container)) (.error rc) = true :=
      decide_eq_true missing
    rw [if_neg missing]
    exact ⟨0, fun accepted => Bool.noConfusion (refused.symm.trans accepted),
      within_aborted one_le_two⟩
  · exact within_unlessSuperseded le_rfl (within_stopTask container task ops budgetMs)

variable (timeoutMs : ℤ)

/-- **A stop** leaves nothing when it is not disturbed. -/
theorem within_stageStopOp : Within 2 0 0 0 (stageStopOp ops timeoutMs) := by
  rw [stageStopOp_budgeted]
  refine (passes_within zero_le_two).budgeted rfl fun budgetMs => ?_
  refine triple_opens Handle.container (fun _ _ _ => rfl) (fun _ _ _ => rfl) (fun rc => ?_)
    fun container => ?_
  · refine ⟨0, fun _ => rfl, ?_⟩
    dsimp only
    split_ifs
    · exact within_aborted zero_le_two
    · exact within_aborted zero_le_two
  · exact within_unlessSuperseded one_le_two (within_stopContainer ops _ container)

/-! ## Starting -/

variable (spec : Spec)

theorem within_createContainer : Within 4 2 2 0 (createContainer ops spec) := by
  refine triple_opens Handle.container (fun _ _ _ => rfl) (fun _ _ _ => rfl) (fun rc => ?_)
    fun container => ?_
  · exact ⟨0, fun _ => rfl, within_aborted (by decide)⟩
  refine within_unlessSuperseded (by decide) ?_
  refine triple_opens Handle.task (fun _ _ _ => rfl) (fun _ _ _ => rfl) (fun rc => ?_)
    fun task => ?_
  · exact ⟨_, fun _ => rfl, within_ret (by decide) one_le_two⟩
  refine within_unlessSuperseded le_rfl
    (triple_idle (fun reply _ _ => by cases reply <;> rfl) fun reply => ?_)
  refine ⟨_, fun _ => rfl, ?_⟩
  cases reply <;> exact within_ret le_rfl le_rfl

theorem within_buildAndCreate : Within 4 2 2 0 (buildAndCreate ops) :=
  (passes_within (by decide)).buildAndCreate rfl (fun _ => rfl) (fun _ => rfl)
    (within_createContainer ops)

/-! ## Every run -/

/-- What an operation leaves at its end. -/
def OpKind.Leaves (kind : OpKind) : List Answered → Prop :=
  Stage.Leaves (kind.creates + 2) kind.creates

theorem ensures_program (kind : OpKind) :
    Prog.Ensures Noted (kind.program ops timeoutMs) [] fun _ => kind.Leaves := by
  have fresh : Holds 0 0 [] := ⟨le_rfl, fun _ => rfl⟩
  cases kind with
  | start =>
    have whole : Within 4 2 0 0 (stageStartOp ops timeoutMs) := by
      rw [stageStartOp_budgeted]
      refine (passes_within (by decide)).budgeted rfl fun budgetMs => ?_
      refine (within_stageStopOp ops budgetMs).bind fun rc => ?_
      have rest : Within 4 2 2 0 (startStopped ops rc) := by
        unfold startStopped
        split_ifs
        · exact within_aborted (by decide)
        · exact within_unlessSuperseded (by decide) (within_buildAndCreate ops)
      exact rest.pre_mono fun record leaves => leaves.holds
    exact whole.ensures [] fresh
  | stop => exact (within_stageStopOp ops timeoutMs).ensures [] fresh

/-- A reply that gets an operation nothing. -/
def Call.failed : (e : Call) → Reply e
  | .superseded => true
  | .remainingMs => (0 : ℤ)
  | .client _ => .error ⟨ctrdErrIo, ctrdErrIo_ne⟩
  | .createWaiter .. => false
  | .joinWaiter .. => .error ⟨ctrdErrIo, ctrdErrIo_ne⟩
  | .cdiScan | .cdiResolve _ | .cdiMergeEdits _ => .error ⟨ctrdErrIo, ctrdErrIo_ne⟩
  | .returned | .enqueueClear => ()

theorem after_failed (e : Call) (h : Handles) : (Answered.mk ⟨e, e.failed⟩ []).after h = h := by
  cases e with
  | client call => cases call <;> rfl
  | _ => rfl

/-- Whatever an operation has still to do, it can come to its end with the handles that it has. -/
theorem exists_cutOff (p : StageProg ℤ) (record : List Answered) :
    ∃ rc record', Prog.Runs Noted record p rc record' ∧ held record' = held record := by
  induction p generalizing record with
  | ret rc => exact ⟨rc, record, .ret rc, rfl⟩
  | call e next ih =>
    obtain ⟨rc, record', run, same⟩ := ih e.failed (record ++ [⟨⟨e, e.failed⟩, []⟩])
    refine ⟨rc, record', .call ⟨[], rfl⟩ run, ?_⟩
    rw [same, held_append, after_failed]

/-- A call registers a handle that is no image, or removes one, or leaves the handles as they are.
-/
theorem Answered.after_cases (answered : Answered) :
    (∃ handle, (∀ image, handle ≠ .image image) ∧ ∀ h, answered.after h = handle ::ₘ h) ∨
      (∃ handle, ∀ h, answered.after h = h.erase handle) ∨ ∀ h, answered.after h = h := by
  obtain ⟨⟨e, r⟩, rpcs⟩ := answered
  cases e with
  | client call =>
    rcases r with rc | a
    · exact .inr (.inr fun h => by cases call <;> rfl)
    cases call with
    | loadContainer _ | newContainer =>
      exact .inl ⟨.container a, fun _ same => Handle.noConfusion same, fun _ => rfl⟩
    | newTask _ _ | loadTask _ =>
      exact .inl ⟨.task a, fun _ same => Handle.noConfusion same, fun _ => rfl⟩
    | taskStart | taskKill => exact .inr (.inr fun _ => rfl)
    | taskDelete task =>
      cases missed : rpcs.any missesTask with
      | true => exact .inr (.inr fun h => if_pos missed)
      | false => exact .inr (.inl ⟨.task task, fun h => if_neg (Bool.not_eq_true _ ▸ missed)⟩)
    | deleteContainer container => exact .inr (.inl ⟨.container container, fun _ => rfl⟩)
  | _ => exact .inr (.inr fun _ => rfl)

/-- The handles of all operations together. -/
def heldByAll (ops : List OpRun) : Handles := (ops.map fun op => held op.record).sum

theorem heldByAll_append (first last : List OpRun) :
    heldByAll (first ++ last) = heldByAll first + heldByAll last := by
  rw [heldByAll, map_append, sum_append]
  rfl

theorem heldByAll_cons (op : OpRun) (ops : List OpRun) :
    heldByAll (op :: ops) = held op.record + heldByAll ops := sum_cons

theorem card_heldByAll_le {ops : List OpRun}
    (each : ∀ op ∈ ops, (held op.record).card ≤ op.allowance) :
    (heldByAll ops).card ≤ (ops.map OpRun.allowance).sum := by
  induction ops with
  | nil => exact le_rfl
  | cons op ops ih =>
    obtain ⟨first, rest⟩ := forall_mem_cons.mp each
    rw [heldByAll_cons, Multiset.card_add, map_cons, sum_cons]
    exact Nat.add_le_add first (ih rest)

/-- The invariant: the handles of the client are held by the operations, none is an image, and each
operation will leave what it may. -/
structure Accounted (s : Site) : Prop where
  within : s.handles ≤ heldByAll s.ops
  imageless : ∀ image, .image image ∉ s.handles
  ensures : ∀ op ∈ s.ops, Prog.Ensures Noted op.program op.record fun _ => op.kind.Leaves

theorem Accounted.step {s s' : Site} (accounted : Accounted s) (step : Site.Step stages s s') :
    Accounted s' := by
  cases step with
  | fire _ stage kind timeoutMs =>
    refine ⟨?_, accounted.imageless, forall_mem_append.mpr ⟨accounted.ensures, ?_⟩⟩
    · show s.handles ≤ heldByAll (s.ops ++ [_])
      rw [heldByAll_append]
      exact accounted.within.trans (Multiset.le_add_right _ _)
    · exact forall_mem_singleton.mpr (ensures_program (stages stage) timeoutMs kind)
  | @call c c' h h' first last kind e next record r rpcs served =>
    obtain ⟨before, moved, after⟩ : (∀ op ∈ first, _) ∧ _ ∧ ∀ op ∈ last, _ := by
      have all := accounted.ensures
      rwa [forall_mem_append, forall_mem_cons] at all
    cases served.handles
    refine ⟨?_, fun image => ?_, ?_⟩
    · have others : ∀ own, heldByAll first + (own + heldByAll last) =
          heldByAll first + heldByAll last + own := fun own => by rw [add_comm own, add_assoc]
      have within := accounted.within
      rw [heldByAll_append, heldByAll_cons, others] at within ⊢
      rw [held_append]
      -- An operation can only take away from the others.
      rcases Answered.after_cases _ with ⟨handle, -, opens⟩ | ⟨handle, erases⟩ | same
      · rw [opens, opens, Multiset.add_cons]
        exact Multiset.cons_le_cons handle within
      · rw [erases, erases]
        have erased := Multiset.erase_le_erase handle within
        by_cases mem : handle ∈ held record
        · rwa [Multiset.erase_add_right_pos _ mem] at erased
        · rw [Multiset.erase_of_notMem mem]
          exact erased.trans (Multiset.erase_le _ _)
      · rwa [same, same]
    · have free := accounted.imageless image
      rcases Answered.after_cases _ with ⟨handle, other, opens⟩ | ⟨handle, erases⟩ | same
      · rw [opens, Multiset.mem_cons]
        exact fun mem => mem.elim (fun equal => other image equal.symm) free
      · rw [erases]
        exact fun mem => free (Multiset.mem_of_mem_erase mem)
      · rwa [same]
    · refine forall_mem_append.mpr ⟨before, forall_mem_cons.mpr ⟨?_, after⟩⟩
      exact moved r _ ⟨rpcs, rfl⟩

/-- **The handles of the client.** In every run of starts and stops of the four stages, whatever the
RPCs come to and wherever the operations are aborted, no image is registered between calls, and the
handles are at most two for each start, and two for each operation that was disturbed or has not
returned. -/
theorem handles_bounded (stages : StageName → StageOps) (ns : Octets) (s : Site)
    (reachable : s.Reachable stages ns) :
    (∀ image, .image image ∉ s.handles) ∧ s.handles.card ≤ (s.ops.map OpRun.allowance).sum := by
  have accounted : Accounted s := by
    induction reachable with
    | refl => exact ⟨le_rfl, fun image => Multiset.notMem_zero _, nofun⟩
    | tail _ step ih => exact ih.step step
  refine ⟨accounted.imageless, (Multiset.card_le_card accounted.within).trans ?_⟩
  refine card_heldByAll_le fun op mem => ?_
  -- What an operation holds is within its allowance.
  have ensures := accounted.ensures op mem
  obtain ⟨rc, record, run, same⟩ := exists_cutOff op.program op.record
  have most := (Prog.ensures_iff.mp ensures rc record run).card
  rw [same] at most
  unfold OpRun.allowance
  split_ifs with settled
  · obtain ⟨returned, calm⟩ := Bool.and_eq_true_iff.mp settled
    obtain ⟨kind, program, record⟩ := op
    cases program with
    | ret =>
      rw [Bool.not_eq_eq_eq_not, Bool.not_true] at calm
      exact Leaves.undisturbed ensures calm
    | call => cases returned
  · exact most

/-! ## Starts and stops that succeed -/

/-- An operation alone with the client: its calls are served one after another. -/
def Attends (w : Client × Handles × List Answered) (e : Call) (r : Reply e)
    (w' : Client × Handles × List Answered) : Prop :=
  ∃ rpcs, Serves w.1 w.2.1 e r rpcs w'.1 w'.2.1 ∧ w'.2.2 = w.2.2 ++ [⟨⟨e, r⟩, rpcs⟩]

/-- A program can return with this code, client and handles. -/
def Goes (c : Client) (h : Handles) (p : StageProg ℤ) (rc : ℤ) (c' : Client) (h' : Handles) :
    Prop :=
  ∀ record, ∃ record', Prog.Runs Attends (c, h, record) p rc (c', h', record')

section

variable {c c₁ c' : Client} {h h₁ h' : Handles} {rc : ℤ}

theorem goes_ret : Goes c h (.ret rc) rc c h := fun record => ⟨record, .ret rc⟩

theorem goes_call {next : Reply e → StageProg ℤ} (r : Reply e) (served : Serves c h e r rpcs c₁ h₁)
    (rest : Goes c₁ h₁ (next r) rc c' h') : Goes c h (.call e next) rc c' h' := by
  intro record
  obtain ⟨record', run⟩ := rest (record ++ [⟨⟨e, r⟩, rpcs⟩])
  have answer : Attends (c, h, record) e r (c₁, h₁, record ++ [⟨⟨e, r⟩, rpcs⟩]) :=
    ⟨rpcs, served, rfl⟩
  exact ⟨record', .call answer run⟩

variable {p : StageProg ℤ}

theorem goes_bind {f : ℤ → StageProg ℤ} {rc₁ : ℤ} (first : Goes c h p rc₁ c₁ h₁)
    (rest : Goes c₁ h₁ (f rc₁) rc c' h') : Goes c h (p.bind f) rc c' h' := by
  intro record
  obtain ⟨record₁, run⟩ := first record
  obtain ⟨record', run'⟩ := rest record₁
  exact ⟨record', Prog.runs_bind.mpr ⟨rc₁, _, run, run'⟩⟩

theorem goes_unlessSuperseded (rest : Goes c h p rc c' h') :
    Goes c h (unlessSuperseded p) rc c' h' :=
  have served : Serves c h .superseded false [] c h := ⟨rfl, rfl, rfl⟩
  goes_call false served rest

/-- A call of the client that goes as its program does. -/
theorem goes_client (call : ClientCall) {next : Except Failure call.Result → StageProg ℤ}
    (reply : Except Failure call.Result) (rpcs : Record)
    (run : Prog.Runs Prog.Recorded [] (call.program plainEnv c) (seenResult reply, c₁) rpcs)
    (handles : call.after reply rpcs h = h₁) (rest : Goes c₁ h₁ (next reply) rc c' h') :
    Goes c h (.call (.client call) next) rc c' h' := by
  obtain ⟨h₂, run⟩ := (forgets_registered plainEnv call c h).runs run
  have served : Serves c h (.client call) reply rpcs c₁ h₂ := ⟨plainEnv, run⟩
  cases served.handles.trans handles
  exact goes_call reply served rest

theorem runs_succeeds {α : Type} {rpc : Rpc} {next : Outcome rpc.Body → ClientProg α}
    {out : α × Client} {record record' : Record} (body : rpc.Body)
    (rest : Prog.Runs Prog.Recorded (record ++ [⟨.rpc .shared rpc, ⟨.ok body, false⟩⟩])
      (next ⟨.ok body, false⟩) out record') :
    Prog.Runs Prog.Recorded record (.call (.rpc .shared rpc) next) out record' :=
  .call (r := ⟨.ok body, false⟩) rfl rest

/-- A call of the client that succeeds. -/
theorem goes_succeeds {status : ℤ} (call : ClientCall)
    {next : Except Failure call.Result → StageProg ℤ} (result : call.Result) {rpcs : Record}
    (run : Prog.Runs Prog.Recorded [] (call.program plainEnv (connectedClient status))
      (seenResult (.ok result), connectedClient 0) rpcs)
    (handles : call.after (.ok result) rpcs h = h₁)
    (rest : Goes (connectedClient 0) h₁ (next (.ok result)) rc c' h') :
    Goes (connectedClient status) h (.call (.client call) next) rc c' h' :=
  goes_client call (.ok result) rpcs run handles rest

/-- A run of an operation, while nothing else happens. -/
theorem steps_of_runs {ops : List OpRun} {kind : OpKind} {w w' : Client × Handles × List Answered}
    (run : Prog.Runs Attends w p rc w') :
    Relation.ReflTransGen (Site.Step stages) ⟨w.1, w.2.1, ops ++ [⟨kind, p, w.2.2⟩]⟩
      ⟨w'.1, w'.2.1, ops ++ [⟨kind, .ret rc, w'.2.2⟩]⟩ := by
  induction run with
  | ret => exact .refl
  | call answer _ ih =>
    obtain ⟨rpcs, served, record⟩ := answer
    rw [record] at ih
    exact .head (.call served) ih

theorem Goes.steps (stages : StageName → StageOps) (stage : StageName) (kind : OpKind)
    (timeoutMs : ℤ) (goes : Goes c h (kind.program (stages stage) timeoutMs) rc c' h')
    (ops : List OpRun) :
    ∃ record, Relation.ReflTransGen (Site.Step stages) ⟨c, h, ops⟩
      ⟨c', h', ops ++ [⟨kind, .ret rc, record⟩]⟩ := by
  obtain ⟨record, run⟩ := goes []
  exact ⟨record, .head (.fire ⟨c, h, ops⟩ stage kind timeoutMs) (steps_of_runs run)⟩

end

/-- The stages, with ids of their own. -/
def fourStages : StageName → StageOps
  | .mediaMtx => mediaOps
  | stage =>
    { mediaOps with
      containerId := stageNameToString stage
      snapshotId := stageNameToString stage ++ ascii "-snapshot"
      ffmpeg := true }

def mediaTask : Task := ⟨ascii "mediamtx", none, 7⟩

/-- The look at the deadline, with time left. -/
theorem serves_remainingMs (c : Client) (h : Handles) :
    Serves c h .remainingMs (30000 : ℤ) [] c h :=
  ⟨rfl, rfl, rfl⟩

/-- A stop that finds nothing. -/
theorem goes_nothing {c : Client} (h : Handles)
    (missing : Prog.Runs Prog.Recorded [] (Containerd.loadContainer (ascii "mediamtx") c)
      (.error ctrdErrNotFound, connectedClient statusNotFound) rpcs) :
    Goes c h (stageStopOp mediaOps 30000) 0 (connectedClient statusNotFound) h := by
  refine goes_unlessSuperseded (goes_call (30000 : ℤ) (serves_remainingMs _ _) ?_)
  exact goes_client (.loadContainer (ascii "mediamtx")) (.error ⟨ctrdErrNotFound, by decide⟩) rpcs
    missing rfl goes_ret

theorem loadContainer_dials :
    Prog.Runs Prog.Recorded []
      (Containerd.loadContainer (ascii "mediamtx") (Client.connect (ascii "default")))
      (.error ctrdErrNotFound, connectedClient statusNotFound)
      [⟨.dial .shared, .ok ()⟩, notThere] :=
  .call (r := Except.ok ()) rfl
    (.call (r := ⟨.error ⟨statusNotFound, by decide⟩, false⟩) rfl (.ret (Except.error _, _)))

/-- A start that succeeds leaves the handles of its container and its task. -/
theorem goes_start (status : ℤ) (h : Handles) :
    Goes (connectedClient status) h (stageStartOp mediaOps 30000) 0 (connectedClient 0)
      (.task mediaTask ::ₘ .container mediaContainer ::ₘ h) := by
  obtain ⟨rpcs, created⟩ : ∃ rpcs, Prog.Runs Prog.Recorded [] (Containerd.newContainer plainEnv
      (ascii "mediamtx") (ascii "mediamtx-snapshot") (ascii "image") mediaSpec
      (connectedClient statusNotFound)) (.ok mediaContainer, connectedClient 0) rpcs :=
    ⟨_, newContainer_runs (.ok ()) rfl rfl rfl parse_oldLayer rfl nofun (createContainer_runs rfl)⟩
  have begun : Goes (connectedClient statusNotFound) h (createContainer mediaOps mediaSpec) 0
      (connectedClient 0) (.task mediaTask ::ₘ .container mediaContainer ::ₘ h) := by
    refine goes_succeeds (.newContainer _ _ _ mediaSpec) mediaContainer created rfl ?_
    refine goes_unlessSuperseded (goes_succeeds (.newTask mediaContainer []) mediaTask
      (runs_succeeds (some []) (runs_succeeds (some (7 : ℕ)) (.ret (Except.ok _, _)))) rfl ?_)
    exact goes_unlessSuperseded (goes_succeeds (.taskStart mediaTask) ()
      (runs_succeeds () (.ret (Except.ok _, _))) rfl goes_ret)
  refine goes_unlessSuperseded (goes_call (30000 : ℤ) (serves_remainingMs _ _) ?_)
  refine goes_bind (goes_nothing h (.call (r := ⟨.error ⟨statusNotFound, by decide⟩, false⟩) rfl
    (.ret (Except.error _, _)))) (goes_unlessSuperseded ?_)
  rw [buildAndCreate_mediaOps]
  exact goes_unlessSuperseded begun

/-- The container as the daemon keeps it. -/
def mediaRecord : ContainerRecord :=
  ⟨some (ascii "image"), some defaultRuntime, some defaultSnapshotter,
    some (ascii "mediamtx-snapshot")⟩

/-- A stop that succeeds releases the handles that it has loaded, and these only. -/
theorem goes_stop (h : Handles) :
    Goes (connectedClient 0) h (stageStopOp mediaOps 30000) 0 (connectedClient 0) h := by
  have creates : ∀ h, Serves (connectedClient 0) h (.createWaiter mediaTask 10000) true []
      (connectedClient 0) h := fun _ => ⟨rfl, rfl, rfl⟩
  have looks : ∀ h, Serves (connectedClient 0) h .superseded false [] (connectedClient 0) h :=
    fun _ => ⟨rfl, rfl, rfl⟩
  have joins : ∀ h, Serves (connectedClient 0) h (.joinWaiter mediaTask 10000) (.ok (0 : ℤ)) []
      (connectedClient 0) h := fun _ => ⟨rfl, rfl, rfl⟩
  refine goes_unlessSuperseded (goes_call (30000 : ℤ) (serves_remainingMs _ _) ?_)
  refine goes_succeeds (.loadContainer (ascii "mediamtx")) mediaContainer
    (runs_succeeds (some mediaRecord) (.ret (Except.ok _, _))) rfl ?_
  refine goes_unlessSuperseded (goes_succeeds (.loadTask mediaContainer) mediaTask
    (runs_succeeds (some (7 : ℕ)) (.ret (Except.ok _, _))) rfl ?_)
  refine goes_unlessSuperseded (goes_call true (creates _) (goes_call false (looks _) ?_))
  refine goes_succeeds (.taskKill mediaTask sigTerm) () (runs_succeeds () (.ret (Except.ok _, _)))
    rfl ?_
  refine goes_call (.ok (0 : ℤ)) (joins _) (goes_unlessSuperseded ?_)
  refine goes_succeeds (.taskDelete mediaTask false) () (runs_succeeds () (.ret (Except.ok _, _)))
    (Multiset.erase_cons_head _ _) ?_
  exact goes_unlessSuperseded (goes_succeeds (.deleteContainer mediaContainer true) ()
    (runs_succeeds () (runs_succeeds () (.ret (Except.ok _, _))))
    (Multiset.erase_cons_head _ _) goes_ret)

/-- After so many starts and stops of a stage that all succeed, one behind the other, the handles of
every start are there. -/
theorem exists_cycles (n : ℕ) :
    ∃ (s : Site) (status : ℤ), s.Reachable fourStages (ascii "default") ∧ s.AtRest ∧
      s.client = connectedClient status ∧ s.handles.card = 2 * n := by
  have rests : ∀ {ops : List OpRun} {kind : OpKind} {rc : ℤ} {record : List Answered},
      (∀ op ∈ ops, op.returned = true) →
        ∀ op ∈ ops ++ [⟨kind, .ret rc, record⟩], op.returned = true := fun rest =>
    forall_mem_append.mpr ⟨rest, forall_mem_singleton.mpr rfl⟩
  induction n with
  | zero =>
    have nothing := Goes.steps fourStages .mediaMtx .stop 30000
      (goes_nothing 0 loadContainer_dials) []
    obtain ⟨record, steps⟩ := nothing
    exact ⟨_, _, steps, rests (forall_mem_nil _), rfl, rfl⟩
  | succ n ih =>
    obtain ⟨⟨c, h, ops⟩, status, reachable, rest, connected, card⟩ := ih
    cases connected
    obtain ⟨record, started⟩ := Goes.steps fourStages .mediaMtx .start 30000
      (goes_start status h) ops
    obtain ⟨record', stopped⟩ := Goes.steps fourStages .mediaMtx .stop 30000
      (goes_stop _) (ops ++ [⟨.start, .ret 0, record⟩])
    refine ⟨_, 0, (reachable.trans started).trans stopped, rests (rests rest), rfl, ?_⟩
    calc Multiset.card (.task mediaTask ::ₘ .container mediaContainer ::ₘ h)
      _ = h.card + 2 := by rw [Multiset.card_cons, Multiset.card_cons]
      _ = 2 * (n + 1) := congrArg (· + 2) card

/-- A start and a stop that succeed leave two handles, which the start is allowed. -/
theorem cycle_bounded :
    ∃ s : Site, s.Reachable fourStages (ascii "default") ∧ s.AtRest ∧ s.handles.card = 2 ∧
      (∀ image, .image image ∉ s.handles) ∧ s.handles.card ≤ (s.ops.map OpRun.allowance).sum := by
  obtain ⟨s, status, reachable, rest, -, card⟩ := exists_cycles 1
  exact ⟨s, reachable, rest, card, handles_bounded fourStages _ s reachable⟩

/-- No constant bounds the handles that are registered when all operations have returned. -/
theorem handles_accumulate :
    ¬ ∃ bound : ℕ, ∀ s : Site, s.Reachable fourStages (ascii "default") → s.AtRest →
      s.handles.card ≤ bound := by
  rintro ⟨bound, bounded⟩
  obtain ⟨s, status, reachable, rest, -, card⟩ := exists_cycles (bound + 1)
  have most := bounded s reachable rest
  omega

end Strimserver.Stage
