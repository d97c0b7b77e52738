import Strimserver.Controller.System

/-!
# What a step can do

Each label of the controller with its threads belongs to one actor: a
submitting thread (the main thread and the closers among them), the queue
thread, or a worker. An actor leaves the parts of the others alone, and a step
of the queue thread or of a worker is enabled in one program point only. The
lemmas here say this once for each label; the invariants are derived from them.
-/

namespace Strimserver.Controller

variable {cfg : Config} {s s' : Sys}

/-! ## Actors -/

/-- Who takes a step. -/
inductive Actor where
  | submitter | queueThread | worker
  deriving DecidableEq

/-- The thread that takes a step. -/
def Label.actor : Label → Actor
  | .submit _ | .submitReturn _ | .requestReconcile _ | .beginShutdown | .closeFlag
  | .closeQueue | .mainBeginShutdown | .mainWaitReturn => .submitter
  | .dequeue | .runReturn | .dispatch | .examine _ | .fire _ _ | .passDone | .tearDown
  | .stopReturn | .tornDown | .reply => .queueThread
  | .workerStart | .opReturn _ _ | .checkSuperseded _ | .enqueueClear _ _ | .wgDone _ => .worker

/-- The events that only say that a submitting thread made a call. -/
def Event.isCall : Event → Bool
  | .requested => true
  | .submitReturned _ => true
  | _ => false

/-- What a step of a submitting thread leaves alone. -/
structure SubmitterFrame (s s' : Sys) : Prop where
  core : s'.core = s.core
  thread : s'.thread = s.thread
  opsWg : s'.opsWg = s.opsWg
  pool : s'.pool = s.pool
  workers : s'.workers = s.workers
  log : s'.log = s.log ∨ ∃ e, e.isCall = true ∧ s'.log = e :: s.log
  shuttingDown : s.shuttingDown = true → s'.shuttingDown = true
  queue : s'.queue = s.queue ∨
    ∃ entry, s'.queue = s.queue ++ [entry] ∧ (entry.act.blocking = true ∨ entry.act = .reconcile)

/-- What a step of a submitting thread does. -/
inductive SubmitterStep (s : Sys) : Label → Sys → Prop where
  /-- A call is refused: the queue is closed or, for a request, the allocation failed. -/
  | refused (l : Label) (closed : ∀ act, l = .submit act → s.qClosed = true)
      (other : ∀ ticket, l ≠ .submitReturn ticket) : SubmitterStep s l s
  | submitted (act : Action) (blocking : act.blocking = true) (isOpen : s.qClosed = false) :
      SubmitterStep s (.submit act) { s.enqueueLocked ⟨act, some s.nextTicket⟩ with
        nextTicket := s.nextTicket + 1 }
  | returned (ticket : ℕ) (member : ticket ∈ s.replied) :
      SubmitterStep s (.submitReturn ticket) { s with
        replied := s.replied.erase ticket, log := .submitReturned ticket :: s.log }
  | coalesced (isOpen : s.qClosed = false) (queued : s.reconcileQueued = true) :
      SubmitterStep s (.requestReconcile true) { s with log := .requested :: s.log }
  | requested (isOpen : s.qClosed = false) (absent : s.reconcileQueued = false) :
      SubmitterStep s (.requestReconcile true) { s.enqueueLocked ⟨.reconcile, none⟩ with
        reconcileQueued := true, log := .requested :: s.log }
  | flagged (l : Label) (kind : l = .beginShutdown ∨ l = .closeFlag) :
      SubmitterStep s l { s with shuttingDown := true }
  | closed (down : s.shuttingDown = true) : SubmitterStep s .closeQueue { s with qClosed := true }
  | mainFlagged (at_ : s.main = .running) :
      SubmitterStep s .mainBeginShutdown { s with shuttingDown := true, main := .shutdownBegun }
  | mainWaited (at_ : s.main = .shutdownBegun) (drained : s.opsWg = 0) :
      SubmitterStep s .mainWaitReturn { s with main := .opsWaited }

variable {l : Label}

theorem submitterStep_of_step (h : step cfg s l = some s') (actor : l.actor = .submitter) :
    SubmitterStep s l s' := by
  cases l with
  | submit act =>
    simp only [step] at h
    split at h
    · cases h
    rename_i blocking
    split_ifs at h with closed
    · cases h
      exact .refused _ (fun _ _ => closed) nofun
    cases h
    exact .submitted act (by simpa using blocking) (by simpa using closed)
  | submitReturn ticket =>
    simp only [step] at h
    split at h <;> cases h
    rename_i mem
    exact .returned ticket mem
  | requestReconcile allocated =>
    simp only [step] at h
    split at h
    · cases h
      exact .refused _ nofun nofun
    rename_i allowed
    rw [not_or] at allowed
    split_ifs at h with queued
    · cases h
      obtain rfl : allocated = true := by simpa using allowed.1
      exact .coalesced (by simpa using allowed.2) queued
    cases h
    obtain rfl : allocated = true := by simpa using allowed.1
    exact .requested (by simpa using allowed.2) (by simpa using queued)
  | beginShutdown =>
    cases h
    exact .flagged _ (.inl rfl)
  | closeFlag =>
    cases h
    exact .flagged _ (.inr rfl)
  | closeQueue =>
    simp only [step] at h
    split at h <;> cases h
    rename_i down
    exact .closed down
  | mainBeginShutdown =>
    simp only [step] at h
    split at h <;> cases h
    rename_i at_
    exact .mainFlagged at_
  | mainWaitReturn =>
    simp only [step] at h
    split at h <;> cases h
    rename_i ready
    exact .mainWaited ready.1 ready.2
  | _ => cases actor

theorem step_submitter (h : step cfg s l = some s') (actor : l.actor = .submitter) :
    SubmitterFrame s s' := by
  cases submitterStep_of_step h actor with
  | refused | closed | mainWaited => exact ⟨rfl, rfl, rfl, rfl, rfl, .inl rfl, id, .inl rfl⟩
  | submitted act blocking =>
    exact ⟨rfl, rfl, rfl, rfl, rfl, .inl rfl, id, .inr ⟨_, rfl, .inl blocking⟩⟩
  | returned | coalesced => exact ⟨rfl, rfl, rfl, rfl, rfl, .inr ⟨_, rfl, rfl⟩, id, .inl rfl⟩
  | requested => exact ⟨rfl, rfl, rfl, rfl, rfl, .inr ⟨_, rfl, rfl⟩, id, .inr ⟨_, rfl, .inr rfl⟩⟩
  | flagged | mainFlagged => exact ⟨rfl, rfl, rfl, rfl, rfl, .inl rfl, fun _ => rfl, .inl rfl⟩

theorem SubmitterFrame.calls (frame : SubmitterFrame s s') :
    ∃ events, s'.log = events ++ s.log ∧ ∀ e ∈ events, e.isCall = true := by
  rcases frame.log with same | ⟨e, call, cons⟩
  · exact ⟨[], same, nofun⟩
  · exact ⟨[e], cons, fun _ mem => List.mem_singleton.mp mem ▸ call⟩

theorem step_submit {act : Action} (h : step cfg s (.submit act) = some s')
    (isOpen : s.qClosed = false) :
    s' = { s.enqueueLocked ⟨act, some s.nextTicket⟩ with nextTicket := s.nextTicket + 1 } := by
  simp only [step, isOpen] at h
  split at h <;> cases h
  rfl

theorem step_submitReturn {ticket : ℕ} (h : step cfg s (.submitReturn ticket) = some s') :
    ticket ∈ s.replied := by
  simp only [step] at h
  split at h <;> cases h
  assumption

/-! ## The queue thread -/

/-- The handlers that `run_action` calls at once, with the events that they record. -/
def handler (cfg : Config) (c : Core) : Action → Option ((Core × Result) × List Event)
  | .pathEvent e => some (handlePathEvent cfg c e, [])
  | .control cmd => some (handleControl cfg c cmd, [])
  | .stageEvent e => some (handleStageEvent c e, stageHandledEvents e)
  | .status => some ((c, .ok ()), [])
  | .addListener l => some (handleAddListener c l, [])
  | .removeListener l => some (handleRemoveListener c l, [])
  | .clearInflight st g => some ((clearInflight c st g, .ok ()), [.clearHandled st g])
  | .reconcile => none
  | .teardown => none

/-- What a step of the queue thread does. -/
inductive LoopMove (cfg : Config) (s : Sys) : Label → Sys → Prop where
  | dequeued (entry : Entry) (rest : List Entry) (at_ : s.thread = .idle)
      (queue : s.queue = entry :: rest) :
      LoopMove cfg s .dequeue { s with
        queue := rest
        reconcileQueued := if entry.act = .reconcile then false else s.reconcileQueued
        thread := .dispatching entry }
  | left (at_ : s.thread = .idle) (empty : s.queue = []) (closed : s.qClosed = true) :
      LoopMove cfg s .runReturn { s with thread := .returned }
  | handled (act : Action) (ticket : Option ℕ) (r : Core × Result) (events : List Event)
      (at_ : s.thread = .dispatching ⟨act, ticket⟩)
      (handles : handler cfg s.core act = some (r, events)) :
      LoopMove cfg s .dispatch (s.handled ticket r events)
  /-- A pass ends at once when the shutdown has begun. -/
  | passSkipped (ticket : Option ℕ) (at_ : s.thread = .dispatching ⟨.reconcile, ticket⟩) :
      LoopMove cfg s .dispatch { s with
        thread := .replying ticket (.ok ()), log := .reconcileStarted :: s.log }
  | passStarted (ticket : Option ℕ) (at_ : s.thread = .dispatching ⟨.reconcile, ticket⟩) :
      LoopMove cfg s .dispatch { s with
        thread := .reconciling StageName.all, log := .reconcileStarted :: s.log }
  | tearStarted (ticket : Option ℕ) (at_ : s.thread = .dispatching ⟨.teardown, ticket⟩) :
      LoopMove cfg s .dispatch { s with thread := .tearingDown ticket StageName.all }
  | spared (st : StageName) (rest : List StageName) (now : ℤ)
      (at_ : s.thread = .reconciling (st :: rest)) :
      LoopMove cfg s (.examine now) { s with
        core := (reconcileExamine cfg s.core st now).1
        thread := .reconciling rest
        log := examineEvents s.core st now ++ s.log }
  | chosen (st : StageName) (target : StageState) (rest : List StageName) (now : ℤ)
      (at_ : s.thread = .reconciling (st :: rest))
      (decided : reconcileExamine cfg s.core st now = (s.core, some target)) :
      LoopMove cfg s (.examine now) { s with
        thread := .firing st target rest, log := examineEvents s.core st now ++ s.log }
  /-- The shutdown has begun, or the job cannot be allocated. -/
  | passedBy (st : StageName) (target : StageState) (rest : List StageName) (now : ℤ)
      (outcome : FireOutcome) (at_ : s.thread = .firing st target rest) :
      LoopMove cfg s (.fire now outcome) { s with thread := .reconciling rest }
  | refused (st : StageName) (target : StageState) (rest : List StageName) (now : ℤ)
      (at_ : s.thread = .firing st target rest) :
      LoopMove cfg s (.fire now .submitFailed) { s with
        core := (fireStage cfg s.core st target now .submitFailed).1
        thread := .reconciling rest
        opsWg := s.opsWg
        log := .submitFailed st :: .clock now :: s.log }
  | launched (st : StageName) (target : StageState) (rest : List StageName) (now : ℤ)
      (at_ : s.thread = .firing st target rest) (allowed : s.shuttingDown = false) :
      LoopMove cfg s (.fire now .launched) { s with
        core := (fireStage cfg s.core st target now .launched).1
        thread := .reconciling rest
        opsWg := s.opsWg + 1
        pool := s.pool ++ [fireJob cfg s.core st target now]
        log := .fired (fireJob cfg s.core st target now) now :: .clock now :: s.log }
  | passDone (at_ : s.thread = .reconciling []) :
      LoopMove cfg s .passDone { s with thread := .replying none (.ok ()) }
  | stops (ticket : Option ℕ) (st : StageName) (rest : List StageName)
      (at_ : s.thread = .tearingDown ticket (st :: rest)) (tears : tearsDown cfg s.core st = true) :
      LoopMove cfg s .tearDown { s with
        core := teardownBump s.core st
        thread := .stopping ticket st rest
        log := .stopInvoked st :: s.log }
  | skips (ticket : Option ℕ) (st : StageName) (rest : List StageName)
      (at_ : s.thread = .tearingDown ticket (st :: rest))
      (stays : tearsDown cfg s.core st = false) :
      LoopMove cfg s .tearDown { s with thread := .tearingDown ticket rest }
  | stopped (ticket : Option ℕ) (st : StageName) (rest : List StageName)
      (at_ : s.thread = .stopping ticket st rest) :
      LoopMove cfg s .stopReturn { s with
        core := teardownStopped s.core st
        thread := .tearingDown ticket rest
        log := .stopReturned st :: s.log }
  | tornDown (ticket : Option ℕ) (at_ : s.thread = .tearingDown ticket []) :
      LoopMove cfg s .tornDown (s.handled ticket (notifyListeners s.core, .ok ()) [])
  | replied (ticket : Option ℕ) (result : Result) (at_ : s.thread = .replying ticket result) :
      LoopMove cfg s .reply { s with thread := .idle, replied := ticket.toList ++ s.replied }

/-- **What a step of the queue thread does.** -/
theorem loopMove_of_step (h : step cfg s l = some s') (actor : l.actor = .queueThread) :
    LoopMove cfg s l s' := by
  cases l with
  | dequeue =>
    simp only [step] at h
    split at h <;> cases h
    rename_i entry rest idle queue
    exact .dequeued entry rest idle queue
  | runReturn =>
    simp only [step] at h
    split at h
    · rename_i idle queue
      split at h <;> cases h
      rename_i closed
      exact .left idle queue closed
    · cases h
  | dispatch =>
    simp only [step] at h
    split at h <;> cases h
    rename_i entry at_
    obtain ⟨act, ticket⟩ := entry
    cases act with
    | reconcile =>
      unfold Sys.dispatch
      dsimp only
      split
      · exact .passSkipped ticket at_
      · exact .passStarted ticket at_
    | teardown => exact .tearStarted ticket at_
    | _ => exact .handled _ ticket _ _ at_ rfl
  | examine now =>
    simp only [step] at h
    split at h <;> cases h
    rename_i st rest at_
    have spared := @LoopMove.spared cfg s st rest now at_
    unfold Sys.examine
    rcases decided : reconcileExamine cfg s.core st now with ⟨c, _ | target⟩
    · rwa [decided] at spared
    · obtain ⟨rfl, -⟩ := reconcileExamine_some cfg decided
      exact .chosen st target rest now at_ decided
  | fire now outcome =>
    simp only [step] at h
    split at h <;> cases h
    rename_i st target rest at_
    unfold Sys.fire
    split_ifs with allowed
    · exact .passedBy st target rest now outcome at_
    cases outcome with
    | jobAllocFailed => exact .passedBy st target rest now _ at_
    | submitFailed => exact .refused st target rest now at_
    | launched => exact .launched st target rest now at_ (Bool.eq_false_iff.mpr allowed)
  | passDone =>
    simp only [step] at h
    split at h <;> cases h
    rename_i at_
    exact .passDone at_
  | tearDown =>
    simp only [step] at h
    split at h <;> cases h
    rename_i ticket st rest at_
    unfold Sys.tearDown
    split_ifs with tears
    · exact .stops ticket st rest at_ tears
    · exact .skips ticket st rest at_ (Bool.eq_false_iff.mpr tears)
  | stopReturn =>
    simp only [step] at h
    split at h <;> cases h
    rename_i ticket st rest at_
    exact .stopped ticket st rest at_
  | tornDown =>
    simp only [step] at h
    split at h <;> cases h
    rename_i ticket at_
    exact .tornDown ticket at_
  | reply =>
    simp only [step] at h
    split at h <;> cases h
    rename_i ticket result at_
    exact .replied ticket result at_
  | _ => cases actor

/-- What a step of the queue thread leaves alone. -/
structure QueueThreadFrame (s s' : Sys) : Prop where
  workers : s'.workers = s.workers
  qClosed : s'.qClosed = s.qClosed
  shuttingDown : s'.shuttingDown = s.shuttingDown
  nextTicket : s'.nextTicket = s.nextTicket
  main : s'.main = s.main

theorem step_queueThread (h : step cfg s l = some s') (actor : l.actor = .queueThread) :
    QueueThreadFrame s s' := by
  cases loopMove_of_step h actor <;> exact ⟨rfl, rfl, rfl, rfl, rfl⟩

/-- What a handler does: only those of stage events and clears touch the flights. -/
inductive HandlerMove (c : Core) : Action → Core × Result → List Event → Prop where
  | plain {act : Action} {r : Core × Result} (other : ∀ e, act ≠ .stageEvent e)
      (same : SameFlight c r.1) : HandlerMove c act r []
  | staged (e : StageEvent) :
      HandlerMove c (.stageEvent e) (handleStageEvent c e) (stageHandledEvents e)
  | cleared (st : StageName) (g : UInt64) :
      HandlerMove c (.clearInflight st g) (clearInflight c st g, .ok ()) [.clearHandled st g]

section

variable {c : Core} {act : Action} {r : Core × Result} {events : List Event}
  (handles : handler cfg c act = some (r, events))

include handles

theorem handlerMove : HandlerMove c act r events := by
  cases act <;> cases handles
  case pathEvent e => exact .plain nofun (handlePathEvent_sameFlight cfg c e)
  case control cmd => exact .plain nofun (handleControl_sameFlight cfg c cmd)
  case stageEvent e => exact .staged e
  case status => exact .plain nofun (.refl c)
  case addListener l => exact .plain nofun (handleAddListener_sameFlight c l)
  case removeListener l => exact .plain nofun (handleRemoveListener_sameFlight c l)
  case clearInflight st g => exact .cleared st g

theorem handler_events :
    events = [] ∨ (∃ st, events = [.stageHandled st]) ∨ ∃ st g, events = [.clearHandled st g] := by
  cases handlerMove handles with
  | plain => exact .inl rfl
  | staged =>
    unfold stageHandledEvents
    split
    · exact .inr (.inl ⟨_, rfl⟩)
    · exact .inl rfl
  | cleared st g => exact .inr (.inr ⟨st, g, rfl⟩)

end

/-! ## The workers -/

/-- What a step of a worker does. -/
inductive WorkerMove (s : Sys) : Label → Sys → Prop where
  | started (job : Job) (rest : List Job) (pool : s.pool = job :: rest) :
      WorkerMove s .workerStart { s with pool := rest, workers := s.workers ++ [⟨job, .running⟩] }
  | returned (i : ℕ) (job : Job) (ok : Bool) (at_ : s.workers[i]? = some ⟨job, .running⟩) :
      WorkerMove s (.opReturn i ok) { s.setPhase i job (if ok then .finishing else .failed) with
        log := .opReturned job ok :: s.log }
  /-- A failed operation is found superseded or not, or its clear cannot be queued. -/
  | passed (l : Label) (i : ℕ) (job : Job) (before after : Phase)
      (at_ : s.workers[i]? = some ⟨job, before⟩)
      (kind : after = .finishing ∨ before = .failed ∧ after = .clearing)
      (other : ∀ i ok, l ≠ .opReturn i ok) : WorkerMove s l (s.setPhase i job after)
  | cleared (i : ℕ) (job : Job) (at_ : s.workers[i]? = some ⟨job, .clearing⟩)
      (isOpen : s.qClosed = false) :
      WorkerMove s (.enqueueClear i true) ((s.setPhase i job .finishing).enqueueLocked
        ⟨.clearInflight job.stage job.generation, none⟩)
  | done (i : ℕ) (job : Job) (at_ : s.workers[i]? = some ⟨job, .finishing⟩) :
      WorkerMove s (.wgDone i) { s with workers := s.workers.eraseIdx i, opsWg := wgDone s.opsWg }

/-- **What a step of a worker does.** -/
theorem workerMove_of_step (h : step cfg s l = some s') (actor : l.actor = .worker) :
    WorkerMove s l s' := by
  cases l with
  | workerStart =>
    simp only [step] at h
    split at h
    · rename_i job rest pool
      split at h <;> cases h
      exact .started job rest pool
    · cases h
  | opReturn i ok =>
    simp only [step] at h
    split at h <;> cases h
    rename_i job at_
    exact .returned i job ok at_
  | checkSuperseded i =>
    simp only [step] at h
    split at h <;> cases h
    rename_i job at_
    refine .passed _ i job _ _ at_ ?_ nofun
    split
    · exact .inl rfl
    · exact .inr ⟨rfl, rfl⟩
  | enqueueClear i allocated =>
    simp only [step] at h
    split at h
    · rename_i job at_
      split_ifs at h with allowed
      · cases h
        exact .passed _ i job _ _ at_ (.inl rfl) nofun
      rw [not_or] at allowed
      cases h
      obtain rfl : allocated = true := by simpa using allowed.1
      exact .cleared i job at_ (by simpa using allowed.2)
    · cases h
  | wgDone i =>
    simp only [step] at h
    split at h <;> cases h
    rename_i job at_
    exact .done i job at_
  | _ => cases actor

/-- What a step of a worker leaves alone. -/
structure WorkerFrame (s s' : Sys) : Prop where
  core : s'.core = s.core
  thread : s'.thread = s.thread
  qClosed : s'.qClosed = s.qClosed
  reconcileQueued : s'.reconcileQueued = s.reconcileQueued
  shuttingDown : s'.shuttingDown = s.shuttingDown
  replied : s'.replied = s.replied
  nextTicket : s'.nextTicket = s.nextTicket
  main : s'.main = s.main

theorem step_worker (h : step cfg s l = some s') (actor : l.actor = .worker) :
    WorkerFrame s s' := by
  cases workerMove_of_step h actor <;> exact ⟨rfl, rfl, rfl, rfl, rfl, rfl, rfl, rfl⟩

end Strimserver.Controller
