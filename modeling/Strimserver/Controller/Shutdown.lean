import Strimserver.Controller.StageEvents
import Strimserver.Controller.WaitGroup

/-!
# Shutdown and the containers

The teardown stops the stages whose actual state is running, and the actual
state is set by stage events. So a stage that was started is stopped when its
`TaskStart` event has been delivered by then, and not otherwise: the listener is
joined before the operations are waited for, and an operation that ends in
between leaves its container running (`shutdown_leaves_container`).

The proof of the other direction follows a stage that still has to be stopped
through the run. Its actual state is running once the queued stage events and
after them the task events that are not yet taken have been handled. In a run in
which every event of a start is delivered none is left when the teardown comes,
so the teardown finds the stage running and stops it (`containers_stopped`).
-/

namespace Strimserver.Controller

open Library List Option

/-! ## The property and its condition -/

/-- Once the teardown has returned, every stage whose last operation to complete
is a start that succeeded has had its stop operation called after that. -/
def ContainersStopped (p : Process) : Prop :=
  p.phase = .tornDown → ∀ later job earlier,
    p.sys.log = later ++ .opReturned job true :: earlier → job.target = .running →
    (∀ other ok, .opReturned other ok ∈ later → other.stage ≠ job.stage) →
    .stopInvoked job.stage ∈ later

/-- The step loses no event of a start: the listener leaves its loop only when
it has taken every event, and no start succeeds after it has left. -/
def losesNoStart (p : Process) : ProcessLabel → Bool
  | .listenerCheck => decide (p.signalled = true → p.tasks = [])
  | .listenerBreak => decide (p.tasks = [])
  | .controller (.opReturn i true) =>
    decide (p.listener = .exited → p.sys.workers[i]?.map (·.job.target) ≠ some .running)
  | _ => true

/-- The process in the runs that lose no event of a start. -/
def deliveringProcess (cfg : Config) : Machine Process ProcessLabel :=
  (process cfg).restrict fun p l => losesNoStart p l = true

/-! ## The invariant -/

variable {cfg : Config} {p p' : Process} {s s' : Sys}

def Entry.isStageEvent (entry : Entry) : Bool :=
  match entry.act with
  | .stageEvent _ => true
  | _ => false

/-- No stage needs a stop. -/
def AllStopped (s : Sys) : Prop := ∀ st, needsStop st s.log = false

/-- The listener: the stages that have to be stopped will be running once all events are handled, a
held stage event is the one the listener waits for, and after it has left only events of stops are
missed. -/
structure DeliveryInv (p : Process) : Prop where
  started : ∀ st, needsStop st p.sys.log = true →
    replay st (p.sys.settled st) p.tasks = .running
  delivering : ∀ entry, p.sys.Holds entry → entry.isStageEvent = true →
    ∃ ticket, entry.ticket = some ticket ∧ p.listener = .submitting ticket
  missed : p.listener = .exited → ∀ e ∈ p.tasks, e.2 = .stopped

/-- The main thread has submitted the teardown. -/
def Process.Late (p : Process) : Prop := (∃ ticket, p.phase = .tearing ticket) ∨ p.phase = .tornDown

/-- What holds until the teardown is over. -/
structure TeardownInv (p : Process) : Prop where
  isOpen : p.sys.qClosed = false
  joined : p.phase ≠ .serving → p.listener = .exited
  waited : p.Late → p.sys.main = .opsWaited
  /-- Only the main thread has a teardown on its way. -/
  held : ∀ entry, p.sys.Holds entry → entry.act = .teardown → p.Late
  inLoop : ∀ ticket rest, p.sys.thread = .tearingDown ticket rest →
    p.Late ∧ ∀ st, st ∉ rest → needsStop st p.sys.log = false
  inStop : ∀ ticket st rest, p.sys.thread = .stopping ticket st rest →
    p.Late ∧ needsStop st p.sys.log = false ∧
      ∀ other, other ∉ rest → needsStop other p.sys.log = false
  /-- The action that the main thread waits for is the teardown. -/
  mine : ∀ ticket, p.phase = .tearing ticket → ticket < p.sys.nextTicket ∧
    ∀ entry, p.sys.Holds entry → entry.ticket = some ticket → entry.act = .teardown
  replied : ∀ ticket, p.phase = .tearing ticket →
    (∃ r, p.sys.thread = .replying (some ticket) r) ∨ ticket ∈ p.sys.replied → AllStopped p.sys
  done : p.phase = .tornDown → AllStopped p.sys

/-! ## The listener -/

variable {entry : Entry}

theorem Entry.isStageEvent_of_not_blocking (free : entry.act.blocking = false) :
    entry.isStageEvent = false := by
  obtain ⟨act, ticket⟩ := entry
  cases act with
  | stageEvent => cases free
  | _ => rfl

variable {l : Label}

/-- What a step other than a submit of a stage event can make held. -/
theorem holds_of_step (h : step cfg s l = some s') (holds : s'.Holds entry) :
    s.Holds entry ∨ (∃ act, l = .submit act ∧ entry = ⟨act, some s.nextTicket⟩) ∨
      entry.ticket = none ∧ entry.act.blocking = false := by
  cases actor : l.actor with
  | submitter =>
    have thread := (step_submitter h actor).thread
    rcases holds with mem | at_
    · cases submitterStep_of_step h actor with
      | submitted act =>
        rcases mem_append.mp mem with old | new
        · exact .inl (.inl old)
        · exact .inr (.inl ⟨act, rfl, mem_singleton.mp new⟩)
      | requested =>
        rcases mem_append.mp mem with old | new
        · exact .inl (.inl old)
        · rw [mem_singleton.mp new]
          exact .inr (.inr ⟨rfl, rfl⟩)
      | _ => exact .inl (.inl mem)
    · exact .inl (.inr (thread ▸ at_))
  | queueThread =>
    cases loopStep_of_step h actor with
    | dequeued front rest at_ queue =>
      rcases holds with mem | dispatching
      · exact .inl (.inl (queue ▸ mem_cons_of_mem _ mem))
      · cases dispatching
        exact .inl (.inl (queue ▸ mem_cons_self))
    | left | replied =>
      rcases holds with mem | dispatching
      · exact .inl (.inl mem)
      · cases dispatching
    | inner events _ inner =>
      rcases holds with mem | dispatching
      · exact .inl (.inl (inner.queue ▸ mem))
      · exact absurd dispatching (inner.dispatched entry)
  | worker =>
    rcases holds with mem | at_
    · obtain ⟨clears, queue, clear, -⟩ := (workerQueueStep_of_step h actor).queue
      rw [queue] at mem
      rcases mem_append.mp mem with old | new
      · exact .inl (.inl old)
      · obtain ⟨st, g, rfl⟩ := clear entry new
        exact .inr (.inr ⟨rfl, rfl⟩)
    · exact .inl (.inr ((step_worker h actor).thread ▸ at_))

section

variable (inv : DeliveryInv p)

include inv

/-- No stage event is held when the listener does not wait for one. -/
theorem DeliveryInv.not_stageEvent (idle : ∀ ticket, p.listener ≠ .submitting ticket)
    (holds : p.sys.Holds entry) : entry.isStageEvent = false := by
  by_contra stageEvent
  obtain ⟨ticket, -, waits⟩ := inv.delivering entry holds (by simpa using stageEvent)
  exact idle ticket waits

theorem DeliveryInv.no_taskEvents (idle : ∀ ticket, p.listener ≠ .submitting ticket) :
    p.sys.taskEvents = [] := by
  have other : ∀ entry, p.sys.Holds entry → entry.taskEvents = [] := by
    rintro ⟨act, ticket⟩ holds
    have other := inv.not_stageEvent idle holds
    cases act with
    | stageEvent => cases other
    | _ => rfl
  have thread : p.sys.thread.taskEvents = [] := by
    cases at_ : p.sys.thread with
    | dispatching entry => exact other entry (.inr at_)
    | _ => rfl
  rw [Sys.taskEvents, thread, flatMap_eq_nil_iff.mpr fun entry mem => other entry (.inl mem)]
  rfl

omit inv in
theorem emitted_of_ne (other : ∀ i, l ≠ .opReturn i true) : emitted s l = [] := by
  cases l with
  | opReturn i ok =>
    cases ok with
    | true => exact absurd rfl (other i)
    | false => rfl
  | _ => rfl

variable {sys : Sys}

/-- The events of starts are tracked through a step of the controller. -/
theorem DeliveryInv.started_of_step (tear : TeardownInv p) (step : step cfg p.sys l = some sys)
    (other : ∀ e, l ≠ .submit (.stageEvent e)) {st : StageName}
    (needs : needsStop st sys.log = true) :
    replay st (sys.settled st) (p.tasks ++ emitted p.sys l) = .running := by
  by_cases returns : ∃ i ok, l = .opReturn i ok
  · obtain ⟨i, ok, rfl⟩ := returns
    have settled := settled_of_step step other nofun st
    cases workerMove_of_step step rfl with
    | passed l i job before after at_ kind none => exact absurd rfl (none _ _)
    | returned i job ok at_ =>
      simp only [needsStop] at needs
      cases ok with
      | true =>
        simp only [emitted, at_, map_some, toList_some, replay_append, replay_cons, replay_nil]
        by_cases mine : job.stage = st
        · rw [if_pos mine] at needs ⊢
          simpa using needs
        · rw [if_neg mine] at needs ⊢
          exact inv.started st needs
      | false =>
        by_cases mine : job.stage = st
        · rw [if_pos mine] at needs
          cases needs
        rw [if_neg mine] at needs
        show replay st (p.sys.settled st) (p.tasks ++ []) = .running
        rw [append_nil]
        exact inv.started st needs
  have noReturn : ∀ i ok, l ≠ .opReturn i ok := fun i ok eq => returns ⟨i, ok, eq⟩
  have before := needsStop_of_step step noReturn needs
  rw [emitted_of_ne fun i => noReturn i true, append_nil]
  by_cases stop : l = .stopReturn
  · subst stop
    obtain ⟨ticket, stopped, rest, at_, kept⟩ := settled_stopReturn step
    have ne : st ≠ stopped := by
      rintro rfl
      rw [(tear.inStop ticket st rest at_).2.1] at before
      cases before
    rw [kept st ne]
    exact inv.started st before
  · rw [settled_of_step step other stop]
    exact inv.started st before

/-- A step of the controller that submits no stage event. -/
theorem DeliveryInv.delivering_of_step (step : step cfg p.sys l = some sys)
    (other : ∀ e, l ≠ .submit (.stageEvent e)) (holds : sys.Holds entry)
    (stageEvent : entry.isStageEvent = true) :
    p.sys.Holds entry ∧ ∃ ticket, entry.ticket = some ticket ∧ p.listener = .submitting ticket := by
  rcases holds_of_step step holds with old | ⟨act, rfl, rfl⟩ | ⟨-, free⟩
  · exact ⟨old, inv.delivering entry old stageEvent⟩
  · cases act with
    | stageEvent e => exact absurd rfl (other e)
    | _ => cases stageEvent
  · rw [Entry.isStageEvent_of_not_blocking free] at stageEvent
    cases stageEvent

/-- The listener moves by itself, and leaves only when it has taken every event. -/
theorem DeliveryInv.moves (idle : ∀ ticket, p.listener ≠ .submitting ticket)
    (thread : ListenerThread) (taken : thread = .exited → p.tasks = []) :
    DeliveryInv { p with listener := thread } := by
  refine ⟨inv.started, fun entry holds stageEvent => ?_, fun left e mem => ?_⟩
  · rw [inv.not_stageEvent idle holds] at stageEvent
    cases stageEvent
  have empty : p.tasks = [] := taken left
  rw [empty] at mem
  cases mem

/-- The listener submits the oldest event: it goes from the tasks to the queue. -/
theorem DeliveryInv.delivers (tear : TeardownInv p) {e : TaskEvent} {rest : List TaskEvent}
    (tasks : p.tasks = e :: rest) (idle : ∀ ticket, p.listener ≠ .submitting ticket)
    (step : step cfg p.sys (.submit (.stageEvent (TaskEvent.stageEvent e))) = some sys) :
    DeliveryInv { p with sys, tasks := rest, listener := .submitting p.sys.nextTicket } := by
  have moved : ∀ st, sys.settled st = replay st (p.sys.settled st) [e] := by
    intro st
    rw [step_submit step tear.isOpen]
    refine (Sys.settled_append (s := p.sys)
      [⟨.stageEvent (TaskEvent.stageEvent e), some p.sys.nextTicket⟩] ?_ ?_ ?_ st).trans ?_
    · rfl
    · rfl
    · rfl
    · simp [Entry.taskEvents, TaskEvent.stageEvent, StageEvent.taskEvents]
  have log : sys.log = p.sys.log := by
    rw [step_submit step tear.isOpen]
    rfl
  refine ⟨?_, ?_, nofun⟩
  · intro st needs
    rw [moved, ← replay_append, singleton_append, ← tasks]
    exact inv.started st (log ▸ needs)
  intro entry holds stageEvent
  rcases holds_of_step step holds with old | ⟨act, same, rfl⟩ | ⟨-, free⟩
  · rw [inv.not_stageEvent idle old] at stageEvent
    cases stageEvent
  · exact ⟨p.sys.nextTicket, rfl, rfl⟩
  · rw [Entry.isStageEvent_of_not_blocking free] at stageEvent
    cases stageEvent

/-- A step of the controller that leaves the tasks as they are. -/
theorem DeliveryInv.started_of_quiet (tear : TeardownInv p) (step : step cfg p.sys l = some sys)
    (other : ∀ e, l ≠ .submit (.stageEvent e)) (quiet : ∀ i, l ≠ .opReturn i true) (st : StageName)
    (needs : needsStop st sys.log = true) : replay st (sys.settled st) p.tasks = .running := by
  have running := inv.started_of_step tear step other needs
  rwa [emitted_of_ne quiet, append_nil] at running

theorem DeliveryInv.step (tear : TeardownInv p) (tickets : TicketInv p.sys) {l : ProcessLabel}
    (guard : losesNoStart p l = true) (h : ProcessStep cfg p l p') : DeliveryInv p' := by
  cases h with
  | signalled | joins => exact ⟨inv.started, inv.delivering, inv.missed⟩
  | leaves at_ set =>
    simp only [losesNoStart, decide_eq_true_eq] at guard
    exact inv.moves (by rw [at_]; nofun) .exited fun _ => guard set
  | polls at_ => exact inv.moves (by rw [at_]; nofun) .polling nofun
  | timedOut at_ => exact inv.moves (by rw [at_]; nofun) .checking nofun
  | breaks at_ =>
    simp only [losesNoStart, decide_eq_true_eq] at guard
    exact inv.moves (by rw [at_]; nofun) .exited fun _ => guard
  | delivers e rest sys tasks at_ step =>
    rw [tear.isOpen]
    exact inv.delivers tear tasks (by rw [at_]; nofun) step
  | delivered ticket sys at_ step =>
    -- The reply is there, so the event that the listener waited for is handled.
    have mem := step_submitReturn step
    refine ⟨inv.started_of_quiet tear step nofun nofun, fun entry holds stageEvent => ?_, nofun⟩
    obtain ⟨old, other, waits, submitting⟩ := inv.delivering_of_step step nofun holds stageEvent
    rw [at_] at submitting
    cases submitting
    exact absurd mem (tickets.not_replied (old.unanswered waits))
  | tears _ _ _ _ step | torn _ _ _ step =>
    exact ⟨inv.started_of_quiet tear step nofun nofun, fun entry holds stageEvent =>
      (inv.delivering_of_step step nofun holds stageEvent).2, inv.missed⟩
  | controller l sys allowed step =>
    have other : ∀ e, l ≠ .submit (.stageEvent e) := by
      rintro e rfl
      cases allowed
    refine ⟨fun st needs => inv.started_of_step tear step other needs,
      fun entry holds stageEvent => (inv.delivering_of_step step other holds stageEvent).2, ?_⟩
    intro left e mem
    rcases mem_append.mp mem with old | new
    · exact inv.missed left e old
    -- after the listener has left, the only events that come are those of stops
    cases l with
    | opReturn i ok =>
      cases ok with
      | false => cases new
      | true =>
        simp only [losesNoStart, decide_eq_true_eq] at guard
        have target := guard left
        simp only [emitted, mem_toList, map_eq_some_iff] at new
        obtain ⟨w, at_, rfl⟩ := new
        rw [at_] at target
        cases state : w.job.target with
        | stopped => rfl
        | running => exact absurd (by simp [state]) target
    | _ => cases new

end

/-! ## The teardown -/

/-- Once the operations are waited for, no stage starts to need a stop. -/
theorem needsStop_false_of_step (st : StageName) (main : MainInv s) (waited : s.main = .opsWaited)
    (h : step cfg s l = some s') (stopped : needsStop st s.log = false) :
    needsStop st s'.log = false := by
  have noReturn : ∀ i ok, l ≠ .opReturn i ok := by
    rintro i ok rfl
    have none : s.workers.map Worker.job = [] := (append_eq_nil_iff.mp (main.waited waited)).2
    rw [Controller.step, map_eq_nil_iff.mp none] at h
    cases h
  by_contra needs
  rw [needsStop_of_step h noReturn (by simpa using needs)] at stopped
  cases stopped

theorem Process.Late.not_serving (late : p.Late) : p.phase ≠ .serving := by
  rcases late with ⟨ticket, phase⟩ | phase <;> rw [phase] <;> nofun

/-- Where a step of the controller can take the queue thread in a teardown. -/
structure TearStep (cfg : Config) (s s' : Sys) : Prop where
  inLoop : ∀ ticket rest, s'.thread = .tearingDown ticket rest →
    s.thread = .tearingDown ticket rest ∨
    (s.thread = .dispatching ⟨.teardown, ticket⟩ ∧ rest = StageName.all) ∨
    (∃ st, s.thread = .tearingDown ticket (st :: rest) ∧ tearsDown cfg s.core st = false) ∨
    ∃ st, s.thread = .stopping ticket st rest
  inStop : ∀ ticket st rest, s'.thread = .stopping ticket st rest →
    s.thread = .stopping ticket st rest ∨
    (s.thread = .tearingDown ticket (st :: rest) ∧ s'.log = .stopInvoked st :: s.log)
  replying : ∀ ticket r, s'.thread = .replying (some ticket) r →
    s.thread = .replying (some ticket) r ∨ s.thread = .tearingDown (some ticket) [] ∨
    ∃ act, s.thread = .dispatching ⟨act, some ticket⟩ ∧ act ≠ .teardown
  replied : ∀ ticket ∈ s'.replied,
    ticket ∈ s.replied ∨ ∃ r, s.thread = .replying (some ticket) r

theorem TearStep.of_thread (thread : s'.thread = s.thread) (replied : s'.replied ⊆ s.replied) :
    TearStep cfg s s' where
  inLoop _ _ at_ := .inl (thread ▸ at_)
  inStop _ _ _ at_ := .inl (thread ▸ at_)
  replying _ _ at_ := .inl (thread ▸ at_)
  replied _ mem := .inl (replied mem)

theorem tearStep_of_step (h : step cfg s l = some s') : TearStep cfg s s' := by
  cases actor : l.actor with
  | submitter =>
    refine .of_thread (step_submitter h actor).thread ?_
    cases submitterStep_of_step h actor with
    | returned => exact erase_subset
    | _ => exact List.Subset.refl _
  | worker =>
    have frame := step_worker h actor
    exact .of_thread frame.thread (frame.replied ▸ List.Subset.refl _)
  | queueThread =>
    cases loopMove_of_step h actor with
    | handled act ticket r events at_ handles =>
      refine ⟨nofun, nofun, ?_, fun _ mem => .inl mem⟩
      rintro ticket' r ⟨⟩
      refine .inr (.inr ⟨act, at_, ?_⟩)
      rintro rfl
      cases handles
    | passSkipped ticket at_ =>
      refine ⟨nofun, nofun, ?_, fun _ mem => .inl mem⟩
      rintro ticket' r ⟨⟩
      exact .inr (.inr ⟨_, at_, nofun⟩)
    | tearStarted ticket at_ =>
      refine ⟨?_, nofun, nofun, fun _ mem => .inl mem⟩
      rintro ticket' rest ⟨⟩
      exact .inr (.inl ⟨at_, rfl⟩)
    | stops ticket st rest at_ =>
      refine ⟨nofun, ?_, nofun, fun _ mem => .inl mem⟩
      rintro ticket' st' rest' ⟨⟩
      exact .inr ⟨at_, rfl⟩
    | skips ticket st rest at_ stays =>
      refine ⟨?_, nofun, nofun, fun _ mem => .inl mem⟩
      rintro ticket' rest' ⟨⟩
      exact .inr (.inr (.inl ⟨st, at_, stays⟩))
    | stopped ticket st rest at_ =>
      refine ⟨?_, nofun, nofun, fun _ mem => .inl mem⟩
      rintro ticket' rest' ⟨⟩
      exact .inr (.inr (.inr ⟨st, at_⟩))
    | tornDown ticket at_ =>
      refine ⟨nofun, nofun, ?_, fun _ mem => .inl mem⟩
      rintro ticket' r ⟨⟩
      exact .inr (.inl at_)
    | replied ticket result at_ =>
      refine ⟨nofun, nofun, nofun, ?_⟩
      intro ticket' mem
      rcases mem_append.mp mem with new | old
      · rw [mem_toList] at new
        subst new
        exact .inr ⟨result, at_⟩
      · exact .inl old
    | _ => exact ⟨nofun, nofun, nofun, fun _ mem => .inl mem⟩

/-- What the other steps of the controller leave alone while the main thread is
in the teardown. -/
theorem step_main_frame (h : step cfg s l = some s') (open_ : l ≠ .closeQueue) :
    s'.qClosed = s.qClosed ∧ (s.main = .opsWaited → s'.main = .opsWaited) ∧
      s.nextTicket ≤ s'.nextTicket := by
  cases actor : l.actor with
  | submitter =>
    cases submitterStep_of_step h actor with
    | submitted => exact ⟨rfl, id, Nat.le_succ _⟩
    | closed => exact absurd rfl open_
    | mainFlagged at_ =>
      refine ⟨rfl, fun waited => ?_, Nat.le_refl _⟩
      rw [at_] at waited
      cases waited
    | mainWaited => exact ⟨rfl, fun _ => rfl, Nat.le_refl _⟩
    | _ => exact ⟨rfl, id, Nat.le_refl _⟩
  | queueThread =>
    have frame := step_queueThread h actor
    exact ⟨frame.qClosed, fun waited => frame.main.trans waited, Nat.le_of_eq frame.nextTicket.symm⟩
  | worker =>
    have frame := step_worker h actor
    exact ⟨frame.qClosed, fun waited => frame.main.trans waited, Nat.le_of_eq frame.nextTicket.symm⟩

section Teardown

variable (tear : TeardownInv p) (delivery : DeliveryInv p) (main : MainInv p.sys)
  (ops : ∀ st state, cfg.stageOpFor st state = true) {l : Label} {sys : Sys}
  (step : step cfg p.sys l = some sys)
include tear delivery main ops step

theorem TeardownInv.inLoop_of_step {ticket : Option ℕ} {rest : List StageName}
    (at_ : sys.thread = .tearingDown ticket rest) :
    p.Late ∧ ∀ st, st ∉ rest → needsStop st sys.log = false := by
  have stays : p.Late → ∀ st, needsStop st p.sys.log = false → needsStop st sys.log = false :=
    fun late st stopped => needsStop_false_of_step st main (tear.waited late) step stopped
  rcases (tearStep_of_step step).inLoop ticket rest at_ with
    same | ⟨dispatching, rfl⟩ | ⟨st, before, skipped⟩ | ⟨st, before⟩
  · obtain ⟨late, stopped⟩ := tear.inLoop ticket rest same
    exact ⟨late, fun st out => stays late st (stopped st out)⟩
  · have late := tear.held _ (.inr dispatching) rfl
    exact ⟨late, fun st out => absurd (StageName.mem_all st) out⟩
  · obtain ⟨late, stopped⟩ := tear.inLoop ticket (st :: rest) before
    refine ⟨late, fun other out => stays late other ?_⟩
    by_cases same : other = st
    · -- The teardown skipped the stage, so it did not have to be stopped.
      subst same
      have left : p.listener = .exited := tear.joined late.not_serving
      by_contra needs
      have running := running_of_replay (delivery.missed left)
        (delivery.started other (by simpa using needs))
      rw [Sys.settled, delivery.no_taskEvents (by rw [left]; rintro _ ⟨⟩), replay_nil] at running
      simp [tearsDown, running, ops other .stopped] at skipped
    · exact stopped other (by simp [same, out])
  · obtain ⟨late, -, stopped⟩ := tear.inStop ticket st rest before
    exact ⟨late, fun other out => stays late other (stopped other out)⟩

/-- A step of the controller that neither closes the queue nor submits a
teardown keeps the invariant. -/
theorem TeardownInv.of_step (open_ : l ≠ .closeQueue) (other : l ≠ .submit .teardown)
    (same : p'.sys = sys) (phase : p'.phase = p.phase)
    (joined : p.phase ≠ .serving → p'.listener = .exited) : TeardownInv p' := by
  obtain ⟨closed, waited, next⟩ := step_main_frame step open_
  have late : p'.Late ↔ p.Late := by rw [Process.Late, Process.Late, phase]
  subst same
  refine ⟨closed.trans tear.isOpen, ?_, ?_, ?_, ?_, ?_, ?_, ?_, ?_⟩
  · rw [phase]
    exact joined
  · exact fun now => waited (tear.waited (late.mp now))
  · intro entry holds teardown
    refine late.mpr ?_
    rcases holds_of_step step holds with old | ⟨act, rfl, rfl⟩ | ⟨-, free⟩
    · exact tear.held entry old teardown
    · cases teardown
      exact absurd rfl other
    · rw [teardown] at free
      cases free
  · intro ticket rest at_
    rw [late]
    exact tear.inLoop_of_step delivery main ops step at_
  · intro ticket st rest at_
    rw [late]
    rcases (tearStep_of_step step).inStop ticket st rest at_ with same | ⟨before, log⟩
    · obtain ⟨late, mine, stopped⟩ := tear.inStop ticket st rest same
      have stays := fun other stopped =>
        needsStop_false_of_step other main (tear.waited late) step stopped
      exact ⟨late, stays st mine, fun other out => stays other (stopped other out)⟩
    obtain ⟨late, stopped⟩ := tear.inLoop ticket (st :: rest) before
    rw [log]
    refine ⟨late, by simp [needsStop], fun other out => ?_⟩
    by_cases same : st = other
    · simp [needsStop, same]
    have ne : other ≠ st := fun eq => same eq.symm
    simp only [needsStop, if_neg same]
    exact stopped other (by simp [ne, out])
  · intro ticket at_
    rw [phase] at at_
    obtain ⟨before, mine⟩ := tear.mine ticket at_
    refine ⟨Nat.lt_of_lt_of_le before next, ?_⟩
    intro entry holds waits
    rcases holds_of_step step holds with old | ⟨act, rfl, rfl⟩ | ⟨none, -⟩
    · exact mine entry old waits
    · cases waits
      exact absurd before (Nat.lt_irrefl _)
    · rw [none] at waits
      cases waits
  · intro ticket at_
    rw [phase] at at_
    have stays := fun st stopped =>
      needsStop_false_of_step st main (tear.waited (.inl ⟨ticket, at_⟩)) step stopped
    have frame := tearStep_of_step step
    rintro (⟨r, replying⟩ | mem)
    · rcases frame.replying ticket r replying with same | before | ⟨act, dispatching, other⟩
      · exact fun st => stays st (tear.replied ticket at_ (.inl ⟨r, same⟩) st)
      · exact fun st => stays st ((tear.inLoop _ [] before).2 st not_mem_nil)
      · exact absurd ((tear.mine ticket at_).2 _ (.inr dispatching) rfl) other
    rcases frame.replied ticket mem with old | ⟨r, replying⟩
    · exact fun st => stays st (tear.replied ticket at_ (.inr old) st)
    · exact fun st => stays st (tear.replied ticket at_ (.inl ⟨r, replying⟩) st)
  intro done st
  rw [phase] at done
  exact needsStop_false_of_step st main (tear.waited (.inr done)) step (tear.done done st)

end Teardown

/-- The teardown is submitted with a fresh ticket. -/
theorem TeardownInv.submit (tear : TeardownInv p) (tickets : TicketInv p.sys) {sys : Sys}
    (at_ : p.phase = .joined) (waited : p.sys.main = .opsWaited)
    (step : step cfg p.sys (.submit .teardown) = some sys) :
    TeardownInv { p with sys, phase := .tearing p.sys.nextTicket } := by
  have left : p.listener = .exited := tear.joined (by rw [at_]; nofun)
  have early : ¬ p.Late := by rintro (⟨ticket, phase⟩ | phase) <;> rw [at_] at phase <;> cases phase
  have fresh : ¬ p.sys.Unanswered p.sys.nextTicket :=
    fun waits => Nat.lt_irrefl _ (tickets.old waits)
  have result := step_submit step tear.isOpen
  have holds_new := fun entry (holds : sys.Holds entry) => holds_of_step step holds
  subst result
  refine ⟨tear.isOpen, fun _ => left, fun _ => waited, fun _ _ _ => .inl ⟨_, rfl⟩, ?_, ?_,
    ?_, ?_, nofun⟩
  · intro ticket rest thread
    exact absurd (tear.inLoop ticket rest thread).1 early
  · intro ticket st rest thread
    exact absurd (tear.inStop ticket st rest thread).1 early
  · rintro ticket ⟨⟩
    refine ⟨Nat.lt_succ_self _, ?_⟩
    intro entry holds waits
    rcases holds_new entry holds with old | ⟨act, same, rfl⟩ | ⟨none, -⟩
    · exact absurd (old.unanswered waits) fresh
    · cases same
      rfl
    · rw [none] at waits
      cases waits
  rintro ticket ⟨⟩ done
  rcases done with ⟨r, thread⟩ | mem
  · have held : p.sys.thread = .replying (some p.sys.nextTicket) r := thread
    exact absurd (.inr (by rw [held]; rfl)) fresh
  · exact absurd (tickets.fresh _ (mem_append_right _ (mem_append_right _ mem)))
      (Nat.lt_irrefl _)

theorem TeardownInv.step (tear : TeardownInv p) (delivery : DeliveryInv p) (main : MainInv p.sys)
    (tickets : TicketInv p.sys) (ops : ∀ st state, cfg.stageOpFor st state = true)
    {l : ProcessLabel} (h : ProcessStep cfg p l p') : TeardownInv p' := by
  -- The listener moves only while the main thread has not joined it.
  have moves : ∀ {thread : ListenerThread}, p.listener = thread → thread ≠ .exited →
      p.phase ≠ .serving → False :=
    fun at_ other late => other (at_.symm.trans (tear.joined late))
  have outside : ∀ listener tasks signalled, (p.phase ≠ .serving → listener = .exited) →
      TeardownInv { p with listener, tasks, signalled } := fun _ _ _ joined =>
    ⟨tear.isOpen, joined, tear.waited, tear.held, tear.inLoop, tear.inStop, tear.mine,
      tear.replied, tear.done⟩
  cases h with
  | signalled => exact outside p.listener p.tasks true tear.joined
  | leaves | breaks => exact outside .exited p.tasks p.signalled fun _ => rfl
  | polls at_ => exact outside .polling p.tasks p.signalled fun late => (moves at_ nofun late).elim
  | timedOut at_ =>
    exact outside .checking p.tasks p.signalled fun late => (moves at_ nofun late).elim
  | delivers _ _ _ _ at_ step | delivered _ _ at_ step =>
    exact tear.of_step delivery main ops step nofun nofun rfl rfl
      fun late => (moves at_ nofun late).elim
  | joins at_ set left =>
    have early : ¬ p.Late := fun late => late.not_serving at_
    refine ⟨tear.isOpen, fun _ => left, ?_, ?_, ?_, ?_, nofun, nofun, nofun⟩
    · rintro (⟨ticket, tearing⟩ | done)
      · cases tearing
      · cases done
    · intro entry holds teardown
      exact absurd (tear.held entry holds teardown) early
    · intro ticket rest thread
      exact absurd (tear.inLoop ticket rest thread).1 early
    · intro ticket st rest thread
      exact absurd (tear.inStop ticket st rest thread).1 early
  | tears sys at_ waited isOpen step => exact tear.submit tickets at_ waited step
  | torn ticket sys at_ step =>
    have late : p.Late := .inl ⟨ticket, at_⟩
    have kept : TeardownInv { p with sys } :=
      tear.of_step delivery main ops step nofun nofun rfl rfl tear.joined
    have stopped := tear.replied ticket at_ (.inr (step_submitReturn step))
    refine ⟨kept.isOpen, fun _ => tear.joined late.not_serving, fun _ => kept.waited late,
      fun _ _ _ => .inr rfl, ?_, ?_, nofun, nofun, ?_⟩
    · intro ticket' rest thread
      exact ⟨.inr rfl, (kept.inLoop ticket' rest thread).2⟩
    · intro ticket' st rest thread
      exact ⟨.inr rfl, (kept.inStop ticket' st rest thread).2⟩
    · intro _ st
      exact needsStop_false_of_step st main (tear.waited late) step (stopped st)
  | controller l sys allowed step =>
    have open_ : l ≠ .closeQueue := by
      rintro rfl
      cases allowed
    have other : l ≠ .submit .teardown := by
      rintro rfl
      cases allowed
    exact tear.of_step delivery main ops step open_ other rfl rfl tear.joined

/-! ## The main result -/

theorem shutdownInv_of_reachable (reachable : (deliveringProcess cfg).Reachable p) :
    DeliveryInv p ∧ TeardownInv p := by
  refine reachable.induct (P := fun p => DeliveryInv p ∧ TeardownInv p) ?_ ?_
  · rintro p₀ ⟨singleStage, timeout, size, -, start⟩
    rw [start]
    refine ⟨⟨nofun, ?_, nofun⟩, ⟨rfl, fun late => absurd rfl late, ?_, ?_, nofun, nofun, nofun,
      nofun, nofun⟩⟩
    · rintro entry (mem | at_)
      · cases mem
      · cases at_
    · rintro (⟨ticket, phase⟩ | phase) <;> cases phase
    rintro entry (mem | at_)
    · cases mem
    · cases at_
  rintro a l b before h ⟨delivery, tear⟩
  obtain ⟨guard, h⟩ := Machine.restrict_step.mp h
  have run := before.of_restrict
  have sys := sys_reachable run
  have tickets := ticketInv_of_reachable sys
  have step := processStep_cases h
  exact ⟨delivery.step tear tickets guard step,
    tear.step delivery (mainInv_of_reachable sys) tickets (ops_of_reachable run) step⟩

/-- **No container survives a shutdown that loses no event of a start.** In every run in which the
listener leaves only when it has taken every event and no start succeeds after that, every stage
whose last operation is a start that succeeded has had its stop called when the teardown has
returned. -/
theorem containers_stopped (reachable : (deliveringProcess cfg).Reachable p) :
    ContainersStopped p := by
  obtain ⟨-, tear⟩ := shutdownInv_of_reachable reachable
  intro done later job earlier split start last
  by_contra notStopped
  have needs : needsStop job.stage p.sys.log = true := by
    rw [split]
    exact needsStop_of_split start last notStopped
  rw [tear.done done] at needs
  cases needs

/-! ## Two runs of the program -/

/-- The labels are steps of the controller that the rest of the process neither
guards nor sees. -/
def Unseen (ls : List Label) : Prop :=
  ∀ l ∈ ls, ∀ p : Process,
    p.allows l = true ∧ emitted p.sys l = [] ∧ losesNoStart p (.controller l) = true

/-- A run of such steps is a run of the process. -/
theorem exec_unseen {ls : List Label} (unseen : Unseen ls)
    (run : (system cfg).exec p.sys ls = some s') :
    (deliveringProcess cfg).exec p (ls.map .controller) = some { p with sys := s' } := by
  induction ls generalizing p with
  | nil =>
    cases run
    rfl
  | cons l ls ih =>
    obtain ⟨sys, step, rest⟩ := Machine.exec_cons_cases run
    obtain ⟨allowed, silent, guard⟩ := unseen l mem_cons_self p
    have first : (process cfg).step p (.controller l) = some { p with sys } := by
      have step : Controller.step cfg p.sys l = some sys := step
      simp only [process, processStep, allowed, if_true, step, map_some, silent, append_nil]
    have taken : (deliveringProcess cfg).step p (.controller l) = some { p with sys } :=
      Machine.restrict_step.mpr ⟨guard, first⟩
    rw [map_cons, Machine.exec_cons_of_step taken]
    exact ih (p := { p with sys }) (fun l' mem => unseen l' (mem_cons_of_mem l mem))
      rest

theorem unseen_firePass : Unseen firePass := by
  intro l mem p
  simp only [firePass, mem_cons, not_mem_nil, or_false] at mem
  rcases mem with rfl | rfl | rfl | rfl | rfl | rfl | rfl | rfl | rfl | rfl <;>
    exact ⟨rfl, rfl, rfl⟩

/-- The process after the first fire of the program. -/
def firedProcess (timeout : ℤ) : Process :=
  { Process.start runCore with
    sys := loopSys (afterFire (Sys.start runCore) (loopJob timeout 0)) 1 1 }

theorem exec_first_fire (ops : ∀ st state, cfg.stageOpFor st state = true) :
    (deliveringProcess cfg).exec (Process.start runCore) (firePass.map .controller) =
      some (firedProcess cfg.inflightTimeoutMs) :=
  exec_unseen unseen_firePass (exec_firePass ops (Sys.start runCore) 0)

/-- The main thread after the operations have returned. -/
def tearDownRun (stops : List Label) : List ProcessLabel :=
  [.controller .mainWaitReturn, .submitTeardown] ++
    ([Label.dequeue, .dispatch] ++ stops ++ [Label.tornDown, .reply]).map .controller ++
    [.teardownReturn]

/-- The start succeeds and its event is delivered before the signal. -/
def deliveredRun : List ProcessLabel :=
  [.controller .workerStart, .controller (.opReturn 0 true), .controller (.wgDone 0),
    .listenerCheck, .listenerEvent, .controller .dequeue, .controller .dispatch,
    .controller .reply, .listenerReturn, .signal, .listenerCheck, .join,
    .controller .mainBeginShutdown] ++
  tearDownRun [.tearDown, .stopReturn, .tearDown, .tearDown, .tearDown]

/-- The start succeeds after the listener has left. -/
def lostRun : List ProcessLabel :=
  [.controller .workerStart, .signal, .listenerCheck, .join, .controller .mainBeginShutdown,
    .controller (.opReturn 0 true), .controller (.wgDone 0)] ++
  tearDownRun [.tearDown, .tearDown, .tearDown, .tearDown]

/-- A shutdown after a start whose event was delivered. -/
theorem containers_stopped_delivered :
    ∃ cfg p job, (deliveringProcess cfg).Reachable p ∧ p.phase = .tornDown ∧
      .opReturned job true ∈ p.sys.log ∧ job.target = .running ∧ ContainersStopped p := by
  obtain ⟨⟨hasOp, pathRoutes, controlRoutes, timeout, positive⟩, accepted, ops, -⟩ :=
    controllerNew_run false 1000 16 (by decide) (by decide)
  -- With the operations a constant function the run evaluates.
  obtain rfl : hasOp = fun _ _ => true := funext fun st => funext fun state => ops st state
  obtain ⟨p, run, done, log⟩ : ∃ p,
      (deliveringProcess ⟨fun _ _ => true, pathRoutes, controlRoutes, timeout, positive⟩).exec
        (firedProcess timeout) deliveredRun = some p ∧ p.phase = .tornDown ∧
      p.sys.log = [.submitReturned 1, .handled (some 1), .stopReturned .mediaMtx,
        .stopInvoked .mediaMtx, .submitReturned 0, .handled (some 0), .stageHandled .mediaMtx] ++
        .opReturned (loopJob timeout 0) true :: fireEvents (loopJob timeout 0) :=
    ⟨_, rfl, by rfl, by rfl⟩
  have reachable : (deliveringProcess _).Reachable p :=
    ⟨Process.start runCore, ⟨false, 1000, 16, accepted, rfl⟩,
      .trans ⟨_, exec_first_fire ops⟩ ⟨_, run⟩⟩
  exact ⟨_, p, loopJob timeout 0, reachable, done, by rw [log]; simp, rfl,
    containers_stopped reachable⟩

/-- **A container survives a shutdown.** Not every stage that was started last is stopped: the
listener leaves at the signal, the start that is in flight succeeds, and the teardown skips the
stage. -/
theorem shutdown_leaves_container :
    ¬ ∀ (cfg : Config) (p : Process), (process cfg).Reachable p → ContainersStopped p := by
  intro claim
  obtain ⟨cfg, accepted, ops, -⟩ := controllerNew_run false 1000 16 (by decide) (by decide)
  obtain ⟨p, run, done, log⟩ : ∃ p,
      (process cfg).exec (firedProcess cfg.inflightTimeoutMs) lostRun = some p ∧
      p.phase = .tornDown ∧
      p.sys.log = [.submitReturned 0, .handled (some 0)] ++
        .opReturned (loopJob cfg.inflightTimeoutMs 0) true ::
          fireEvents (loopJob cfg.inflightTimeoutMs 0) :=
    ⟨_, rfl, by rfl, by rfl⟩
  have fired : (deliveringProcess cfg).Reachable (firedProcess cfg.inflightTimeoutMs) :=
    ⟨Process.start runCore, ⟨false, 1000, 16, accepted, rfl⟩, ⟨_, exec_first_fire ops⟩⟩
  have stopped := claim cfg p (fired.of_restrict.leads ⟨_, run⟩) done _ _ _ log rfl (by simp)
  simp at stopped

end Strimserver.Controller
