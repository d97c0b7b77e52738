import Mathlib.Data.Finset.Erase
import Strimserver.Controller.Coalesce
import Strimserver.Library.Condition

/-!
# One condition variable for the queue and the replies

The queue thread sleeps on `q_cond` while the queue is empty, and every submitter sleeps
on the same variable until its reply is set. `enqueue_locked` signals, which wakes any
one of them; `run_action` and `strim_controller_close` broadcast. `Monitor` is the
controller with the wait set of `q_cond` and a record of the calls of `queue_submit`.

A signal is not lost because the queue thread sleeps only alone. A submitter sleeps only
while its action is on the queue or with the queue thread, and then the queue thread has
a step to take.
-/

namespace Strimserver.Controller

open Library Condition List

variable {cfg : Config} {s s' : Sys} {l : Label}

/-! ## The wait set -/

/-- The threads that sleep on `q_cond`. -/
inductive Sleeper where
  | queueThread
  | submitter (ticket : ℕ)
  deriving DecidableEq

/-- What `queue_submit` returns. -/
inductive Returned where
  /-- `STRIM_CTRL_ERR_CLOSED`, at its head. -/
  | closed
  /-- The `reply_result` of the action. -/
  | result (r : Result)

/-- A call of `queue_submit`. -/
structure SubmitCall where
  act : Action
  /-- Its ticket, unless it was refused. -/
  ticket : Option ℕ
  /-- The actions that the queue thread has run for it. -/
  ran : List Action
  /-- What was written to its `reply_result`. -/
  results : List Result
  returned : List Returned

/-- The controller with the wait set of `q_cond` and the calls of `queue_submit`. -/
structure Monitor where
  sys : Sys
  waiting : Finset Sleeper
  calls : List SubmitCall

/-- The steps of threads that sleep. -/
inductive MonitorLabel where
  /-- A step of the controller, with the threads that it wakes. -/
  | run (l : Label) (woken : Finset Sleeper)
  /-- A thread finds nothing to do and goes to sleep. -/
  | sleep (who : Sleeper)
  /-- A thread wakes up on its own. -/
  | wake (who : Sleeper)

/-- What a step does to `q_cond`. -/
def Sys.notifies (s : Sys) : Label → Notify
  | .submit _ => if s.qClosed then .nothing else .signal
  | .requestReconcile allocated =>
    if allocated = false ∨ s.qClosed = true ∨ s.reconcileQueued = true then .nothing else .signal
  | .enqueueClear _ allocated => if allocated = false ∨ s.qClosed = true then .nothing else .signal
  | .closeQueue => .broadcast
  | .reply =>
    match s.thread with
    | .replying (some _) _ => .broadcast
    | _ => .nothing
  | _ => .nothing

def SubmitCall.change (ticket : Option ℕ) (f : SubmitCall → SubmitCall) (call : SubmitCall) :
    SubmitCall :=
  if ticket.isSome = true ∧ call.ticket = ticket then f call else call

/-- What a step does to the calls that are there. -/
def Sys.change (s : Sys) : Label → SubmitCall → SubmitCall
  | .dispatch =>
    match s.thread with
    | .dispatching entry =>
      .change entry.ticket fun call => { call with ran := entry.act :: call.ran }
    | _ => id
  | .reply =>
    match s.thread with
    | .replying ticket result =>
      .change ticket fun call => { call with results := result :: call.results }
    | _ => id
  | .submitReturn ticket =>
    .change (some ticket) fun call =>
      { call with returned := (call.results.head?.map .result).toList ++ call.returned }
  | _ => id

def Sys.begins (s : Sys) : Label → List SubmitCall
  | .submit act =>
    if s.qClosed then [⟨act, none, [], [], [.closed]⟩]
    else [⟨act, some s.nextTicket, [], [], []⟩]
  | _ => []

/-- The calls after a step. -/
def Sys.record (s : Sys) (calls : List SubmitCall) (l : Label) : List SubmitCall :=
  s.begins l ++ calls.map (s.change l)

namespace Monitor

/-- The thread that takes the step is asleep. -/
def sleeps (m : Monitor) : Label → Bool
  | .submitReturn ticket => decide (.submitter ticket ∈ m.waiting)
  | l => l.isLoop && decide (.queueThread ∈ m.waiting)

/-- A submitter goes to sleep in the section in which it has put its action on the
queue. -/
def enters (m : Monitor) (left : Finset Sleeper) : Label → Finset Sleeper
  | .submit _ => if m.sys.qClosed then left else insert (.submitter m.sys.nextTicket) left
  | _ => left

/-- A step of the monitor. -/
def step (cfg : Config) (m : Monitor) : MonitorLabel → Option Monitor
  | .run l woken =>
    if m.sleeps l then none
    else
      (Controller.step cfg m.sys l).bind fun s =>
        ((m.sys.notifies l).left m.waiting woken).map fun left =>
          ⟨s, m.enters left l, m.sys.record m.calls l⟩
  | .sleep .queueThread =>
    match m.sys.thread, m.sys.queue with
    | .idle, [] =>
      if m.sys.qClosed = false ∧ .queueThread ∉ m.waiting then
        some { m with waiting := insert .queueThread m.waiting }
      else none
    | _, _ => none
  | .sleep (.submitter ticket) =>
    -- `reply_done` is not set.
    if ticket ∈ m.sys.outstanding ∧ ticket ∉ m.sys.replied ∧ .submitter ticket ∉ m.waiting then
      some { m with waiting := insert (.submitter ticket) m.waiting }
    else none
  | .wake who => if who ∈ m.waiting then some { m with waiting := m.waiting.erase who } else none

end Monitor

/-- The machine of the controller with the wait set. -/
def monitor (cfg : Config) : Machine Monitor MonitorLabel where
  initial m := (system cfg).initial m.sys ∧ m.waiting = ∅ ∧ m.calls = []
  step := Monitor.step cfg

/-! ## What a step does to the tickets -/

/-- The ticket of the action that the queue thread has taken and not yet run. -/
def QueueThread.taken : QueueThread → Option ℕ
  | .dispatching entry => entry.ticket
  | _ => none

/-- The steps that have to do with a ticket. -/
def Label.ticketed : Label → Bool
  | .submit _ => true
  | .dispatch => true
  | .reply => true
  | .submitReturn _ => true
  | _ => false

/-- What a step does to the tickets. -/
inductive TicketMove (s : Sys) : Label → Sys → Prop where
  /-- Nothing: only actions without a ticket are queued. -/
  | still {l : Label} {s' : Sys} (more : List Entry) (queue : s'.queue = s.queue ++ more)
      (plain : ∀ entry ∈ more, entry.ticket = none) (silent : s.notifies l = .nothing → more = [])
      (ticket : s'.thread.ticket = s.thread.ticket) (taken : s'.thread.taken = s.thread.taken)
      (dispatching : ∀ entry, s'.thread = .dispatching entry → s.thread = .dispatching entry)
      (replied : s'.replied = s.replied) (next : s'.nextTicket = s.nextTicket)
      (other : l.ticketed = false) : TicketMove s l s'
  | refused (act : Action) (closed : s.qClosed = true) : TicketMove s (.submit act) s
  | submitted (act : Action) (isOpen : s.qClosed = false) :
      TicketMove s (.submit act) { s.enqueueLocked ⟨act, some s.nextTicket⟩ with
        nextTicket := s.nextTicket + 1 }
  | dequeued (entry : Entry) (rest : List Entry) (at_ : s.thread = .idle)
      (queue : s.queue = entry :: rest) :
      TicketMove s .dequeue { s with
        queue := rest
        reconcileQueued := if entry.act = .reconcile then false else s.reconcileQueued
        thread := .dispatching entry }
  | dispatched {s' : Sys} (entry : Entry) (at_ : s.thread = .dispatching entry)
      (queue : s'.queue = s.queue) (ticket : s'.thread.ticket = entry.ticket)
      (taken : s'.thread.taken = none) (dispatching : ∀ entry, s'.thread ≠ .dispatching entry)
      (replied : s'.replied = s.replied) (next : s'.nextTicket = s.nextTicket) :
      TicketMove s .dispatch s'
  | replied (ticket : Option ℕ) (result : Result) (at_ : s.thread = .replying ticket result) :
      TicketMove s .reply { s with thread := .idle, replied := ticket.toList ++ s.replied }
  | returned (ticket : ℕ) (member : ticket ∈ s.replied) :
      TicketMove s (.submitReturn ticket) { s with
        replied := s.replied.erase ticket, log := .submitReturned ticket :: s.log }

/-- A step of the queue thread inside an action. -/
theorem TicketMove.of_thread {thread : QueueThread} (at_ : s.thread = thread)
    (queue : s'.queue = s.queue) (ticket : s'.thread.ticket = thread.ticket)
    (taken : s'.thread.taken = thread.taken) (left : ∀ entry, s'.thread ≠ .dispatching entry)
    (replied : s'.replied = s.replied) (next : s'.nextTicket = s.nextTicket)
    (other : l.ticketed = false) : TicketMove s l s' :=
  .still [] (by rw [queue, append_nil]) nofun (fun _ => rfl) (at_ ▸ ticket) (at_ ▸ taken)
    (fun entry at_ => absurd at_ (left entry)) replied next other

theorem ticketMove_of_loop (queue : QueueInv s) (h : Controller.step cfg s l = some s')
    (actor : l.actor = .queueThread) : TicketMove s l s' := by
  have plain {ticket : Option ℕ} (at_ : s.thread = .dispatching ⟨.reconcile, ticket⟩) :
      ticket = none := queue.unticketed _ (.inr at_) rfl
  cases loopMove_of_step h actor with
  | dequeued entry rest at_ front => exact .dequeued entry rest at_ front
  | handled _ _ _ _ at_ | passSkipped _ at_ | tearStarted _ at_ =>
    exact .dispatched _ at_ rfl rfl rfl nofun rfl rfl
  | passStarted ticket at_ => exact .dispatched _ at_ rfl (plain at_).symm rfl nofun rfl rfl
  | replied ticket result at_ => exact .replied ticket result at_
  | _ =>
    apply TicketMove.of_thread ‹s.thread = _›
    all_goals first | rfl | nofun

/-- A step that leaves the queue and its thread alone. -/
theorem TicketMove.of_same (queue : s'.queue = s.queue) (thread : s'.thread = s.thread)
    (replied : s'.replied = s.replied) (next : s'.nextTicket = s.nextTicket)
    (other : l.ticketed = false) : TicketMove s l s' := by
  refine .still [] (by rw [queue, append_nil]) nofun (fun _ => rfl) ?_ ?_ ?_ replied next other
  · rw [thread]
  · rw [thread]
  · rw [thread]
    exact fun _ => id

theorem ticketMove_of_submitter (h : Controller.step cfg s l = some s')
    (actor : l.actor = .submitter) : TicketMove s l s' := by
  cases submitterStep_of_step h actor with
  | refused l closed other =>
    cases l with
    | submit act => exact .refused act (closed act rfl)
    | submitReturn ticket => exact absurd rfl (other ticket)
    | dispatch => cases actor
    | reply => cases actor
    | _ => exact .of_same rfl rfl rfl rfl rfl
  | submitted act blocking isOpen => exact .submitted act isOpen
  | returned ticket mem => exact .returned ticket mem
  | requested isOpen absent =>
    refine .still [⟨.reconcile, none⟩] rfl (by simp) ?_ rfl rfl (fun _ => id) rfl rfl rfl
    simp [Sys.notifies, isOpen, absent]
  | flagged l kind =>
    refine .of_same rfl rfl rfl rfl ?_
    rcases kind with rfl | rfl <;> rfl
  | _ => exact .of_same rfl rfl rfl rfl rfl

theorem ticketMove_of_worker (h : Controller.step cfg s l = some s') (actor : l.actor = .worker) :
    TicketMove s l s' := by
  have other : l.ticketed = false := by cases l <;> first | rfl | cases actor
  cases workerMove_of_step h actor with
  | cleared i job at_ isOpen =>
    refine .still [⟨.clearInflight job.stage job.generation, none⟩] rfl (by simp) ?_ rfl rfl
      (fun _ => id) rfl rfl other
    simp [Sys.notifies, isOpen]
  | _ => exact .of_same rfl rfl rfl rfl other

/-- **What a step does to the tickets.** -/
theorem ticketMove_of_step (queue : QueueInv s) (h : Controller.step cfg s l = some s') :
    TicketMove s l s' := by
  cases actor : l.actor with
  | submitter => exact ticketMove_of_submitter h actor
  | queueThread => exact ticketMove_of_loop queue h actor
  | worker => exact ticketMove_of_worker h actor

/-! ## Sleepers -/

/-- A ticket without a reply is on the queue or with the queue thread. -/
theorem Sys.Unanswered.busy {t : ℕ} (waits : s.Unanswered t) (thread : s.thread.ticket = none) :
    s.queue ≠ [] := by
  intro queue
  unfold Sys.Unanswered Sys.tickets at waits
  rw [thread, queue] at waits
  rcases waits with queued | held
  · cases queued
  · cases held

/-- A ticket stays without a reply until the queue thread sets it, and then keeps it. -/
theorem TicketMove.unanswered (move : TicketMove s l s') (t : ℕ) : (s.Unanswered t →
      s'.Unanswered t ∨ l = .reply ∧ ∃ result, s.thread = .replying (some t) result) ∧
    (s'.Unanswered t → t < s.nextTicket → s.Unanswered t) := by
  have of_same (same : s'.Unanswered t ↔ s.Unanswered t) : (s.Unanswered t →
        s'.Unanswered t ∨ l = .reply ∧ ∃ result, s.thread = .replying (some t) result) ∧
      (s'.Unanswered t → t < s.nextTicket → s.Unanswered t) :=
    ⟨fun waits => .inl (same.mpr waits), fun waits _ => same.mp waits⟩
  unfold Sys.Unanswered Sys.tickets at *
  cases move with
  | still more queue plain silent ticket =>
    refine of_same ?_
    rw [queue, ticket, filterMap_append, filterMap_eq_nil_iff.mpr plain, append_nil]
  | refused | returned => exact of_same Iff.rfl
  | submitted act =>
    have queued : t ∈ (s.queue ++ [(⟨act, some s.nextTicket⟩ : Entry)]).filterMap Entry.ticket ↔
        t ∈ s.queue.filterMap Entry.ticket ∨ t = s.nextTicket := by
      rw [filterMap_append, mem_append]
      exact or_congr_right mem_singleton
    refine ⟨fun waits => .inl (waits.imp_left fun mem => queued.mpr (.inl mem)), ?_⟩
    exact fun waits old => waits.imp_left fun mem => (queued.mp mem).resolve_right old.ne
  | dequeued entry rest at_ queue =>
    refine of_same ?_
    rw [queue, at_, filterMap_cons]
    show _ ∨ entry.ticket = some t ↔ _ ∨ none = some t
    cases entry.ticket with
    | none => rfl
    | some => simp [or_comm, eq_comm]
  | dispatched entry at_ queue ticket =>
    refine of_same ?_
    rw [queue, ticket, at_]
    rfl
  | replied ticket result at_ =>
    refine ⟨fun waits => ?_, fun waits _ => .inl (waits.resolve_right nofun)⟩
    rcases waits with mem | held
    · exact .inl (.inl mem)
    rw [at_] at held
    obtain rfl : ticket = some t := held
    exact .inr ⟨rfl, result, at_⟩

/-- The queue thread takes a step when it is awake. -/
theorem Monitor.sleeps_of_loop (m : Monitor) (loop : l.isLoop = true) :
    m.sleeps l = decide (.queueThread ∈ m.waiting) := by
  unfold Monitor.sleeps
  split
  · cases loop
  · rw [loop, Bool.true_and]

/-- Who sleeps: the queue thread alone and with an empty queue, and submitters without a
reply. -/
structure WaitInv (m : Monitor) : Prop where
  sole : Sole .queueThread m.waiting
  idle : .queueThread ∈ m.waiting → m.sys.thread = .idle ∧ m.sys.queue = []
  unanswered : ∀ t, .submitter t ∈ m.waiting → m.sys.Unanswered t

namespace WaitInv

variable {m : Monitor}

/-- While a submitter has no reply, the queue thread does not sleep. -/
theorem awake (inv : WaitInv m) {t : ℕ} (waits : m.sys.Unanswered t) :
    .queueThread ∉ m.waiting := by
  intro asleep
  obtain ⟨thread, queue⟩ := inv.idle asleep
  exact waits.busy (by rw [thread]; rfl) queue

theorem sleep_queueThread (inv : WaitInv m) (thread : m.sys.thread = .idle)
    (queue : m.sys.queue = []) : WaitInv { m with waiting := insert .queueThread m.waiting } := by
  -- A submitter that slept would have its action on the queue or with the queue thread.
  have nobody : ∀ who ∈ m.waiting, who = .queueThread := by
    intro who mem
    cases who with
    | queueThread => rfl
    | submitter t => exact absurd queue ((inv.unanswered t mem).busy (by rw [thread]; rfl))
  have sub : m.waiting ⊆ {.queueThread} := fun who mem => Finset.mem_singleton.mpr (nobody who mem)
  refine ⟨fun _ => ?_, fun _ => ⟨thread, queue⟩, fun t mem => ?_⟩
  · exact Finset.Subset.antisymm (Finset.insert_subset (Finset.mem_singleton_self _) sub)
      (Finset.singleton_subset_iff.mpr (Finset.mem_insert_self _ _))
  rcases Finset.mem_insert.mp mem with same | asleep
  · cases same
  · exact inv.unanswered t asleep

/-- A submitter goes to sleep while the queue thread is awake. -/
theorem of_submitter {left : Finset Sleeper} {calls : List SubmitCall} {t : ℕ}
    (awake : .queueThread ∉ left) (waits : s.Unanswered t)
    (others : ∀ t', .submitter t' ∈ left → s.Unanswered t') :
    WaitInv ⟨s, insert (.submitter t) left, calls⟩ := by
  have awake : .queueThread ∉ insert (.submitter t) left := by
    rw [Finset.mem_insert, not_or]
    exact ⟨nofun, awake⟩
  refine ⟨.of_notMem awake, fun asleep => absurd asleep awake, fun t' mem => ?_⟩
  rcases Finset.mem_insert.mp mem with same | asleep
  · cases same
    exact waits
  · exact others t' asleep

theorem wake (inv : WaitInv m) (who : Sleeper) :
    WaitInv { m with waiting := m.waiting.erase who } := by
  have less := Finset.erase_subset who m.waiting
  exact ⟨inv.sole.subset less, fun asleep => inv.idle (less asleep),
    fun t asleep => inv.unanswered t (less asleep)⟩

/-- A step of the controller, with the threads that it leaves asleep. -/
theorem run (inv : WaitInv m) {left : Finset Sleeper} {woken : Finset Sleeper}
    (queue : QueueInv m.sys) (h : Controller.step cfg m.sys l = some s')
    (awake : m.sleeps l = false) (notified : (m.sys.notifies l).left m.waiting woken = some left) :
    WaitInv ⟨s', m.enters left l, m.sys.record m.calls l⟩ := by
  have move := ticketMove_of_step queue h
  have less := left_subset notified
  -- What the submitters that sleep on wait for.
  have waits (t : ℕ) (asleep : .submitter t ∈ left) : s'.Unanswered t := by
    refine ((move.unanswered t).1 (inv.unanswered t (less asleep))).resolve_right ?_
    rintro ⟨rfl, result, at_⟩
    have kind : m.sys.notifies .reply = .broadcast := by
      unfold Sys.notifies
      rw [at_]
    rw [kind] at notified
    rw [left_of_broadcast notified] at asleep
    cases asleep
  by_cases submit : ∃ act, l = .submit act ∧ m.sys.qClosed = false
  · obtain ⟨act, rfl, isOpen⟩ := submit
    have unclosed : ¬ m.sys.qClosed = true := by rw [isOpen]; decide
    have kind : m.sys.notifies (.submit act) = .signal := if_neg unclosed
    rw [kind] at notified
    have entered : m.enters left (.submit act) = insert (.submitter m.sys.nextTicket) left :=
      if_neg unclosed
    obtain rfl := step_submit h isOpen
    rw [entered]
    refine of_submitter (inv.sole.notMem_of_signal notified) (.inl ?_) waits
    show m.sys.nextTicket ∈ (m.sys.queue ++ [_]).filterMap Entry.ticket
    rw [filterMap_append]
    exact mem_append_right _ (mem_singleton_self _)
  have entered : m.enters left l = left := by
    cases l with
    | submit act =>
      refine if_pos ?_
      by_contra isOpen
      exact submit ⟨act, rfl, Bool.eq_false_iff.mpr isOpen⟩
    | _ => rfl
  rw [entered]
  refine ⟨inv.sole.subset less, fun asleep => ?_, waits⟩
  obtain ⟨thread, empty⟩ := inv.idle (less asleep)
  have other : l.isLoop = false := by
    by_contra loop
    rw [m.sleeps_of_loop (by simpa using loop), decide_eq_true (less asleep)] at awake
    cases awake
  refine ⟨(step_other h other).1.trans thread, ?_⟩
  -- A signal would have woken the queue thread.
  rcases kind : m.sys.notifies l with _ | _ | _
  · cases move with
    | still more queue plain silent => rw [queue, silent kind, empty, append_nil]
    | refused | returned => exact empty
    | submitted act isOpen => exact absurd ⟨act, rfl, isOpen⟩ submit
    | dequeued | dispatched | replied => cases other
  · rw [kind] at notified
    exact absurd asleep (inv.sole.notMem_of_signal notified)
  rw [kind] at notified
  rw [left_of_broadcast notified] at asleep
  cases asleep

end WaitInv

/-! ## Runs of the monitor -/

section

variable {m m' : Monitor} {woken : Finset Sleeper}

theorem monitor_run_of (awake : m.sleeps l = false) (step : Controller.step cfg m.sys l = some s')
    {left : Finset Sleeper} (notified : (m.sys.notifies l).left m.waiting woken = some left) :
    (monitor cfg).step m (.run l woken) = some ⟨s', m.enters left l, m.sys.record m.calls l⟩ := by
  show (if m.sleeps l = true then none
      else (Controller.step cfg m.sys l).bind fun s =>
        ((m.sys.notifies l).left m.waiting woken).map fun left =>
          (⟨s, m.enters left l, m.sys.record m.calls l⟩ : Monitor)) = _
  rw [awake, step, Option.bind_some, notified]
  rfl

/-- What a step of the monitor does. -/
inductive MonitorMove (cfg : Config) (m : Monitor) : MonitorLabel → Monitor → Prop where
  | ran (l : Label) (woken : Finset Sleeper) (s' : Sys) (left : Finset Sleeper)
      (awake : m.sleeps l = false) (step : Controller.step cfg m.sys l = some s')
      (notified : (m.sys.notifies l).left m.waiting woken = some left) :
      MonitorMove cfg m (.run l woken) ⟨s', m.enters left l, m.sys.record m.calls l⟩
  | queueThreadSlept (thread : m.sys.thread = .idle) (queue : m.sys.queue = []) :
      MonitorMove cfg m (.sleep .queueThread)
        { m with waiting := insert .queueThread m.waiting }
  | submitterSlept (ticket : ℕ) (outstanding : ticket ∈ m.sys.outstanding)
      (waits : ticket ∉ m.sys.replied) :
      MonitorMove cfg m (.sleep (.submitter ticket))
        { m with waiting := insert (.submitter ticket) m.waiting }
  | woke (who : Sleeper) :
      MonitorMove cfg m (.wake who) { m with waiting := m.waiting.erase who }

theorem monitorMove_of_step {label : MonitorLabel} (h : (monitor cfg).step m label = some m') :
    MonitorMove cfg m label m' := by
  simp only [monitor] at h
  cases label with
  | run l woken =>
    simp only [Monitor.step] at h
    split at h
    · cases h
    rename_i awake
    obtain ⟨s', step, h⟩ := Option.bind_eq_some_iff.mp h
    obtain ⟨left, notified, rfl⟩ := Option.map_eq_some_iff.mp h
    exact .ran l woken s' left (Bool.eq_false_iff.mpr awake) step notified
  | sleep who =>
    cases who with
    | queueThread =>
      simp only [Monitor.step] at h
      split at h
      · rename_i thread queue
        split at h <;> cases h
        exact .queueThreadSlept thread queue
      · cases h
    | submitter ticket =>
      simp only [Monitor.step] at h
      split at h <;> cases h
      rename_i allowed
      exact .submitterSlept ticket allowed.1 allowed.2.1
  | wake who =>
    simp only [Monitor.step] at h
    split at h <;> cases h
    exact .woke who

/-- A run of the monitor is a run of the controller. -/
theorem reachable_sys (reachable : (monitor cfg).Reachable m) : (system cfg).Reachable m.sys := by
  refine reachable.induct (P := fun m => (system cfg).Reachable m.sys)
    (fun _ first => .initial first.1) ?_
  intro a l b _ h before
  cases monitorMove_of_step h with
  | ran l woken s' left awake step => exact before.step step
  | _ => exact before

theorem Sys.unanswered_of_outstanding {t : ℕ} (outstanding : t ∈ s.outstanding)
    (waits : t ∉ s.replied) : s.Unanswered t := by
  rcases mem_append.mp outstanding with queued | rest
  · exact .inl queued
  rcases mem_append.mp rest with held | replied
  · exact .inr (Option.mem_toList.mp held)
  · exact absurd replied waits

theorem waitInv_of_reachable (reachable : (monitor cfg).Reachable m) : WaitInv m := by
  refine reachable.induct ?_ ?_
  · rintro m₀ ⟨-, waiting, -⟩
    have nobody (who : Sleeper) : who ∉ m₀.waiting := by
      rw [waiting]
      exact Finset.notMem_empty who
    exact ⟨.of_notMem (nobody _), fun asleep => absurd asleep (nobody _),
      fun t asleep => absurd asleep (nobody _)⟩
  intro a l b before h inv
  cases monitorMove_of_step h with
  | ran l woken s' left awake step notified =>
    exact inv.run (queueInv_of_reachable (reachable_sys before)) step awake notified
  | queueThreadSlept thread queue => exact inv.sleep_queueThread thread queue
  | submitterSlept t outstanding waits =>
    have waits := Sys.unanswered_of_outstanding outstanding waits
    exact .of_submitter (inv.awake waits) waits inv.unanswered
  | woke who => exact inv.wake who

end

end Strimserver.Controller
