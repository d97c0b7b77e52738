import Strimserver.Controller.Queue
import Strimserver.Controller.Rounds
import Strimserver.Library.Trace

/-!
# Reconcile requests are coalesced and not lost

`request_reconcile` puts a reconcile action on the queue unless one is already
there, which the flag `reconcile_queued` records; the queue thread clears the
flag when it takes the action, before it runs it. So the flag is set exactly
when the queue holds one reconcile action, and a request that was made while the
queue was open waits for a pass that has not started: `Waiting`.

The queue thread leaves its loop only when the queue is closed and empty, so
every such request is followed by the start of a pass before `run` returns, and
that pass comes after the handler of every action whose submit had returned
before the request (`reconcile_not_lost`). It starts after a bounded number of
steps of the queue thread, which has a step to take in every state in which a
request waits.
-/

namespace Strimserver.Controller

open Library List

variable {cfg : Config} {s s' : Sys}

/-! ## The flag and the queue -/

/-- How many reconcile actions a queue holds. -/
def reconciles (queue : List Entry) : ℕ := queue.countP Entry.isReconcile

theorem reconciles_append (first second : List Entry) :
    reconciles (first ++ second) = reconciles first + reconciles second :=
  countP_append

variable {queue : List Entry}

theorem reconciles_cons (entry : Entry) (queue : List Entry) :
    reconciles (entry :: queue) = reconciles queue + if entry.isReconcile then 1 else 0 :=
  countP_cons

/-- The invariant of the queue: the flag counts the reconcile actions, the loop
is left only when nothing can be queued any more, and nobody waits for a
reconcile action. -/
structure QueueInv (s : Sys) : Prop where
  flag : reconciles s.queue = if s.reconcileQueued then 1 else 0
  left : s.thread = .returned → s.queue = [] ∧ s.qClosed = true
  unticketed : ∀ entry, entry ∈ s.queue ∨ s.thread = .dispatching entry →
    entry.isReconcile = true → entry.ticket = none

variable {l : Label}

/-- One more entry behind the others, as long as the queue is open. -/
theorem QueueInv.append (inv : QueueInv s) (isOpen : s.qClosed = false) (entry : Entry)
    (free : entry.isReconcile = true → entry.ticket = none) :
    (s.thread = .returned → s.queue ++ [entry] = [] ∧ s.qClosed = true) ∧
      ∀ other, other ∈ s.queue ++ [entry] ∨ s.thread = .dispatching other →
        other.isReconcile = true → other.ticket = none := by
  constructor
  · intro returned
    have closed := (inv.left returned).2
    rw [isOpen] at closed
    cases closed
  rintro other (mem | at_) reconcile
  · rcases mem_append.mp mem with old | new
    · exact inv.unticketed other (.inl old) reconcile
    rw [mem_singleton] at new
    subst new
    exact free reconcile
  · exact inv.unticketed other (.inr at_) reconcile

theorem QueueInv.submitter_step (inv : QueueInv s) (h : SubmitterStep s l s') : QueueInv s' := by
  cases h with
  | refused => exact inv
  | submitted act blocking isOpen =>
    have plain : Entry.isReconcile ⟨act, some s.nextTicket⟩ = false := by
      cases act <;> first | rfl | cases blocking
    obtain ⟨left, unticketed⟩ := inv.append isOpen ⟨act, some s.nextTicket⟩ fun reconcile =>
      absurd (plain.symm.trans reconcile) nofun
    refine ⟨?_, left, unticketed⟩
    show reconciles (s.queue ++ [_]) = _
    rw [reconciles_append, inv.flag, reconciles_cons, plain]
    rfl
  | returned | coalesced | flagged | mainFlagged | mainWaited =>
    exact ⟨inv.flag, inv.left, inv.unticketed⟩
  | requested isOpen absent =>
    obtain ⟨left, unticketed⟩ := inv.append isOpen ⟨.reconcile, none⟩ fun _ => rfl
    refine ⟨?_, left, unticketed⟩
    show reconciles (s.queue ++ [_]) = _
    rw [reconciles_append, inv.flag, absent]
    rfl
  | closed => exact ⟨inv.flag, fun returned => ⟨(inv.left returned).1, rfl⟩, inv.unticketed⟩

theorem QueueInv.loop_step (inv : QueueInv s) (h : LoopStep s s') : QueueInv s' := by
  cases h with
  | dequeued entry rest at_ queue =>
    have flag := inv.flag
    rw [queue, reconciles_cons] at flag
    refine ⟨?_, by rintro ⟨⟩, ?_⟩
    · -- The flag is cleared with the removal of the one reconcile action.
      by_cases reconcile : entry.act = .reconcile
      · have head : entry.isReconcile = true := by simpa [Entry.isReconcile] using reconcile
        rw [head, if_pos rfl] at flag
        rw [if_pos reconcile]
        show reconciles rest = 0
        split at flag <;> omega
      have head : entry.isReconcile = false := by simpa [Entry.isReconcile] using reconcile
      rw [head] at flag
      rw [if_neg reconcile]
      simpa using flag
    rintro entry' (mem | at_') reconcile
    · exact inv.unticketed entry' (.inl (queue ▸ mem_cons_of_mem _ mem)) reconcile
    · cases at_'
      exact inv.unticketed entry (.inl (queue ▸ mem_cons_self)) reconcile
  | left at_ empty closed =>
    refine ⟨inv.flag, fun _ => ⟨empty, closed⟩, ?_⟩
    rintro entry (mem | at_') reconcile
    · exact inv.unticketed entry (.inl mem) reconcile
    · cases at_'
  | inner events _ inner =>
    refine ⟨?_, fun returned => absurd returned inner.loop, ?_⟩
    · rw [inner.queue, inner.flag]
      exact inv.flag
    rintro entry (mem | at_) reconcile
    · exact inv.unticketed entry (.inl (inner.queue ▸ mem)) reconcile
    · exact absurd at_ (inner.dispatched entry)
  | replied =>
    refine ⟨inv.flag, by rintro ⟨⟩, ?_⟩
    rintro entry (mem | at_') reconcile
    · exact inv.unticketed entry (.inl mem) reconcile
    · cases at_'

theorem QueueInv.worker_step (inv : QueueInv s) (frame : WorkerFrame s s')
    (h : WorkerQueueStep s s') : QueueInv s' := by
  obtain ⟨clears, queue, clear, closedNone⟩ := h.queue
  have none : ∀ entry ∈ clears, entry.isReconcile = false := by
    intro entry mem
    obtain ⟨st, g, rfl⟩ := clear entry mem
    rfl
  have zero : reconciles clears = 0 := countP_eq_zero.mpr fun entry mem => by simp [none entry mem]
  refine ⟨?_, ?_, ?_⟩
  · rw [queue, frame.reconcileQueued, reconciles_append, zero]
    exact inv.flag
  · intro returned
    rw [frame.thread] at returned
    obtain ⟨empty, closed⟩ := inv.left returned
    exact ⟨by rw [queue, closedNone closed, empty, append_nil], frame.qClosed.trans closed⟩
  rintro entry (mem | at_) reconcile
  · rw [queue] at mem
    rcases mem_append.mp mem with old | new
    · exact inv.unticketed entry (.inl old) reconcile
    · rw [none entry new] at reconcile
      cases reconcile
  · exact inv.unticketed entry (.inr (frame.thread ▸ at_)) reconcile

theorem queueInv_of_reachable (reachable : (system cfg).Reachable s) : QueueInv s := by
  refine reachable.induct ?_ ?_
  · rintro s₀ ⟨raw, -, start⟩
    rw [start]
    refine ⟨rfl, nofun, ?_⟩
    rintro entry (mem | at_)
    · cases mem
    · cases at_
  intro a l b _ h inv
  cases actor : l.actor with
  | submitter => exact inv.submitter_step (submitterStep_of_step h actor)
  | queueThread => exact inv.loop_step (loopStep_of_step h actor)
  | worker => exact inv.worker_step (step_worker h actor) (workerQueueStep_of_step h actor)

/-! ## A submit returns after its handler -/

/-- A reply is given, and a submit returns, only after the handler is done. -/
structure ReplyInv (s : Sys) : Prop where
  replying : ∀ ticket r, s.thread = .replying (some ticket) r → .handled (some ticket) ∈ s.log
  replied : ∀ ticket ∈ s.replied, .handled (some ticket) ∈ s.log
  returns : ∀ later ticket earlier, s.log = later ++ .submitReturned ticket :: earlier →
    .handled (some ticket) ∈ earlier

theorem ReplyInv.of_quiet (inv : ReplyInv s) {events : List Event}
    (log : s'.log = events ++ s.log) (quiet : ∀ ticket, .submitReturned ticket ∉ events)
    (replying : ∀ ticket r, s'.thread = .replying (some ticket) r → .handled (some ticket) ∈ s'.log)
    (replied : ∀ ticket ∈ s'.replied, .handled (some ticket) ∈ s'.log) : ReplyInv s' := by
  refine ⟨replying, replied, ?_⟩
  intro later ticket earlier split
  rw [log] at split
  obtain ⟨later', -, older⟩ := Trace.split_past (quiet ticket) split
  exact inv.returns later' ticket earlier older

theorem ReplyInv.submitter_step (inv : ReplyInv s) (h : SubmitterStep s l s') : ReplyInv s' := by
  have requested : ReplyInv { s with log := .requested :: s.log } :=
    inv.of_quiet (singleton_append (x := Event.requested)).symm (by simp)
      (fun ticket r at_ => mem_cons_of_mem _ (inv.replying ticket r at_))
      fun ticket mem => mem_cons_of_mem _ (inv.replied ticket mem)
  cases h with
  | returned ticket mem =>
    refine ⟨?_, ?_, ?_⟩
    · intro ticket' r at_
      exact mem_cons_of_mem _ (inv.replying ticket' r at_)
    · intro ticket' mem'
      exact mem_cons_of_mem _ (inv.replied ticket' (mem_of_mem_erase mem'))
    intro later ticket' earlier split
    rcases Trace.split_head split with ⟨-, same, rfl⟩ | ⟨later', -, older⟩
    · cases same
      exact inv.replied ticket mem
    · exact inv.returns later' ticket' earlier older
  | coalesced | requested => exact ⟨requested.replying, requested.replied, requested.returns⟩
  | _ => exact ⟨inv.replying, inv.replied, inv.returns⟩

theorem ReplyInv.loop_step (inv : ReplyInv s) (queue : QueueInv s) (h : LoopStep s s') :
    ReplyInv s' := by
  cases h with
  | dequeued | left => exact ⟨nofun, inv.replied, inv.returns⟩
  | inner events _ inner =>
    refine inv.of_quiet inner.log (fun _ mem => Bool.noConfusion (inner.quiet _ mem)) ?_ ?_
    · intro ticket r at_
      rw [inner.log]
      rcases inner.replying ticket r at_ with handled | ⟨entry, dispatching, reconcile, waits⟩
      · exact mem_append_left _ handled
      · rw [queue.unticketed entry (.inr dispatching) reconcile] at waits
        cases waits
    intro ticket mem
    rw [inner.replied] at mem
    rw [inner.log]
    exact mem_append_right _ (inv.replied ticket mem)
  | replied ticket result at_ =>
    refine ⟨nofun, ?_, inv.returns⟩
    intro ticket' mem
    rcases mem_append.mp mem with new | old
    · rw [Option.mem_toList] at new
      subst new
      exact inv.replying ticket' result at_
    · exact inv.replied ticket' old

theorem ReplyInv.worker_step (inv : ReplyInv s) (frame : WorkerFrame s s')
    (h : WorkerQueueStep s s') : ReplyInv s' := by
  obtain ⟨events, log, quiet, -⟩ := h.log
  refine inv.of_quiet log (fun _ mem => Bool.noConfusion (quiet _ mem)) ?_ ?_
  · intro ticket r at_
    rw [log]
    exact mem_append_right _ (inv.replying ticket r (frame.thread ▸ at_))
  intro ticket mem
  rw [log]
  exact mem_append_right _ (inv.replied ticket (frame.replied ▸ mem))

theorem replyInv_of_reachable (reachable : (system cfg).Reachable s) : ReplyInv s := by
  refine reachable.induct ?_ ?_
  · rintro s₀ ⟨raw, -, start⟩
    rw [start]
    refine ⟨nofun, nofun, ?_⟩
    intro later ticket earlier split
    cases later <;> cases split
  intro a l b before h inv
  cases actor : l.actor with
  | submitter => exact inv.submitter_step (submitterStep_of_step h actor)
  | queueThread => exact inv.loop_step (queueInv_of_reachable before) (loopStep_of_step h actor)
  | worker => exact inv.worker_step (step_worker h actor) (workerQueueStep_of_step h actor)

/-! ## Steps of other threads -/

/-- The steps of the queue thread. -/
def Label.isLoop (l : Label) : Bool := decide (l.actor = .queueThread)

/-- A step of another thread leaves the queue thread alone, queues actions and starts no
pass. -/
theorem step_other (h : step cfg s l = some s') (other : l.isLoop = false) :
    s'.thread = s.thread ∧ (∃ more, s'.queue = s.queue ++ more) ∧
      ∃ events, s'.log = events ++ s.log ∧ .reconcileStarted ∉ events := by
  cases actor : l.actor with
  | submitter =>
    have frame := step_submitter h actor
    refine ⟨frame.thread, ?_, ?_⟩
    · rcases frame.queue with same | ⟨entry, more, -⟩
      · exact ⟨[], by rw [same, append_nil]⟩
      · exact ⟨[entry], more⟩
    · obtain ⟨events, log, calls⟩ := frame.calls
      exact ⟨events, log, fun mem => Bool.noConfusion (calls _ mem)⟩
  | queueThread => simp [Label.isLoop, actor] at other
  | worker =>
    have move := workerQueueStep_of_step h actor
    obtain ⟨events, log, -, none⟩ := move.log
    obtain ⟨clears, queue, -⟩ := move.queue
    exact ⟨(step_worker h actor).thread, ⟨clears, queue⟩, events, log, none⟩

/-! ## Requests that wait -/

/-- A pass that has not started is on its way: its action is queued, or taken
from the queue and about to run. -/
def Waiting (s : Sys) : Prop := 0 < reconciles s.queue ∨ s.thread.startsPass = true

/-- Every request was followed by the start of a pass, or waits for one. -/
def Answered (s : Sys) : Prop :=
  ∀ later earlier, s.log = later ++ .requested :: earlier →
    .reconcileStarted ∈ later ∨ Waiting s

/-- The queue thread is not at the top of its loop with an empty queue. -/
theorem Waiting.busy (waiting : Waiting s) (thread : s.thread.startsPass = false) :
    s.queue ≠ [] := by
  intro empty
  unfold Waiting at waiting
  rw [thread, empty] at waiting
  rcases waiting with queued | taken
  · cases queued
  · cases taken

theorem Waiting.append (waiting : Waiting s) (thread : s'.thread = s.thread)
    (queue : ∃ more, s'.queue = s.queue ++ more) : Waiting s' := by
  obtain ⟨more, queue⟩ := queue
  unfold Waiting
  rw [queue, thread, reconciles_append]
  exact waiting.imp_left (Nat.lt_add_right _)

/-- A step of the queue thread starts the pass or leaves the request waiting. -/
theorem Waiting.loop_step (waiting : Waiting s) (h : LoopStep s s') :
    ∃ events, s'.log = events ++ s.log ∧ (∀ e ∈ events, e.isLoop = true) ∧
      (.reconcileStarted ∈ events ∨ Waiting s') := by
  cases h with
  | dequeued entry rest at_ queue =>
    refine ⟨[], rfl, by simp, .inr ?_⟩
    cases head : entry.isReconcile with
    | true => exact .inr head
    | false =>
      rcases waiting with queued | taken
      · rw [queue, reconciles_cons, head] at queued
        exact .inl (by simpa using queued)
      · rw [at_] at taken
        cases taken
  | left at_ empty => exact absurd empty (waiting.busy (by rw [at_]; rfl))
  | inner events _ inner =>
    refine ⟨events, inner.log, inner.quiet, ?_⟩
    rcases waiting with queued | taken
    · exact .inr (.inl (inner.queue ▸ queued))
    · exact .inl (inner.started taken)
  | replied ticket result at_ =>
    refine ⟨[], rfl, by simp, .inr ?_⟩
    rcases waiting with queued | taken
    · exact .inl queued
    · rw [at_] at taken
      cases taken

theorem Answered.step (answered : Answered s) (queue : QueueInv s) (h : step cfg s l = some s') :
    Answered s' := by
  -- A step that records no request: an older request is still answered or waits.
  have older : ∀ events, s'.log = events ++ s.log → .requested ∉ events →
      (Waiting s → .reconcileStarted ∈ events ∨ Waiting s') → Answered s' := by
    intro events log none waits later earlier split
    rw [log] at split
    obtain ⟨later', rfl, before⟩ := Trace.split_past none split
    rcases answered later' earlier before with started | waiting
    · exact .inl (mem_append_right _ started)
    rcases waits waiting with started | waiting
    · exact .inl (mem_append_left _ started)
    · exact .inr waiting
  cases actor : l.actor with
  | submitter =>
    obtain ⟨thread, more, -⟩ := step_other h (by rw [Label.isLoop, actor]; rfl)
    have kept := fun waiting : Waiting s => waiting.append thread more
    cases submitterStep_of_step h actor with
    | returned ticket =>
      exact older [.submitReturned ticket] rfl (by simp) fun waiting => .inr (kept waiting)
    | coalesced isOpen queued =>
      intro later earlier _
      refine .inr (.inl ?_)
      rw [queue.flag, queued]
      exact Nat.one_pos
    | requested =>
      intro later earlier _
      refine .inr (.inl ?_)
      show 0 < reconciles (s.queue ++ [⟨.reconcile, none⟩])
      rw [reconciles_append]
      exact Nat.lt_add_left _ Nat.one_pos
    | _ => exact older [] rfl (by simp) fun waiting => .inr (kept waiting)
  | queueThread =>
    have move := loopStep_of_step h actor
    by_cases waiting : Waiting s
    · obtain ⟨events, log, quiet, next⟩ := waiting.loop_step move
      exact older events log (fun mem => Bool.noConfusion (quiet _ mem)) fun _ => next
    cases move with
    | inner events _ inner =>
      exact older events inner.log
        (fun mem => Bool.noConfusion (inner.quiet _ mem)) fun held => absurd held waiting
    | _ => exact older [] rfl (by simp) fun held => absurd held waiting
  | worker =>
    obtain ⟨events, log, quiet, -⟩ := (workerQueueStep_of_step h actor).log
    obtain ⟨thread, more, -⟩ := step_other h (by rw [Label.isLoop, actor]; rfl)
    exact older events log (fun mem => Bool.noConfusion (quiet _ mem)) fun waiting =>
      .inr (waiting.append thread more)

theorem answered_of_reachable (reachable : (system cfg).Reachable s) : Answered s := by
  refine reachable.induct ?_ ?_
  · rintro s₀ ⟨raw, -, start⟩ later earlier split
    rw [start] at split
    cases later <;> cases split
  · intro a l b before h answered
    exact answered.step (queueInv_of_reachable before) h

/-- Once the loop is left no request waits. -/
theorem QueueInv.not_waiting_of_returned (inv : QueueInv s) (returned : s.thread = .returned) :
    ¬ Waiting s :=
  fun waiting => waiting.busy (by rw [returned]; rfl) (inv.left returned).1

/-! ## Progress -/

/-- The entries ahead of the first reconcile action. -/
def ahead (queue : List Entry) : ℕ := (queue.takeWhile fun entry => !entry.isReconcile).length

/-- A bound on the steps of the queue thread until the next pass starts. -/
def Sys.work (s : Sys) : ℕ :=
  if s.thread.startsPass then 1 else s.thread.work + 13 * ahead s.queue + 13

theorem ahead_cons_of_not {entry : Entry} (other : entry.isReconcile = false) :
    ahead (entry :: queue) = ahead queue + 1 := by
  simp [ahead, other]

/-- What is queued behind a reconcile action does not delay it. -/
theorem ahead_append (more : List Entry) (queued : 0 < reconciles queue) :
    ahead (queue ++ more) = ahead queue := by
  induction queue with
  | nil => cases queued
  | cons entry queue ih =>
    cases head : entry.isReconcile with
    | true => simp [ahead, head]
    | false =>
      rw [cons_append, ahead_cons_of_not head, ahead_cons_of_not head, ih]
      rw [reconciles_cons, head] at queued
      simpa using queued

/-- A step of the queue thread that does not start the pass brings it nearer. -/
theorem Sys.work_loop_step (waiting : Waiting s) (h : LoopStep s s')
    (notStarted : ∀ events, s'.log = events ++ s.log → .reconcileStarted ∉ events) :
    s'.work < s.work := by
  cases h with
  | dequeued entry rest at_ queue =>
    have idle : s.work = 13 * ahead s.queue + 13 := by simp [Sys.work, at_,
      QueueThread.startsPass, QueueThread.work]
    rw [idle, queue]
    cases head : entry.isReconcile with
    | true => simp [Sys.work, QueueThread.startsPass, head]
    | false =>
      rw [ahead_cons_of_not head]
      simp only [Sys.work, QueueThread.startsPass, head, QueueThread.work, Bool.false_eq_true,
        ↓reduceIte]
      omega
  | left at_ empty => exact absurd empty (waiting.busy (by rw [at_]; rfl))
  | inner events _ inner =>
    have pass : s.thread.startsPass = false := by
      by_contra taken
      exact notStarted events inner.log (inner.started (by simpa using taken))
    have next : s'.thread.startsPass = false := by
      cases at_ : s'.thread with
      | dispatching entry => exact absurd at_ (inner.dispatched entry)
      | _ => rfl
    have less := inner.work
    simp only [Sys.work, pass, next, inner.queue, Bool.false_eq_true, ↓reduceIte]
    omega
  | replied ticket result at_ =>
    simp only [Sys.work, at_, QueueThread.startsPass, QueueThread.work, Bool.false_eq_true,
      ↓reduceIte]
    omega

/-- A step of another thread keeps a waiting request waiting and does not delay
the pass. -/
theorem Waiting.other_step (waiting : Waiting s) (h : step cfg s l = some s')
    (other : l.isLoop = false) :
    (∃ events, s'.log = events ++ s.log ∧ .reconcileStarted ∉ events) ∧ Waiting s' ∧
      s'.work ≤ s.work := by
  obtain ⟨thread, queue, log⟩ := step_other h other
  refine ⟨log, waiting.append thread queue, ?_⟩
  obtain ⟨more, queue⟩ := queue
  unfold Sys.work
  rw [thread]
  split_ifs with pass
  · exact Nat.le_refl 1
  · apply Nat.le_of_eq
    rw [queue, ahead_append more (waiting.resolve_right pass)]

/-- A step keeps a waiting request waiting or starts the pass. -/
theorem Waiting.step (waiting : Waiting s) (h : step cfg s l = some s') :
    ∃ events, s'.log = events ++ s.log ∧ (.reconcileStarted ∈ events ∨ Waiting s') := by
  cases mine : l.isLoop with
  | true =>
    obtain ⟨events, log, -, next⟩ :=
      waiting.loop_step (loopStep_of_step h (by simpa [Label.isLoop] using mine))
    exact ⟨events, log, next⟩
  | false =>
    obtain ⟨⟨events, log, -⟩, next, -⟩ := waiting.other_step h mine
    exact ⟨events, log, .inr next⟩

/-- The log at the start of a run, and what has become of the request since. -/
def WaitingSince (base : List Event) (s : Sys) : Prop :=
  ∃ events, s.log = events ++ base ∧ .reconcileStarted ∉ events ∧ Waiting s

theorem WaitingSince.step {base : List Event} (waiting : WaitingSince base s)
    (h : step cfg s l = some s') :
    (∃ events, s'.log = events ++ base ∧ .reconcileStarted ∈ events) ∨ WaitingSince base s' := by
  obtain ⟨events, log, none, waits⟩ := waiting
  obtain ⟨new, log', next⟩ := waits.step h
  rw [log, ← append_assoc] at log'
  rcases next with started | waits'
  · exact .inl ⟨new ++ events, log', mem_append_left _ started⟩
  by_cases started : .reconcileStarted ∈ new
  · exact .inl ⟨new ++ events, log', mem_append_left _ started⟩
  refine .inr ⟨new ++ events, log', ?_, waits'⟩
  rw [mem_append, not_or]
  exact ⟨started, none⟩

/-- The log only grows, so a pass that has started stays in it. -/
theorem started_of_leads {base : List Event} {t : Sys} (leads : (system cfg).Leads s t)
    (started : ∃ events, s.log = events ++ base ∧ .reconcileStarted ∈ events) :
    ∃ events, t.log = events ++ base ∧ .reconcileStarted ∈ events := by
  refine leads.induct
    (P := fun t => ∃ events, t.log = events ++ base ∧ .reconcileStarted ∈ events) started ?_
  rintro a l b h ⟨events, log, mem⟩
  obtain ⟨new, log'⟩ := step_log_append h
  exact ⟨new ++ events, by rw [log', log, append_assoc], mem_append_right _ mem⟩

/-- The queue thread has a step to take, unless it is at the top of its loop with an empty
queue. -/
theorem loopStep_enabled (work : s.thread = .idle → s.queue ≠ []) (running : s.thread ≠ .returned) :
    ∃ l s', l.isLoop = true ∧ step cfg s l = some s' := by
  cases at_ : s.thread with
  | idle =>
    cases front : s.queue with
    | nil => exact absurd front (work at_)
    | cons => exact ⟨.dequeue, _, rfl, by simp only [step, at_, front]; rfl⟩
  | dispatching => exact ⟨.dispatch, _, rfl, by simp only [step, at_]; rfl⟩
  | reconciling rest =>
    cases rest with
    | nil => exact ⟨.passDone, _, rfl, by simp only [step, at_]; rfl⟩
    | cons => exact ⟨.examine 0, _, rfl, by simp only [step, at_]; rfl⟩
  | firing => exact ⟨.fire 0 .launched, _, rfl, by simp only [step, at_]; rfl⟩
  | tearingDown ticket rest =>
    cases rest with
    | nil => exact ⟨.tornDown, _, rfl, by simp only [step, at_]; rfl⟩
    | cons => exact ⟨.tearDown, _, rfl, by simp only [step, at_]; rfl⟩
  | stopping => exact ⟨.stopReturn, _, rfl, by simp only [step, at_]; rfl⟩
  | replying => exact ⟨.reply, _, rfl, by simp only [step, at_]; rfl⟩
  | returned => exact absurd at_ running

/-! ## The main result -/

/-- What a request that was made before the events `later` and after the events
`earlier` can count on. -/
structure Served (cfg : Config) (s : Sys) (later earlier : List Event) : Prop where
  /-- A pass has started since the request when `run` has returned. -/
  beforeReturn : s.thread = .returned → .reconcileStarted ∈ later
  /-- The handlers of the submits that had returned were done before. -/
  observes : ∀ ticket, .submitReturned ticket ∈ earlier → .handled (some ticket) ∈ earlier
  /-- Until a pass starts the queue thread has a step to take. -/
  enabled : .reconcileStarted ∉ later → ∃ l s', l.isLoop = true ∧ step cfg s l = some s'
  /-- The pass starts within a bounded number of steps of the queue thread,
  whatever the other threads do. -/
  bounded : .reconcileStarted ∉ later → ∀ ls t, (system cfg).exec s ls = some t →
    s.work < ls.countP Label.isLoop →
    ∃ events, t.log = events ++ s.log ∧ .reconcileStarted ∈ events

/-- **No reconcile request is lost.** In every reachable state the flag is set exactly when the
queue holds one reconcile action, it never holds more, and every request made while the queue was
open is served. -/
theorem reconcile_not_lost (reachable : (system cfg).Reachable s) :
    (s.reconcileQueued = true ↔ reconciles s.queue = 1) ∧ reconciles s.queue ≤ 1 ∧
      ∀ later earlier, s.log = later ++ .requested :: earlier → Served cfg s later earlier := by
  have queue := queueInv_of_reachable reachable
  have reply := replyInv_of_reachable reachable
  have answered := answered_of_reachable reachable
  refine ⟨?_, ?_, ?_⟩
  · rw [queue.flag]
    cases s.reconcileQueued <;> simp
  · rw [queue.flag]
    split <;> omega
  intro later earlier split
  have waits : .reconcileStarted ∉ later → Waiting s :=
    fun none => (answered later earlier split).resolve_left none
  refine ⟨?_, ?_, ?_, ?_⟩
  · intro returned
    by_contra none
    exact queue.not_waiting_of_returned returned (waits none)
  · intro ticket member
    obtain ⟨middle, oldest, rfl⟩ := append_of_mem member
    refine mem_append_right _ (mem_cons_of_mem _ ?_)
    exact reply.returns (later ++ .requested :: middle) ticket oldest (by simp [split])
  · intro none
    exact loopStep_enabled (fun idle => (waits none).busy (by rw [idle]; rfl)) fun returned =>
      queue.not_waiting_of_returned returned (waits none)
  intro none ls t run enough
  have waiting := waits none
  have served : ∀ a l b, (system cfg).step a l = some b → WaitingSince s.log a →
      l.isLoop = true → WaitingSince s.log b → b.work < a.work := by
    rintro a l b h ⟨events, log, -, waits⟩ mine ⟨events', log', none, -⟩
    refine Sys.work_loop_step waits (loopStep_of_step h (by simpa [Label.isLoop] using mine)) ?_
    intro new newLog member
    rw [newLog, log, ← append_assoc] at log'
    rw [← append_cancel_right log'] at none
    exact none (mem_append_left _ member)
  have others : ∀ a l b, (system cfg).step a l = some b → WaitingSince s.log a →
      l.isLoop = false → WaitingSince s.log b ∧ b.work ≤ a.work := by
    rintro a l b h ⟨events, log, none, waits⟩ other
    obtain ⟨⟨new, newLog, quiet⟩, waits', less⟩ := waits.other_step h other
    refine ⟨⟨new ++ events, by rw [newLog, log, append_assoc], ?_, waits'⟩, less⟩
    rw [mem_append, not_or]
    exact ⟨quiet, none⟩
  obtain ⟨first, second, mid, rfl, before, done⟩ := Machine.rank_bound served others run
    ⟨[], rfl, not_mem_nil, waiting⟩ enough
  rw [Machine.exec_append_of_exec before] at run
  refine started_of_leads ⟨second, run⟩ ?_
  have either := Machine.Leads.induct (M := system cfg) (P := fun t =>
    (∃ events, t.log = events ++ s.log ∧ .reconcileStarted ∈ events) ∨ WaitingSince s.log t)
    ⟨first, before⟩ (.inr ⟨[], rfl, not_mem_nil, waiting⟩) ?_
  · exact either.resolve_right done
  rintro a l b h (started | waits)
  · exact .inl (started_of_leads (.single h) started)
  · exact waits.step h

/-- A request of the program that is queued behind a stage event. -/
theorem reconcile_not_lost_behind_event :
    ∃ cfg s earlier, (system cfg).Reachable s ∧ s.log = [] ++ .requested :: earlier ∧
      s.queue.length = 2 ∧ (s.reconcileQueued = true ↔ reconciles s.queue = 1) ∧
      reconciles s.queue ≤ 1 ∧
      ∀ later earlier, s.log = later ++ .requested :: earlier → Served cfg s later earlier := by
  obtain ⟨cfg, accepted, -, -⟩ := controllerNew_run false 1000 16 (by decide) (by decide)
  obtain ⟨s, run, log, queue⟩ : ∃ s, (system cfg).exec (Sys.start runCore)
      [.submit (.stageEvent ⟨0, 1⟩), .requestReconcile true] = some s ∧
      s.log = [.requested] ∧ s.queue.length = 2 := ⟨_, rfl, rfl, rfl⟩
  have reachable : (system cfg).Reachable s := ⟨Sys.start runCore, ⟨_, accepted, rfl⟩, ⟨_, run⟩⟩
  exact ⟨cfg, s, [], reachable, log, queue, reconcile_not_lost reachable⟩

end Strimserver.Controller
