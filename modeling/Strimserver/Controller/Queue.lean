import Strimserver.Controller.Steps
import Mathlib.Data.List.Perm.Subperm

/-!
# The queue and its threads

What the steps do to the action queue, whichever handler runs. A step of the
queue thread takes an action, works on it, sets its reply, or leaves the loop; a
step of a worker may add a clear; a step of a submitting thread is described by
`SubmitterStep`.

A ticket stands for the stack frame of a submitter that waits for its reply. Its
action is on the queue, or with the queue thread, or done with the reply set;
every ticket is in one place only (`ticketInv_of_reachable`).
-/

namespace Strimserver.Controller

open Library List

variable {cfg : Config} {s s' : Sys}

/-! ## Inside an action -/

def Entry.isReconcile (entry : Entry) : Bool := decide (entry.act = .reconcile)

/-- The queue thread has taken a reconcile action and not yet started the
pass. -/
def QueueThread.startsPass : QueueThread → Bool
  | .dispatching entry => entry.isReconcile
  | _ => false

def QueueThread.ticket : QueueThread → Option ℕ
  | .dispatching entry => entry.ticket
  | .tearingDown ticket _ => ticket
  | .stopping ticket _ _ => ticket
  | .replying ticket _ => ticket
  | _ => none

/-- A bound on the steps of the queue thread until it is back at the top of its
loop: two for each stage of a loop, and the reply. -/
def QueueThread.work : QueueThread → ℕ
  | .idle => 0
  | .dispatching _ => 12
  | .reconciling rest => 2 * rest.length + 2
  | .firing _ _ rest => 2 * rest.length + 3
  | .tearingDown _ rest => 2 * rest.length + 2
  | .stopping _ _ rest => 2 * rest.length + 3
  | .replying _ _ => 1
  | .returned => 0

/-- The events that the queue thread records. -/
def Event.isLoop : Event → Bool
  | .requested => false
  | .submitReturned _ => false
  | .opReturned _ _ => false
  | _ => true

/-- A step of the queue thread inside an action: the queue, its flags and the
replies are left alone. -/
structure InnerStep (events : List Event) (s s' : Sys) : Prop where
  queue : s'.queue = s.queue
  flag : s'.reconcileQueued = s.reconcileQueued
  replied : s'.replied = s.replied
  log : s'.log = events ++ s.log
  quiet : ∀ e ∈ events, e.isLoop = true
  loop : s'.thread ≠ .returned
  dispatched : ∀ entry, s'.thread ≠ .dispatching entry
  started : s.thread.startsPass = true → .reconcileStarted ∈ events
  replying : ∀ ticket r, s'.thread = .replying (some ticket) r → .handled (some ticket) ∈ events ∨
    ∃ entry, s.thread = .dispatching entry ∧ entry.isReconcile = true ∧ entry.ticket = some ticket
  work : s'.thread.work < s.thread.work
  ticket : ∀ t, s'.thread.ticket = some t → s.thread.ticket = some t

/-- A step that goes on inside an action, with events that are no reply. -/
theorem InnerStep.of_thread {events : List Event} {before after : QueueThread} {c : Core}
    {opsWg : ℕ} {pool : List Job} (at_ : s.thread = before)
    (quiet : ∀ e ∈ events, e.isLoop = true)
    (loop : after ≠ .returned) (dispatched : ∀ entry, after ≠ .dispatching entry)
    (started : before.startsPass = true → .reconcileStarted ∈ events)
    (replying : ∀ ticket r, after = .replying (some ticket) r → .handled (some ticket) ∈ events ∨
      ∃ entry, before = .dispatching entry ∧ entry.isReconcile = true ∧ entry.ticket = some ticket)
    (work : after.work < before.work)
    (ticket : ∀ t, after.ticket = some t → before.ticket = some t) :
    InnerStep events s
      { s with core := c, thread := after, opsWg, pool, log := events ++ s.log } := by
  subst at_
  exact ⟨rfl, rfl, rfl, rfl, quiet, loop, dispatched, started, replying, work, ticket⟩

/-! ## The loop of the queue thread -/

/-- What a step of the queue thread does to the queue. -/
inductive LoopStep (s : Sys) : Sys → Prop where
  | dequeued (entry : Entry) (rest : List Entry) (at_ : s.thread = .idle)
      (queue : s.queue = entry :: rest) :
      LoopStep s { s with
        queue := rest
        reconcileQueued := if entry.act = .reconcile then false else s.reconcileQueued
        thread := .dispatching entry }
  | left (at_ : s.thread = .idle) (empty : s.queue = []) (closed : s.qClosed = true) :
      LoopStep s { s with thread := .returned }
  | inner (events : List Event) (s' : Sys) (step : InnerStep events s s') : LoopStep s s'
  | replied (ticket : Option ℕ) (result : Result) (at_ : s.thread = .replying ticket result) :
      LoopStep s { s with thread := .idle, replied := ticket.toList ++ s.replied }

variable {l : Label}

theorem loopStep_of_step (h : step cfg s l = some s') (actor : l.actor = .queueThread) :
    LoopStep s s' := by
  cases loopMove_of_step h actor with
  | dequeued entry rest at_ queue => exact .dequeued entry rest at_ queue
  | left at_ empty closed => exact .left at_ empty closed
  | handled act ticket r events at_ handles =>
    have quiet : ∀ e ∈ .handled ticket :: events, e.isLoop = true := by
      rcases handler_events handles with rfl | ⟨st, rfl⟩ | ⟨st, g, rfl⟩ <;> simp [Event.isLoop]
    have other : act ≠ .reconcile := by
      rintro rfl
      cases handles
    refine .inner (.handled ticket :: events) _ (.of_thread at_ quiet nofun nofun ?_ ?_ ?_ ?_)
    · simp [QueueThread.startsPass, Entry.isReconcile, other]
    · rintro ticket' r' ⟨⟩
      exact .inl mem_cons_self
    · exact (by decide : 1 < 12)
    · exact fun _ same => same
  | passSkipped ticket at_ =>
    refine .inner [.reconcileStarted] _ (.of_thread at_ (by simp [Event.isLoop]) nofun nofun
      (fun _ => mem_singleton_self _) ?_ (by decide : 1 < 12) fun _ same => same)
    rintro ticket' r ⟨⟩
    exact .inr ⟨_, rfl, rfl, rfl⟩
  | passStarted ticket at_ =>
    exact .inner [.reconcileStarted] _ (.of_thread at_ (by simp [Event.isLoop]) nofun nofun
      (fun _ => mem_singleton_self _) nofun
      (by decide : 2 * StageName.all.length + 2 < 12) nofun)
  | tearStarted ticket at_ =>
    exact .inner [] _ (.of_thread at_ nofun nofun nofun nofun nofun
      (by decide : 2 * StageName.all.length + 2 < 12) fun _ same => same)
  | spared st _ now at_ | chosen st _ _ now at_ =>
    refine .inner _ _ (.of_thread at_ ?_ nofun nofun nofun nofun
      (by simp only [QueueThread.work, length_cons]; omega) nofun)
    unfold examineEvents
    split_ifs <;> simp [Event.isLoop]
  | passedBy st target rest now outcome at_ =>
    exact .inner [] _ (.of_thread at_ nofun nofun nofun nofun nofun (Nat.lt_succ_self _) nofun)
  | refused _ _ _ _ at_ | launched _ _ _ _ at_ =>
    exact .inner [_, _] _ (.of_thread at_ (by simp [Event.isLoop]) nofun nofun nofun nofun
      (Nat.lt_succ_self _) nofun)
  | passDone at_ =>
    exact .inner [] _ (.of_thread at_ nofun nofun nofun nofun nofun (Nat.lt_succ_self 1) nofun)
  | stops ticket st rest at_ tears =>
    exact .inner [_] _ (.of_thread at_ (by simp [Event.isLoop]) nofun nofun nofun nofun
      (by simp only [QueueThread.work, length_cons]; omega) fun _ same => same)
  | skips ticket st rest at_ stays =>
    exact .inner [] _ (.of_thread at_ nofun nofun nofun nofun nofun
      (by simp only [QueueThread.work, length_cons]; omega) fun _ same => same)
  | stopped ticket st rest at_ =>
    exact .inner [_] _ (.of_thread at_ (by simp [Event.isLoop]) nofun nofun nofun nofun
      (Nat.lt_succ_self _) fun _ same => same)
  | tornDown ticket at_ =>
    refine .inner [.handled ticket] _ (.of_thread at_ (by simp [Event.isLoop]) nofun nofun nofun ?_
      (Nat.lt_succ_self 1) fun _ same => same)
    rintro ticket' r ⟨⟩
    exact .inl (mem_singleton_self _)
  | replied ticket result at_ => exact .replied ticket result at_

/-! ## The other threads -/

/-- What a step of a worker does to the queue: it may add a clear. -/
structure WorkerQueueStep (s s' : Sys) : Prop where
  queue : ∃ clears, s'.queue = s.queue ++ clears ∧
    (∀ entry ∈ clears, ∃ st g, entry = ⟨.clearInflight st g, none⟩) ∧
    (s.qClosed = true → clears = [])
  log : ∃ events, s'.log = events ++ s.log ∧ (∀ e ∈ events, e.isCall = false) ∧
    .reconcileStarted ∉ events

theorem workerQueueStep_of_step (h : step cfg s l = some s') (actor : l.actor = .worker) :
    WorkerQueueStep s s' := by
  cases workerMove_of_step h actor with
  | returned i job ok =>
    exact ⟨⟨[], by simp [Sys.setPhase]⟩,
      ⟨[.opReturned job ok], rfl, by simp [Event.isCall], by simp⟩⟩
  | cleared i job at_ isOpen =>
    refine ⟨⟨[_], rfl, ?_, by simp [isOpen]⟩, ⟨[], by simp [Sys.setPhase, Sys.enqueueLocked]⟩⟩
    intro entry mem
    rw [mem_singleton] at mem
    exact ⟨job.stage, job.generation, mem⟩
  | _ => exact ⟨⟨[], by simp [Sys.setPhase]⟩, ⟨[], by simp [Sys.setPhase]⟩⟩

theorem step_log_append (h : step cfg s l = some s') : ∃ events, s'.log = events ++ s.log := by
  cases actor : l.actor with
  | submitter =>
    obtain ⟨events, log, -⟩ := (step_submitter h actor).calls
    exact ⟨events, log⟩
  | queueThread =>
    cases loopStep_of_step h actor with
    | inner events _ inner => exact ⟨events, inner.log⟩
    | _ => exact ⟨[], rfl⟩
  | worker =>
    obtain ⟨events, log, -⟩ := (workerQueueStep_of_step h actor).log
    exact ⟨events, log⟩

/-! ## Tickets -/

/-- The entry is on the queue or taken and not yet handled. -/
def Sys.Holds (s : Sys) (entry : Entry) : Prop := entry ∈ s.queue ∨ s.thread = .dispatching entry

/-- The tickets that wait: for their handler, for their reply, and to be seen. -/
def Sys.outstanding (s : Sys) : List ℕ :=
  s.queue.filterMap Entry.ticket ++ (s.thread.ticket.toList ++ s.replied)

def Sys.tickets (s : Sys) : List ℕ := s.queue.filterMap Entry.ticket

theorem Sys.mem_tickets {t : ℕ} : t ∈ s.tickets ↔ ∃ entry ∈ s.queue, entry.ticket = some t :=
  mem_filterMap

/-- The reply of a ticket is not set. -/
def Sys.Unanswered (s : Sys) (t : ℕ) : Prop := t ∈ s.tickets ∨ s.thread.ticket = some t

theorem Sys.Holds.unanswered {entry : Entry} {t : ℕ} (holds : s.Holds entry)
    (waits : entry.ticket = some t) : s.Unanswered t := by
  rcases holds with queued | at_
  · exact .inl (Sys.mem_tickets.mpr ⟨entry, queued, waits⟩)
  · exact .inr (by rw [at_]; exact waits)

/-- No ticket waits in two places, and new tickets are fresh. -/
structure TicketInv (s : Sys) : Prop where
  nodup : s.outstanding.Nodup
  fresh : ∀ ticket ∈ s.outstanding, ticket < s.nextTicket

namespace TicketInv

variable (inv : TicketInv s) {t : ℕ}

include inv

/-- A ticket on the queue is nowhere else. -/
theorem only_queue (mem : t ∈ s.tickets) : s.thread.ticket ≠ some t ∧ t ∉ s.replied := by
  have apart : t ∉ s.thread.ticket.toList ++ s.replied := (nodup_append'.mp inv.nodup).2.2 mem
  rw [mem_append, not_or] at apart
  refine ⟨fun held => apart.1 ?_, apart.2⟩
  rw [held]
  exact mem_singleton_self t

/-- A ticket of the queue thread is nowhere else. -/
theorem only_thread (held : s.thread.ticket = some t) : t ∉ s.tickets ∧ t ∉ s.replied := by
  refine ⟨fun mem => (inv.only_queue mem).1 held, ?_⟩
  have rest := (nodup_append'.mp inv.nodup).2.1
  have apart := (nodup_append'.mp rest).2.2
  rw [held] at apart
  exact apart (mem_singleton_self t)

/-- A ticket without a reply has none to be seen. -/
theorem not_replied (waits : s.Unanswered t) : t ∉ s.replied :=
  waits.elim (fun queued => (inv.only_queue queued).2) fun held => (inv.only_thread held).2

theorem replied_nodup : s.replied.Nodup := (nodup_append'.mp (nodup_append'.mp inv.nodup).2.1).2.1

/-- A ticket without a reply is out. -/
theorem old (waits : s.Unanswered t) : t < s.nextTicket := by
  refine inv.fresh t ?_
  rcases waits with queued | held
  · exact mem_append_left _ queued
  · exact mem_append_right _ (mem_append_left _ (Option.mem_toList.mpr held))

end TicketInv

theorem TicketInv.of_subperm (inv : TicketInv s) (less : s'.outstanding.Subperm s.outstanding)
    (next : s'.nextTicket = s.nextTicket) : TicketInv s' := by
  refine ⟨?_, fun ticket mem => next ▸ inv.fresh ticket (less.subset mem)⟩
  obtain ⟨middle, perm, sub⟩ := less
  exact perm.nodup_iff.mp (inv.nodup.sublist sub)

theorem TicketInv.submitter_step (inv : TicketInv s) (h : SubmitterStep s l s') : TicketInv s' := by
  cases h with
  | submitted act =>
    have perm : (Sys.outstanding { s.enqueueLocked ⟨act, some s.nextTicket⟩ with
        nextTicket := s.nextTicket + 1 }).Perm (s.nextTicket :: s.outstanding) := by
      simp only [Sys.outstanding, Sys.enqueueLocked, filterMap_append, append_assoc]
      exact perm_middle
    refine ⟨perm.nodup_iff.mpr (nodup_cons.mpr ⟨?_, inv.nodup⟩), ?_⟩
    · intro mem
      exact Nat.lt_irrefl _ (inv.fresh _ mem)
    intro ticket mem
    rcases mem_cons.mp (perm.subset mem) with rfl | old
    · exact Nat.lt_succ_self _
    · exact Nat.lt_succ_of_lt (inv.fresh ticket old)
  | returned =>
    refine inv.of_subperm (List.Sublist.subperm ?_) rfl
    exact ((erase_sublist).append_left _).append_left _
  | requested =>
    refine inv.of_subperm (List.Perm.subperm ?_) rfl
    simp [Sys.outstanding, Sys.enqueueLocked]
  | _ => exact ⟨inv.nodup, inv.fresh⟩

theorem TicketInv.loop_step (inv : TicketInv s) (h : LoopStep s s')
    (next : s'.nextTicket = s.nextTicket) : TicketInv s' := by
  refine inv.of_subperm ?_ next
  cases h with
  | dequeued entry rest at_ queue =>
    refine List.Perm.subperm ?_
    simp only [Sys.outstanding, queue, at_, QueueThread.ticket]
    cases waits : entry.ticket with
    | none => simp [waits]
    | some =>
      rw [filterMap_cons_some waits]
      exact perm_middle
  | left at_ | replied _ _ at_ =>
    refine List.Perm.subperm ?_
    simp [Sys.outstanding, at_, QueueThread.ticket]
  | inner events _ inner =>
    refine List.Sublist.subperm ?_
    unfold Sys.outstanding
    rw [inner.queue, inner.replied]
    refine ((?_ : List.Sublist _ _).append_right _).append_left _
    cases held : s'.thread.ticket with
    | none => exact nil_sublist _
    | some ticket => rw [inner.ticket ticket held]

theorem TicketInv.worker_step (inv : TicketInv s) (frame : WorkerFrame s s')
    (h : WorkerQueueStep s s') : TicketInv s' := by
  obtain ⟨clears, queue, none, -⟩ := h.queue
  refine inv.of_subperm (List.Perm.subperm ?_) frame.nextTicket
  have unticketed : clears.filterMap Entry.ticket = [] := by
    refine filterMap_eq_nil_iff.mpr fun entry mem => ?_
    obtain ⟨st, g, rfl⟩ := none entry mem
    rfl
  unfold Sys.outstanding
  rw [queue, frame.thread, frame.replied, filterMap_append, unticketed, append_nil]

/-- **Every ticket waits in one place only.** -/
theorem ticketInv_of_reachable (reachable : (system cfg).Reachable s) : TicketInv s := by
  refine reachable.induct ?_ ?_
  · rintro s₀ ⟨raw, -, start⟩
    rw [start]
    exact ⟨nodup_nil, nofun⟩
  intro a l b _ h inv
  cases actor : l.actor with
  | submitter => exact inv.submitter_step (submitterStep_of_step h actor)
  | queueThread =>
    exact inv.loop_step (loopStep_of_step h actor) (step_queueThread h actor).nextTicket
  | worker => exact inv.worker_step (step_worker h actor) (workerQueueStep_of_step h actor)

end Strimserver.Controller
