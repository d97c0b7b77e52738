import Strimserver.Controller.WakeUps

/-!
# One reply for every submit

A call of `queue_submit` that is not refused has a ticket, which is on the queue, with
the queue thread, among the replies, or gone: `SubmitCall.Stands`. A step moves it one
place on, and with the place goes what the call has come to: its action has not run, runs,
has its one result, or the call has returned that result.

A call that waits is answered after a bounded number of steps of the queue thread, which
is awake and has a step to take until then.
-/

namespace Strimserver.Controller

open Library Condition List

variable {cfg : Config} {s s' : Sys} {l : Label}

/-! ## The calls -/

/-- What a call has come to, by where its ticket is. -/
inductive SubmitCall.Stands (call : SubmitCall) (s : Sys) (t : ℕ) : Prop where
  | queued (holds : s.Holds ⟨call.act, some t⟩) (ran : call.ran = []) (results : call.results = [])
      (returned : call.returned = [])
  /-- The queue thread runs its action. -/
  | running (held : s.thread.ticket = some t) (taken : s.thread.taken = none)
      (ran : call.ran = [call.act]) (results : call.results = []) (returned : call.returned = [])
  /-- Its reply is set. -/
  | answered (replied : t ∈ s.replied) (ran : call.ran = [call.act]) (r : Result)
      (results : call.results = [r]) (returned : call.returned = [])
  | gone (answered : ¬ s.Unanswered t) (absent : t ∉ s.replied) (ran : call.ran = [call.act])
      (r : Result) (results : call.results = [r]) (returned : call.returned = [.result r])

/-- The call got a ticket. -/
structure SubmitCall.Accepted (call : SubmitCall) (s : Sys) (t : ℕ) : Prop where
  ticket : call.ticket = some t
  old : t < s.nextTicket
  stands : call.Stands s t

/-- The queue was closed. -/
structure SubmitCall.Refused (call : SubmitCall) : Prop where
  ticket : call.ticket = none
  ran : call.ran = []
  returned : call.returned = [.closed]

namespace SubmitCall

variable {call : SubmitCall} {t : ℕ} {f : SubmitCall → SubmitCall} {ticket : Option ℕ}

theorem change_own (own : call.ticket = some t) : call.change (some t) f = f call :=
  if_pos ⟨rfl, own⟩

theorem change_other (own : call.ticket = some t) (other : ticket ≠ some t) :
    call.change ticket f = call :=
  if_neg fun same => other (same.2.symm.trans own)

end SubmitCall

/-- A step leaves alone the ticket of a call, and a call without one. -/
theorem Sys.change_ticket (call : SubmitCall) :
    (s.change l call).ticket = call.ticket ∧ (call.ticket = none → s.change l call = call) := by
  have changed (ticket : Option ℕ) (f : SubmitCall → SubmitCall)
      (same : (f call).ticket = call.ticket) : (call.change ticket f).ticket = call.ticket ∧
        (call.ticket = none → call.change ticket f = call) := by
    refine ⟨?_, fun none => if_neg fun same => ?_⟩
    swap
    · rw [← same.2, none] at same
      exact absurd same.1 nofun
    unfold SubmitCall.change
    split
    · exact same
    · rfl
  unfold Sys.change
  generalize s.thread = thread
  cases l with
  | dispatch =>
    cases thread with
    | dispatching => exact changed _ _ rfl
    | _ => exact ⟨rfl, fun _ => rfl⟩
  | reply =>
    cases thread with
    | replying => exact changed _ _ rfl
    | _ => exact ⟨rfl, fun _ => rfl⟩
  | submitReturn => exact changed _ _ rfl
  | _ => exact ⟨rfl, fun _ => rfl⟩

variable {call : SubmitCall} {t : ℕ}

/-- A step that does not concern the ticket of a call. -/
theorem SubmitCall.Stands.keep (stands : call.Stands s t)
    (holds : ∀ entry : Entry, entry.ticket = some t → s.Holds entry → s'.Holds entry)
    (thread : s.thread.ticket = some t → s.thread.taken = none →
      s'.thread.ticket = some t ∧ s'.thread.taken = none) (replied : t ∈ s'.replied ↔ t ∈ s.replied)
    (answered : s'.Unanswered t → s.Unanswered t) : call.Stands s' t := by
  cases stands with
  | queued there => exact .queued (holds _ rfl there) ‹_› ‹_› ‹_›
  | running held taken => exact .running (thread held taken).1 (thread held taken).2 ‹_› ‹_› ‹_›
  | answered there ran r => exact .answered (replied.mpr there) ran r ‹_› ‹_›
  | gone done absent ran r => exact .gone (mt answered done) (mt replied.mp absent) ran r ‹_› ‹_›

/-- **A call goes along with its ticket.** -/
theorem TicketMove.stands (move : TicketMove s l s') (inv : TicketInv s)
    (accepted : call.Accepted s t) : (s.change l call).Stands s' t := by
  obtain ⟨own, old, stands⟩ := accepted
  have before := fun waits => (move.unanswered t).2 waits old
  cases move with
  | still more queue plain silent ticket taken dispatching replied next other =>
    rw [show s.change l call = call by cases l <;> first | rfl | cases other]
    refine stands.keep (fun entry tagged there => ?_) ?_ (by rw [replied]) before
    · rcases there with mem | at_
      · exact .inl (by rw [queue]; exact mem_append_left _ mem)
      rw [at_] at taken
      cases after : s'.thread with
      | dispatching entry' =>
        cases at_.symm.trans (dispatching entry' after)
        exact .inr after
      | _ =>
        rw [after] at taken
        exact absurd (taken.trans tagged) nofun
    · rw [ticket, taken]
      exact fun held free => ⟨held, free⟩
  | refused => exact stands
  | submitted =>
    exact stands.keep (fun entry _ => Or.imp_left (mem_append_left _))
      (fun held free => ⟨held, free⟩) Iff.rfl before
  | dequeued entry rest at_ queue =>
    refine stands.keep (fun other _ there => ?_) ?_ Iff.rfl before
    · rcases there with mem | busy
      · rw [queue] at mem
        rcases mem_cons.mp mem with rfl | behind
        · exact .inr rfl
        · exact .inl behind
      · exact absurd (at_.symm.trans busy) nofun
    · rw [at_]
      exact nofun
  | dispatched entry at_ queue ticket taken dispatching replied =>
    have held : s.thread.ticket = entry.ticket := by rw [at_]; rfl
    have changed : s.change .dispatch call = call.change entry.ticket fun call =>
        { call with ran := entry.act :: call.ran } := by
      simp only [Sys.change, at_]
    rw [changed]
    by_cases mine : entry.ticket = some t
    · have waits := held.trans mine
      rw [mine, SubmitCall.change_own own]
      cases stands with
      | queued there ran results returned =>
        rcases there with mem | busy
        · exact absurd waits (inv.only_queue (Sys.mem_tickets.mpr ⟨_, mem, rfl⟩)).1
        cases at_.symm.trans busy
        refine .running (ticket.trans mine) taken ?_ results returned
        exact congrArg (call.act :: ·) ran
      | running _ free =>
        rw [at_] at free
        exact absurd (mine.symm.trans free) nofun
      | answered there => exact absurd there (inv.only_thread waits).2
      | gone done => exact absurd (.inr waits) done
    rw [SubmitCall.change_other own mine]
    refine stands.keep (fun other tagged there => ?_) ?_ (by rw [replied]) before
    · rcases there with mem | busy
      · exact .inl (queue ▸ mem)
      · cases at_.symm.trans busy
        exact absurd tagged mine
    · exact fun waits => absurd (held.symm.trans waits) mine
  | replied ticket result at_ =>
    have held : s.thread.ticket = ticket := by rw [at_]; rfl
    have changed : s.change .reply call = call.change ticket fun call =>
        { call with results := result :: call.results } := by
      simp only [Sys.change, at_]
    rw [changed]
    by_cases mine : ticket = some t
    · have waits := held.trans mine
      rw [mine, SubmitCall.change_own own]
      cases stands with
      | queued there =>
        rcases there with mem | busy
        · exact absurd waits (inv.only_queue (Sys.mem_tickets.mpr ⟨_, mem, rfl⟩)).1
        · exact absurd (at_.symm.trans busy) nofun
      | running _ _ ran results returned =>
        exact .answered (by simp) ran result (congrArg (result :: ·) results) returned
      | answered there => exact absurd there (inv.only_thread waits).2
      | gone done => exact absurd (.inr waits) done
    rw [SubmitCall.change_other own mine]
    refine stands.keep (fun other _ there => ?_) ?_ ?_ before
    · exact .inl (there.resolve_right (by rw [at_]; nofun))
    · exact fun waits => absurd (held.symm.trans waits) mine
    rw [mem_append, Option.mem_toList]
    exact or_iff_right mine
  | returned ticket mem =>
    have changed : s.change (.submitReturn ticket) call = call.change (some ticket) fun call =>
        { call with returned := (call.results.head?.map .result).toList ++ call.returned } := rfl
    rw [changed]
    by_cases mine : t = ticket
    · subst mine
      have answered : ¬ s.Unanswered t := fun waits => inv.not_replied waits mem
      rw [SubmitCall.change_own own]
      cases stands with
      | queued there => exact absurd (there.unanswered rfl) answered
      | running held => exact absurd (.inr held) answered
      | answered _ ran r results returned =>
        refine .gone answered (fun still => ?_) ran r results ?_
        · exact ((List.Nodup.mem_erase_iff inv.replied_nodup).mp still).1 rfl
        · simp [results, returned]
      | gone _ absent => exact absurd mem absent
    · rw [SubmitCall.change_other own fun same => mine (Option.some.inj same).symm]
      exact stands.keep (fun _ _ there => there) (fun held free => ⟨held, free⟩)
        (mem_erase_of_ne mine) before

theorem TicketMove.nextTicket (move : TicketMove s l s') : s.nextTicket ≤ s'.nextTicket := by
  cases move with
  | still _ _ _ _ _ _ _ _ next | dispatched _ _ _ _ _ _ _ next => exact next.ge
  | refused | dequeued | replied | returned => exact Nat.le_refl _
  | submitted => exact Nat.le_succ _

theorem TicketMove.accepted (move : TicketMove s l s') (inv : TicketInv s)
    (accepted : call.Accepted s t) : (s.change l call).Accepted s' t :=
  ⟨(Sys.change_ticket call).1.trans accepted.ticket,
    Nat.lt_of_lt_of_le accepted.old move.nextTicket, move.stands inv accepted⟩

/-- All calls are right, and no two have the same ticket. -/
structure CallInv (calls : List SubmitCall) (s : Sys) : Prop where
  each : ∀ call ∈ calls, call.Refused ∨ ∃ t, call.Accepted s t
  nodup : (calls.filterMap SubmitCall.ticket).Nodup

theorem CallInv.step {calls : List SubmitCall} (right : CallInv calls s) (move : TicketMove s l s')
    (inv : TicketInv s) : CallInv (s.record calls l) s' := by
  have there : ∀ call ∈ calls.map (s.change l), call.Refused ∨ ∃ t, call.Accepted s' t := by
    intro call mem
    obtain ⟨before, old, rfl⟩ := mem_map.mp mem
    rcases right.each before old with refused | ⟨t, accepted⟩
    · rw [(Sys.change_ticket before).2 refused.ticket]
      exact .inl refused
    · exact .inr ⟨t, move.accepted inv accepted⟩
  have tickets : (calls.map (s.change l)).filterMap SubmitCall.ticket =
      calls.filterMap SubmitCall.ticket := by
    rw [filterMap_map]
    exact filterMap_congr fun call _ => (Sys.change_ticket call).1
  have same (none : s.begins l = []) : CallInv (s.record calls l) s' := by
    unfold Sys.record
    rw [none, nil_append]
    exact ⟨there, tickets ▸ right.nodup⟩
  cases move with
  | still more queue plain silent ticket taken dispatching replied next other =>
    exact same (by cases l <;> first | rfl | cases other)
  | refused act closed =>
    have new : s.begins (.submit act) = [⟨act, none, [], [], [.closed]⟩] := if_pos closed
    unfold Sys.record
    rw [new]
    refine ⟨fun call mem => ?_, ?_⟩
    · rcases mem_cons.mp mem with rfl | old
      · exact .inl ⟨rfl, rfl, rfl⟩
      · exact there call old
    · rw [singleton_append, filterMap_cons_none rfl, tickets]
      exact right.nodup
  | submitted act isOpen =>
    have new : s.begins (.submit act) = [⟨act, some s.nextTicket, [], [], []⟩] :=
      if_neg (by rw [isOpen]; decide)
    unfold Sys.record
    rw [new]
    refine ⟨fun call mem => ?_, ?_⟩
    · rcases mem_cons.mp mem with rfl | old
      · refine .inr ⟨s.nextTicket, rfl, Nat.lt_succ_self _, ?_⟩
        exact .queued (.inl (mem_append_right _ (mem_singleton_self _))) rfl rfl rfl
      · exact there call old
    show (s.nextTicket :: (calls.map _).filterMap SubmitCall.ticket).Nodup
    rw [tickets]
    refine nodup_cons.mpr ⟨fun mem => ?_, right.nodup⟩
    obtain ⟨call, old, ticket⟩ := mem_filterMap.mp mem
    rcases right.each call old with refused | ⟨t, accepted⟩
    · exact absurd (refused.ticket.symm.trans ticket) nofun
    · obtain rfl := Option.some.inj (accepted.ticket.symm.trans ticket)
      exact absurd accepted.old (Nat.lt_irrefl _)
  | dequeued | dispatched | replied | returned => exact same rfl

theorem callInv_of_reachable {m : Monitor} (reachable : (monitor cfg).Reachable m) :
    CallInv m.calls m.sys := by
  refine reachable.induct (P := fun m => CallInv m.calls m.sys) ?_ ?_
  · rintro m₀ ⟨-, -, calls⟩
    rw [calls]
    exact ⟨nofun, .nil⟩
  intro a l b before h inv
  cases monitorMove_of_step h with
  | ran l woken s' left awake step =>
    have sys := reachable_sys before
    exact inv.step (ticketMove_of_step (queueInv_of_reachable sys) step)
      (ticketInv_of_reachable sys)
  | _ => exact inv

/-! ## Progress -/

/-- A bound on the steps of the queue thread until a ticket has its reply: those of the current
action, and those of the entries up to that of the ticket. -/
def Sys.delay (s : Sys) (t : ℕ) : ℕ :=
  s.thread.work +
    if t ∈ s.tickets then 13 * (s.queue.findIdx (fun entry => entry.ticket == some t) + 1) else 0

section

variable {t : ℕ}

theorem Sys.delay_of_not_queued (absent : t ∉ s.tickets) : s.delay t = s.thread.work := by
  rw [Sys.delay, if_neg absent, Nat.add_zero]

theorem Sys.delay_of_queued (queued : t ∈ s.tickets) : s.delay t =
      s.thread.work + 13 * (s.queue.findIdx (fun entry => entry.ticket == some t) + 1) := by
  rw [Sys.delay, if_pos queued]

/-- A step of the queue thread that does not set the reply brings it nearer. -/
theorem Sys.delay_loop_step (inv : TicketInv s') (waits : s.Unanswered t) (h : LoopStep s s') :
    s'.delay t < s.delay t := by
  cases h with
  | dequeued entry rest at_ queue =>
    have idle : s.thread.ticket = none ∧ s.thread.work = 0 := by
      rw [at_]
      exact ⟨rfl, rfl⟩
    have queued : t ∈ s.tickets := waits.resolve_right (by rw [idle.1]; exact nofun)
    rw [Sys.delay_of_queued queued, idle.2, queue, findIdx_cons]
    by_cases own : entry.ticket = some t
    · rw [Sys.delay_of_not_queued (inv.only_thread own).1, own, beq_self_eq_true]
      exact (by decide : 12 < 0 + 13 * (0 + 1))
    rw [beq_eq_false_iff_ne.mpr own]
    have behind : t ∈ rest.filterMap Entry.ticket := by
      obtain ⟨other, mem, ticket⟩ := Sys.mem_tickets.mp queued
      rw [queue] at mem
      rcases mem_cons.mp mem with rfl | mem
      · exact absurd ticket own
      · exact mem_filterMap.mpr ⟨other, mem, ticket⟩
    rw [Sys.delay_of_queued behind]
    show 12 + 13 * (rest.findIdx _ + 1) < 0 + 13 * (rest.findIdx _ + 1 + 1)
    omega
  | left at_ empty => exact absurd empty (waits.busy (by rw [at_]; rfl))
  | inner events _ inner =>
    unfold Sys.delay Sys.tickets
    rw [inner.queue]
    exact Nat.add_lt_add_right inner.work _
  | replied ticket result at_ =>
    unfold Sys.delay Sys.tickets
    rw [at_]
    exact Nat.add_lt_add_right Nat.one_pos _

end

/-- The steps of the queue thread. -/
def MonitorLabel.isLoop : MonitorLabel → Bool
  | .run l _ => l.isLoop
  | _ => false

section

variable {m m' : Monitor} {t : ℕ}

/-- A step of another thread leaves a ticket without its reply, and does not delay it. -/
theorem Sys.Unanswered.other_step (waits : s.Unanswered t) (reachable : (system cfg).Reachable s)
    (h : Controller.step cfg s l = some s') (other : l.isLoop = false) :
    s'.Unanswered t ∧ s'.delay t = s.delay t := by
  have inv := ticketInv_of_reachable (reachable.step h)
  have move := ticketMove_of_step (queueInv_of_reachable reachable) h
  refine ⟨((move.unanswered t).1 waits).resolve_right ?_, ?_⟩
  · rintro ⟨rfl, -⟩
    cases other
  obtain ⟨thread, ⟨more, queue⟩, -⟩ := step_other h other
  by_cases queued : t ∈ s.tickets
  · obtain ⟨entry, mem, ticket⟩ := Sys.mem_tickets.mp queued
    have still : t ∈ s'.tickets :=
      Sys.mem_tickets.mpr ⟨entry, by rw [queue]; exact mem_append_left _ mem, ticket⟩
    have found : s.queue.findIdx (fun entry => entry.ticket == some t) < s.queue.length :=
      findIdx_lt_length.mpr ⟨entry, mem, beq_iff_eq.mpr ticket⟩
    rw [Sys.delay_of_queued queued, Sys.delay_of_queued still, thread, queue, findIdx_append,
      if_pos found]
  · have held : s'.thread.ticket = some t := thread ▸ waits.resolve_left queued
    rw [Sys.delay_of_not_queued queued, Sys.delay_of_not_queued (inv.only_thread held).1, thread]

/-- A ticket that is out stays out, and with its reply it keeps it. -/
theorem old_of_leads (reachable : (monitor cfg).Reachable m) (leads : (monitor cfg).Leads m m')
    (old : t < m.sys.nextTicket) :
    t < m'.sys.nextTicket ∧ (m'.sys.Unanswered t → m.sys.Unanswered t) := by
  have kept := leads.induct (P := fun a => (monitor cfg).Reachable a ∧ t < a.sys.nextTicket ∧
    (a.sys.Unanswered t → m.sys.Unanswered t)) ⟨reachable, old, id⟩ ?_
  · exact kept.2
  rintro a l b h ⟨before, old, answered⟩
  refine ⟨before.step h, ?_⟩
  cases monitorMove_of_step h with
  | ran l woken s' left awake step =>
    have move := ticketMove_of_step (queueInv_of_reachable (reachable_sys before)) step
    refine ⟨Nat.lt_of_lt_of_le old move.nextTicket, fun waits => answered ?_⟩
    exact (move.unanswered t).2 waits old
  | _ => exact ⟨old, answered⟩

/-- A run with more steps of the queue thread than the delay of a ticket has set its
reply. -/
theorem answered_of_enough (reachable : (monitor cfg).Reachable m) (waits : m.sys.Unanswered t)
    (old : t < m.sys.nextTicket) {ls : List MonitorLabel} (run : (monitor cfg).exec m ls = some m')
    (enough : m.sys.delay t < ls.countP MonitorLabel.isLoop) : ¬ m'.sys.Unanswered t := by
  have served : ∀ a l b, (monitor cfg).step a l = some b →
      (monitor cfg).Reachable a ∧ a.sys.Unanswered t → MonitorLabel.isLoop l = true →
      (monitor cfg).Reachable b ∧ b.sys.Unanswered t → b.sys.delay t < a.sys.delay t := by
    rintro a l b h ⟨before, waits⟩ mine ⟨after, -⟩
    cases monitorMove_of_step h with
    | ran l woken s' left awake step =>
      exact Sys.delay_loop_step (ticketInv_of_reachable (reachable_sys after)) waits
        (loopStep_of_step step (of_decide_eq_true mine))
    | _ => cases mine
  have others : ∀ a l b, (monitor cfg).step a l = some b →
      (monitor cfg).Reachable a ∧ a.sys.Unanswered t → MonitorLabel.isLoop l = false →
      ((monitor cfg).Reachable b ∧ b.sys.Unanswered t) ∧ b.sys.delay t ≤ a.sys.delay t := by
    rintro a l b h ⟨before, waits⟩ other
    refine and_assoc.mpr ⟨before.step h, ?_⟩
    cases monitorMove_of_step h with
    | ran l woken s' left awake step =>
      obtain ⟨still, same⟩ := waits.other_step (reachable_sys before) step other
      exact ⟨still, same.le⟩
    | _ => exact ⟨waits, Nat.le_refl _⟩
  obtain ⟨first, second, mid, rfl, before, done⟩ :=
    Machine.rank_bound served others run ⟨reachable, waits⟩ enough
  have reached : (monitor cfg).Reachable mid := reachable.leads ⟨first, before⟩
  rw [Machine.exec_append_of_exec before] at run
  have old := (old_of_leads reachable ⟨first, before⟩ old).1
  exact fun waits => done ⟨reached, (old_of_leads reached ⟨second, run⟩ old).2 waits⟩

/-! ## The main result -/

/-- How a call may stand. -/
inductive SubmitCall.Right (call : SubmitCall) : Prop where
  /-- It was refused, and its action does not run. -/
  | closed (returned : call.returned = [.closed]) (ran : call.ran = [])
  | waits (returned : call.returned = []) (ran : call.ran = [] ∨ call.ran = [call.act])
  /-- Its action ran once, and it returned the result. -/
  | returned (r : Result) (returned : call.returned = [.result r]) (ran : call.ran = [call.act])
      (results : call.results = [r])

/-- What a call that has not returned can count on. -/
structure Due (cfg : Config) (m : Monitor) (t : ℕ) : Prop where
  /-- Until its reply is set, the queue thread is awake and has a step to take. -/
  enabled : m.sys.Unanswered t →
    ∃ l m', MonitorLabel.isLoop l = true ∧ (monitor cfg).step m l = some m'
  /-- The reply is set within a bounded number of steps of the queue thread, whatever the
  other threads do. -/
  bounded : m.sys.Unanswered t → ∀ ls m', (monitor cfg).exec m ls = some m' →
    m.sys.delay t < ls.countP MonitorLabel.isLoop → ¬ m'.sys.Unanswered t
  /-- With its reply set, the submitter is awake and returns. -/
  returns : ¬ m.sys.Unanswered t → ∃ m', (monitor cfg).step m (.run (.submitReturn t) ∅) = some m'

theorem SubmitCall.Accepted.right (accepted : call.Accepted s t) : call.Right := by
  cases accepted.stands with
  | queued there ran results returned => exact .waits returned (.inl ran)
  | running _ _ ran _ returned | answered _ ran _ _ returned => exact .waits returned (.inr ran)
  | gone done absent ran r results returned => exact .returned r returned ran results

/-- A call whose action has its reply, and that has not returned, can return. -/
theorem SubmitCall.Accepted.replied (accepted : call.Accepted s t) (open_ : call.returned = [])
    (answered : ¬ s.Unanswered t) : t ∈ s.replied := by
  cases accepted.stands with
  | queued there => exact absurd (there.unanswered rfl) answered
  | running held => exact absurd (.inr held) answered
  | answered replied => exact replied
  | gone done absent ran r results returned => exact absurd (open_.symm.trans returned) nofun

theorem SubmitCall.Accepted.due (reachable : (monitor cfg).Reachable m)
    (accepted : call.Accepted m.sys t) (open_ : call.returned = []) : Due cfg m t := by
  refine ⟨fun waits => ?_, fun waits ls m' run enough =>
    answered_of_enough reachable waits accepted.old run enough, fun answered => ?_⟩
  · -- The queue thread is awake and has a step to take while a submitter has no reply.
    obtain ⟨l, s', loop, step⟩ : ∃ l s', l.isLoop = true ∧ Controller.step cfg m.sys l = some s' :=
      loopStep_enabled (fun idle => waits.busy (by rw [idle]; rfl)) fun returned =>
        waits.busy (by rw [returned]; rfl)
          ((queueInv_of_reachable (reachable_sys reachable)).left returned).1
    obtain ⟨woken, left, notified⟩ := exists_left (m.sys.notifies l) m.waiting
    have awake : m.sleeps l = false := by
      rw [m.sleeps_of_loop loop]
      exact decide_eq_false ((waitInv_of_reachable reachable).awake waits)
    exact ⟨.run l woken, _, loop, monitor_run_of awake step notified⟩
  have replied := accepted.replied open_ answered
  have awake : m.sleeps (.submitReturn t) = false :=
    decide_eq_false fun asleep => answered ((waitInv_of_reachable reachable).unanswered t asleep)
  have notified : (m.sys.notifies (.submitReturn t)).left m.waiting ∅ = some m.waiting := by
    rw [show m.sys.notifies (.submitReturn t) = .nothing from rfl, Notify.left, if_pos rfl]
  exact ⟨_, monitor_run_of awake (if_pos replied) notified⟩

/-- **No wake-up is lost, and there is one reply.** In every reachable state the queue thread does
not sleep while the queue holds an action, and every call of `queue_submit` was refused and its
action does not run, or its action runs once and the call returns the result. -/
theorem no_lost_wakeup (reachable : (monitor cfg).Reachable m) :
    (m.sys.queue ≠ [] → .queueThread ∉ m.waiting) ∧
      (m.calls.filterMap SubmitCall.ticket).Nodup ∧
      ∀ call ∈ m.calls, call.Right ∧
        (call.returned = [] → ∃ t, call.ticket = some t ∧ Due cfg m t) := by
  have wait := waitInv_of_reachable reachable
  have calls := callInv_of_reachable reachable
  refine ⟨fun work asleep => work (wait.idle asleep).2, calls.nodup, fun call member => ?_⟩
  rcases calls.each call member with refused | ⟨t, accepted⟩
  · refine ⟨.closed refused.returned refused.ran, fun open_ => ?_⟩
    rw [refused.returned] at open_
    cases open_
  · exact ⟨accepted.right, fun open_ => ⟨t, accepted.ticket, accepted.due reachable open_⟩⟩

end

/-- An event that is submitted while the queue thread of the program sleeps. -/
theorem no_lost_wakeup_of_sleeper :
    ∃ cfg m, (monitor cfg).Reachable m ∧ m.sys.queue.length = 1 ∧ m.calls.length = 1 ∧
      (m.sys.queue ≠ [] → .queueThread ∉ m.waiting) ∧
      (m.calls.filterMap SubmitCall.ticket).Nodup ∧
      ∀ call ∈ m.calls, call.Right ∧
        (call.returned = [] → ∃ t, call.ticket = some t ∧ Due cfg m t) := by
  obtain ⟨cfg, accepted, -, -⟩ := controllerNew_run false 1000 16 (by decide) (by decide)
  obtain ⟨m, run, queue, calls⟩ : ∃ m, (monitor cfg).exec ⟨Sys.start runCore, ∅, []⟩
      [.sleep .queueThread, .run (.submit (.stageEvent ⟨0, 1⟩)) {.queueThread}] = some m ∧
      m.sys.queue.length = 1 ∧ m.calls.length = 1 := ⟨_, rfl, rfl, rfl⟩
  have reachable : (monitor cfg).Reachable m :=
    ⟨⟨Sys.start runCore, ∅, []⟩, ⟨⟨_, accepted, rfl⟩, rfl, rfl⟩, ⟨_, run⟩⟩
  exact ⟨cfg, m, reachable, queue, calls, no_lost_wakeup reachable⟩

end Strimserver.Controller
