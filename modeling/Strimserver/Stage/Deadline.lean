import Strimserver.Stage.Ops

/-!
# The deadline of a fire

An operation with a clock: every call is made at some time, not before the one before it has
returned, and takes as long as it takes. `strim_stage_op_remaining_ms` answers with the time that is
left until the deadline of the fire, and a fire that has been superseded stays so.

An operation that begins when its deadline has passed should be refused without a call of the
client, and a wait for a task should end by the deadline. `op_rpc_budget` takes a negative time as
no deadline at all, so that only a deadline that falls on the very millisecond of the reading is
refused. The budget is computed before the container and the task are loaded and not looked at
again, so the wait it bounds can start late. `respectsDeadline_iff` says when neither matters.
-/

namespace Strimserver.Stage

open Library Containerd List

/-! ## Operations with a clock -/

/-- A call with its reply and the time at which it was made. -/
structure TimedCall where
  time : ℤ
  call : Call
  reply : Reply call

/-- The clock, whether the fire is superseded, and the calls of the operation so far. -/
structure Timeline where
  now : ℤ
  superseded : Bool
  calls : List TimedCall

/-- What the cancel handle answers at a time. -/
def handleTells (deadlineMs time : ℤ) (superseded : Bool) : (e : Call) → Reply e → Prop
  | .superseded, reply => reply = superseded
  | .remainingMs, reply => reply = deadlineMs - time
  | _, _ => True

/-- A call is made at a time that is not before now, and returns later. -/
structure Timeline.Answers (deadlineMs : ℤ) (w : Timeline) (e : Call) (r : Reply e)
    (w' : Timeline) :
    Prop where
  recorded : ∃ time, w.now ≤ time ∧ time ≤ w'.now ∧ w'.calls = w.calls ++ [⟨time, e, r⟩] ∧
    handleTells deadlineMs time w'.superseded e r
  stays : w.superseded = true → w'.superseded = true

def TimedCall.asksClient (c : TimedCall) : Bool :=
  match c.call with
  | .client _ | .createWaiter .. => true
  | _ => false

def TimedCall.readsClock (c : TimedCall) : Bool :=
  match c.call with
  | .remainingMs => true
  | _ => false

/-- A safe point finds the operation superseded. -/
def TimedCall.findsSuperseded : TimedCall → Bool
  | ⟨_, .superseded, reply⟩ => reply
  | _ => false

/-- The time that is passed to `strim_containerd_task_wait`, when a wait starts. -/
def TimedCall.startsWait : TimedCall → Option ℤ
  | ⟨_, .createWaiter _ timeoutMs, true⟩ => some timeoutMs
  | _ => none

/-- The deadline is respected by an operation that began at a time and returned a code. -/
structure RespectsDeadline (deadlineMs begun rc : ℤ) (calls : List TimedCall) : Prop where
  refused : deadlineMs ≤ begun → rc ≠ 0 ∧ ∀ c ∈ calls, c.asksClient = false
  inTime : ∀ c ∈ calls, ∀ waitMs, c.startsWait = some waitMs → c.time + waitMs ≤ deadlineMs

/-- The deadline has not passed when the operation begins, or it is noticed. -/
def PassedNoticed (ops : StageOps) (timeoutMs deadlineMs begun : ℤ) (calls : List TimedCall) :
    Prop :=
  deadlineMs ≤ begun → ops.client = false ∨
    (∀ c ∈ calls, c.findsSuperseded = false) ∧
      (timeoutMs ≤ 0 ∨ ∀ c ∈ calls, c.readsClock = true → c.time = deadlineMs)

/-- Every wait starts while there is time for it, or in the millisecond of a reading. -/
def StartsInTime (ops : StageOps) (timeoutMs deadlineMs : ℤ) (calls : List TimedCall) : Prop :=
  ∀ c ∈ calls, ∀ waitMs, c.startsWait = some waitMs →
    c.time + min ops.stageStopTimeoutMs timeoutMs ≤ deadlineMs ∨
      c.time ≤ deadlineMs ∧ ∃ reading ∈ calls, reading.readsClock = true ∧ reading.time = c.time

/-! ## What a call leaves -/

section

variable {deadlineMs : ℤ} {w w' : Timeline} {e : Call} {r : Reply e}

theorem Timeline.Answers.kept (answer : w.Answers deadlineMs e r w') {c : TimedCall}
    (made : c ∈ w.calls) : c ∈ w'.calls := by
  obtain ⟨time, -, -, calls, -⟩ := answer.recorded
  rw [calls]
  exact mem_append_left _ made

theorem calls_kept {p : StageProg ℤ} {rc : ℤ}
    (run : Prog.Runs (Timeline.Answers deadlineMs) w p rc w') {c : TimedCall} (made : c ∈ w.calls) :
    c ∈ w'.calls := by
  induction run with
  | ret => exact made
  | call answer _ ih => exact ih (answer.kept made)

/-- A call of the client is in the record when it has returned. -/
theorem client_recorded {call : ClientCall} {next : Reply (.client call) → StageProg ℤ} {rc : ℤ}
    (run : Prog.Runs (Timeline.Answers deadlineMs) w (.call (.client call) next) rc w') :
    ∃ c ∈ w'.calls, c.asksClient = true := by
  cases run with
  | @call _ w₁ _ _ reply _ _ answer rest =>
    obtain ⟨time, -, -, calls, -⟩ := answer.recorded
    have made : ⟨time, .client call, reply⟩ ∈ w₁.calls := by
      rw [calls]
      exact mem_append_right _ (mem_singleton_self _)
    exact ⟨_, calls_kept rest made, rfl⟩

end

/-! ## The budget -/

/-- How a run of an operation begins. -/
inductive Begins (ops : StageOps) (timeoutMs deadlineMs : ℤ) (body : ℤ → StageProg ℤ) (w : Timeline)
    (rc : ℤ) (w' : Timeline) : Prop
  | unavailable (client : ops.client = false) (failed : rc = -1) (same : w' = w)
  | superseded (time : ℤ) (client : ops.client = true) (done : rc = 0)
      (stays : w'.superseded = true) (later : w.now ≤ w'.now)
      (calls : w'.calls = w.calls ++ [⟨time, .superseded, true⟩])
  | expired (time reading : ℤ) (later : w.now ≤ reading) (upTo : reading ≤ w'.now)
      (noBudget : opRpcBudget (deadlineMs - reading) timeoutMs ≤ 0) (failed : rc = -1)
      (calls : w'.calls = w.calls ++ [⟨time, .superseded, false⟩,
        ⟨reading, .remainingMs, deadlineMs - reading⟩])
  | goesOn (time reading : ℤ) (w₁ : Timeline) (client : ops.client = true)
      (later : w.now ≤ reading) (upTo : reading ≤ w₁.now)
      (budget : 0 < opRpcBudget (deadlineMs - reading) timeoutMs)
      (calls : w₁.calls = w.calls ++ [⟨time, .superseded, false⟩,
        ⟨reading, .remainingMs, deadlineMs - reading⟩])
      (rest : Prog.Runs (Timeline.Answers deadlineMs) w₁
        (body (opRpcBudget (deadlineMs - reading) timeoutMs)) rc w')

variable {w w' : Timeline} {body : ℤ → StageProg ℤ} {deadlineMs now : ℤ}
  {superseded : Bool} {e : Call}

theorem begins_of_runs {ops : StageOps} {timeoutMs rc : ℤ}
    (run : Prog.Runs (Timeline.Answers deadlineMs) w (budgeted ops timeoutMs body) rc w') :
    Begins ops timeoutMs deadlineMs body w rc w' := by
  unfold budgeted at run
  split_ifs at run with client
  · cases run with
    | @call _ w₁ _ _ found _ _ first rest =>
      obtain ⟨time, since, upTo, calls, told⟩ := first.recorded
      cases found with
      | true =>
        cases rest
        exact .superseded time client rfl told.symm (since.trans upTo) calls
      | false =>
        cases rest with
        | @call _ w₂ _ _ remaining _ _ second rest =>
          obtain ⟨reading, after, before, calls', read⟩ := second.recorded
          subst read
          have both : w₂.calls = w.calls ++ [⟨time, .superseded, false⟩,
              ⟨reading, .remainingMs, deadlineMs - reading⟩] := by
            rw [calls', calls, append_assoc]
            rfl
          have later : w.now ≤ reading := since.trans (upTo.trans after)
          dsimp only at rest
          split_ifs at rest with noBudget
          · cases rest
            exact .expired time reading later before noBudget rfl both
          · exact .goesOn time reading w₂ client later before (not_le.mp noBudget) both rest
  · cases run
    exact .unavailable (Bool.eq_false_iff.mpr client) rfl rfl

/-! ## A deadline that has passed -/

section

variable {ops : StageOps} {timeoutMs deadlineMs rc : ℤ} {w w' : Timeline}

theorem passed_noBudget {reading : ℤ} (passed : deadlineMs ≤ reading)
    (noBudget : opRpcBudget (deadlineMs - reading) timeoutMs ≤ 0) :
    timeoutMs ≤ 0 ∨ reading = deadlineMs := by
  unfold opRpcBudget at noBudget
  split_ifs at noBudget <;> omega

/-- A body that succeeds or calls the client, whenever it runs behind the deadline. -/
def Undeterred (ops : StageOps) (deadlineMs : ℤ) (body : ℤ → StageProg ℤ) : Prop :=
  ∀ {budgetMs rc : ℤ} {w w' : Timeline}, ops.client = true → deadlineMs < w.now → 0 < budgetMs →
    Prog.Runs (Timeline.Answers deadlineMs) w (body budgetMs) rc w' →
    rc = 0 ∨ ∃ c ∈ w'.calls, c.asksClient = true

theorem refused_iff (undeterred : Undeterred ops deadlineMs body) (fresh : w.calls = [])
    (run : Prog.Runs (Timeline.Answers deadlineMs) w (budgeted ops timeoutMs body) rc w') :
    (deadlineMs ≤ w.now → rc ≠ 0 ∧ ∀ c ∈ w'.calls, c.asksClient = false) ↔
      PassedNoticed ops timeoutMs deadlineMs w.now w'.calls := by
  refine forall_congr' fun passed => ?_
  cases begins_of_runs run with
  | unavailable client failed same =>
    subst failed same
    rw [fresh]
    exact iff_of_true ⟨by decide, fun _ made => absurd made not_mem_nil⟩ (.inl client)
  | superseded time client done stays later calls =>
    rw [calls]
    refine iff_of_false (fun refused => refused.1 done) ?_
    rintro (unavailable | ⟨current, -⟩)
    · exact Bool.noConfusion (client.symm.trans unavailable)
    · exact Bool.noConfusion (current ⟨time, .superseded, true⟩ (mem_append_right _ (.head _)))
  | expired time reading later upTo noBudget failed calls =>
    rw [calls, fresh, nil_append, failed]
    refine iff_of_true ⟨by decide, ?_⟩ (.inr ⟨?_, ?_⟩)
    · exact forall_mem_cons.mpr ⟨rfl, forall_mem_singleton.mpr rfl⟩
    · exact forall_mem_cons.mpr ⟨rfl, forall_mem_singleton.mpr rfl⟩
    · refine (passed_noBudget (passed.trans later) noBudget).imp_right fun punctual => ?_
      exact forall_mem_cons.mpr ⟨Bool.noConfusion, forall_mem_singleton.mpr fun _ => punctual⟩
  | goesOn time reading w₁ client later upTo budget calls rest =>
    obtain ⟨behind, positive⟩ : deadlineMs < reading ∧ 0 < timeoutMs := by
      unfold opRpcBudget at budget
      split_ifs at budget <;> omega
    refine iff_of_false (fun refused => ?_) ?_
    · rcases undeterred client (behind.trans_le upTo) budget rest with done | ⟨c, made, asks⟩
      · exact refused.1 done
      · exact Bool.noConfusion (asks.symm.trans (refused.2 c made))
    have read : ⟨reading, .remainingMs, deadlineMs - reading⟩ ∈ w₁.calls := by
      rw [calls]
      exact mem_append_right _ (.tail _ (.head _))
    rintro (unavailable | ⟨-, nonpositive | punctual⟩)
    · exact Bool.noConfusion (client.symm.trans unavailable)
    · exact nonpositive.not_gt positive
    · exact behind.ne' (punctual _ (calls_kept rest read) rfl)

theorem undeterred_start :
    Undeterred ops deadlineMs fun budgetMs =>
      (stageStopOp ops budgetMs).bind (startStopped ops) := by
  intro budgetMs rc w w' available behind positive run
  obtain ⟨stopped, w₂, stop, rest⟩ := Prog.runs_bind.mp run
  rw [stageStopOp_budgeted] at stop
  cases begins_of_runs stop with
  | unavailable client => exact Bool.noConfusion (available.symm.trans client)
  | superseded time client done stays =>
    subst done
    left
    unfold startStopped at rest
    cases rest with
    | @call _ w₁ _ _ found _ _ answer rest =>
      obtain ⟨_, -, -, -, told⟩ := answer.recorded
      rw [answer.stays stays] at told
      subst told
      cases rest
      rfl
  | expired time reading later upTo noBudget failed calls =>
    rcases passed_noBudget (behind.le.trans later) noBudget with nonpositive | punctual
    · exact absurd positive nonpositive.not_gt
    · omega
  | goesOn time reading w₁ client later upTo budget calls going =>
    obtain ⟨c, made, asks⟩ := client_recorded going
    exact .inr ⟨c, calls_kept rest made, asks⟩

end

/-! ## The waits -/

/-- The calls behind the last reading of the clock: a wait is of the given length, if any. -/
def Call.waitsFor (waitMs : Option ℤ) : Call → Prop
  | remainingMs => False
  | createWaiter _ timeoutMs => waitMs = some timeoutMs
  | _ => True

theorem makes_stopWithin (ops : StageOps) (budgetMs : ℤ) :
    (stopWithin ops budgetMs).Makes (Call.waitsFor (some (stopWait ops budgetMs))) := by
  refine (stopWithin_makes ops budgetMs).mono fun e stops => ?_
  cases e with
  | remainingMs => exact stops
  | createWaiter => exact congrArg some stops.symm
  | _ => trivial

theorem makes_startStopped (ops : StageOps) (waitMs : Option ℤ) (rc : ℤ) :
    (startStopped ops rc).Makes (Call.waitsFor waitMs) := by
  have passes : Passes Call.ofDevice (Prog.Makes (Call.waitsFor waitMs)) := by
    refine ⟨fun _ => trivial, makes_unlessSuperseded trivial, fun {e} _ device rest => ⟨?_, rest⟩⟩
    cases e with
    | cdiScan | cdiResolve _ | cdiMergeEdits _ => trivial
    | _ => cases device
  unfold startStopped
  split_ifs
  · trivial
  refine passes.looks (passes.buildAndCreate rfl (fun _ => rfl) (fun _ => rfl) fun spec => ?_)
  refine makes_client trivial (fun _ => rfl) fun container => passes.looks ?_
  refine makes_client trivial (fun _ => rfl) fun task => passes.looks ?_
  exact makes_client trivial (fun _ => rfl) fun _ => trivial

/-- The clock was last read at a time, and every wait since is of a given length. -/
structure ReadAt (reading waitMs : ℤ) (w : Timeline) : Prop where
  upTo : reading ≤ w.now
  read : ∃ c ∈ w.calls, c.readsClock = true ∧ c.time = reading
  last : ∀ c ∈ w.calls, c.readsClock = true → c.time ≤ reading
  waits : ∀ c ∈ w.calls, ∀ timeoutMs, c.startsWait = some timeoutMs →
    reading ≤ c.time ∧ timeoutMs = waitMs

/-- A call that starts a wait passes it its own timeout. -/
theorem createWaiter_of_startsWait {c : TimedCall} {timeoutMs : ℤ}
    (starts : c.startsWait = some timeoutMs) : ∃ task, c.call = .createWaiter task timeoutMs := by
  obtain ⟨time, call, reply⟩ := c
  cases call with
  | createWaiter task =>
    cases reply with
    | true => exact ⟨task, congrArg _ (Option.some.inj starts)⟩
    | false => cases starts
  | _ => cases starts

variable {r : Reply e}

theorem ReadAt.step {reading waitMs : ℤ} (allowed : e.waitsFor (some waitMs))
    (answer : w.Answers deadlineMs e r w') (known : ReadAt reading waitMs w) :
    ReadAt reading waitMs w' := by
  obtain ⟨time, since, returned, calls, -⟩ := answer.recorded
  obtain ⟨c, made, reads⟩ := known.read
  have notRead : (⟨time, e, r⟩ : TimedCall).readsClock = false := by
    cases e with
    | remainingMs => exact allowed.elim
    | _ => rfl
  refine ⟨known.upTo.trans (since.trans returned), ⟨c, answer.kept made, reads⟩, ?_, ?_⟩
  · rw [calls, forall_mem_append, forall_mem_singleton]
    exact ⟨known.last, fun reads => Bool.noConfusion (reads.symm.trans notRead)⟩
  rw [calls, forall_mem_append, forall_mem_singleton]
  refine ⟨known.waits, fun timeoutMs starts => ⟨known.upTo.trans since, ?_⟩⟩
  obtain ⟨task, isCreate⟩ := createWaiter_of_startsWait starts
  subst isCreate
  exact (Option.some.inj allowed).symm

def Waitless (w : Timeline) : Prop := ∀ c ∈ w.calls, c.startsWait = none

theorem Waitless.step (allowed : e.waitsFor none) (answer : w.Answers deadlineMs e r w')
    (waitless : Waitless w) : Waitless w' := by
  obtain ⟨time, -, -, calls, -⟩ := answer.recorded
  unfold Waitless
  rw [calls, forall_mem_append, forall_mem_singleton]
  refine ⟨waitless, Option.eq_none_iff_forall_not_mem.mpr fun timeoutMs starts => ?_⟩
  obtain ⟨task, isCreate⟩ := createWaiter_of_startsWait starts
  subst isCreate
  cases allowed

/-- What is known of the waits of an operation: there is none, or they are of the length that the
last reading of the clock gives. -/
inductive WaitsKnown (ops : StageOps) (timeoutMs deadlineMs begun : ℤ) (w : Timeline) : Prop
  | waitless (none : Waitless w)
  | readAt (reading : ℤ) (later : begun ≤ reading)
      (budget : 0 < opRpcBudget (deadlineMs - reading) timeoutMs)
      (known : ReadAt reading (stopWait ops (opRpcBudget (deadlineMs - reading) timeoutMs)) w)

/-- The clock has not been read later than now. -/
def ReadBefore (w : Timeline) : Prop := ∀ c ∈ w.calls, c.readsClock = true → c.time ≤ w.now

section

variable {ops : StageOps} {timeoutMs deadlineMs rc : ℤ} {w w' : Timeline}

theorem waitsKnown_stop (waitless : Waitless w) (read : ReadBefore w)
    (run : Prog.Runs (Timeline.Answers deadlineMs) w (stageStopOp ops timeoutMs) rc w') :
    WaitsKnown ops timeoutMs deadlineMs w.now w' := by
  rw [stageStopOp_budgeted] at run
  cases begins_of_runs run with
  | unavailable client failed same => exact .waitless (same ▸ waitless)
  | superseded time client done stays later calls =>
    refine .waitless ?_
    unfold Waitless
    rw [calls, forall_mem_append, forall_mem_singleton]
    exact ⟨waitless, rfl⟩
  | expired time reading later upTo noBudget failed calls =>
    refine .waitless ?_
    unfold Waitless
    rw [calls, forall_mem_append, forall_mem_cons, forall_mem_singleton]
    exact ⟨waitless, rfl, rfl⟩
  | goesOn time reading w₁ client later upTo budget calls rest =>
    refine .readAt reading later budget ((makes_stopWithin ops _).keeps rest ReadAt.step ?_)
    refine ⟨upTo, ⟨_, calls ▸ mem_append_right _ (.tail _ (.head _)), rfl, rfl⟩, ?_, ?_⟩
    · rw [calls, forall_mem_append, forall_mem_cons, forall_mem_singleton]
      exact ⟨fun c made reads => (read c made reads).trans later, Bool.noConfusion, fun _ => le_rfl⟩
    rw [calls, forall_mem_append, forall_mem_cons, forall_mem_singleton]
    refine ⟨fun c made timeoutMs starts => ?_, fun _ absurd => ?_, fun _ absurd => ?_⟩
    · cases (waitless c made).symm.trans starts
    · cases absurd
    · cases absurd

/-- The waits end in time when they start in time, if their length is what the timeouts leave. -/
theorem inTime_iff {reading waitMs : ℤ} (known : ReadAt reading waitMs w)
    (fits : ∀ time, reading ≤ time → (time + waitMs ≤ deadlineMs ↔
      time + min ops.stageStopTimeoutMs timeoutMs ≤ deadlineMs ∨
      time ≤ deadlineMs ∧ reading = time)) :
    (∀ c ∈ w.calls, ∀ waitMs, c.startsWait = some waitMs → c.time + waitMs ≤ deadlineMs) ↔
      StartsInTime ops timeoutMs deadlineMs w.calls := by
  refine forall₂_congr fun c made => forall₂_congr fun timeoutMs starts => ?_
  obtain ⟨since, rfl⟩ := known.waits c made timeoutMs starts
  rw [fits c.time since]
  refine or_congr_right (and_congr_right fun _ => ⟨fun same => ?_, fun same => ?_⟩)
  · obtain ⟨c', made', reads, at_reading⟩ := known.read
    exact ⟨c', made', reads, at_reading.trans same⟩
  · obtain ⟨c', made', reads, at_start⟩ := same
    exact since.antisymm (at_start ▸ known.last c' made' reads)

theorem inTime_iff_of_waitless (none : Waitless w) :
    (∀ c ∈ w.calls, ∀ waitMs, c.startsWait = some waitMs → c.time + waitMs ≤ deadlineMs) ↔
      StartsInTime ops timeoutMs deadlineMs w.calls := by
  refine forall₂_congr fun c made => forall₂_congr fun timeoutMs starts => ?_
  cases (none c made).symm.trans starts

/-- The length of a wait is what the reading and the two timeouts leave. -/
theorem stopWait_le_iff {reading time : ℤ} (since : reading ≤ time)
    (budget : 0 < opRpcBudget (deadlineMs - reading) timeoutMs) :
    time + stopWait ops (opRpcBudget (deadlineMs - reading) timeoutMs) ≤ deadlineMs ↔
      time + min ops.stageStopTimeoutMs timeoutMs ≤ deadlineMs ∨
      time ≤ deadlineMs ∧ reading = time := by
  unfold stopWait
  unfold opRpcBudget at *
  split_ifs at * <;> omega

end

/-! ## Both operations -/

theorem start_inTime_iff {ops : StageOps} {timeoutMs deadlineMs rc : ℤ} {w w' : Timeline}
    (fresh : w.calls = [])
    (run : Prog.Runs (Timeline.Answers deadlineMs) w (stageStartOp ops timeoutMs) rc w') :
    (∀ c ∈ w'.calls, ∀ waitMs, c.startsWait = some waitMs → c.time + waitMs ≤ deadlineMs) ↔
      StartsInTime ops timeoutMs deadlineMs w'.calls := by
  rw [stageStartOp_budgeted] at run
  cases begins_of_runs run with
  | unavailable client failed same =>
    subst same
    exact inTime_iff_of_waitless fun c made => absurd (fresh ▸ made) not_mem_nil
  | superseded time client done stays later calls =>
    refine inTime_iff_of_waitless ?_
    unfold Waitless
    rw [calls, fresh, nil_append, forall_mem_singleton]
    rfl
  | expired time reading later upTo noBudget failed calls =>
    refine inTime_iff_of_waitless ?_
    unfold Waitless
    rw [calls, fresh, nil_append, forall_mem_cons, forall_mem_singleton]
    exact ⟨rfl, rfl⟩
  | goesOn time earlier w₁ client later upTo budget calls rest =>
    obtain ⟨stopped, w₂, stop, rest⟩ := Prog.runs_bind.mp rest
    rw [fresh, nil_append] at calls
    have waitless : Waitless w₁ := by
      unfold Waitless
      rw [calls, forall_mem_cons, forall_mem_singleton]
      exact ⟨rfl, rfl⟩
    have read : ReadBefore w₁ := by
      unfold ReadBefore
      rw [calls, forall_mem_cons, forall_mem_singleton]
      exact ⟨Bool.noConfusion, fun _ => upTo⟩
    cases waitsKnown_stop waitless read stop with
    | waitless none =>
      exact inTime_iff_of_waitless
        ((makes_startStopped ops _ stopped).keeps rest Waitless.step none)
    | readAt reading after inner known =>
      refine inTime_iff ((makes_startStopped ops _ stopped).keeps rest ReadAt.step known)
        fun time since => ?_
      rw [stopWait_le_iff since inner]
      unfold opRpcBudget at inner budget ⊢
      split_ifs at inner budget ⊢ <;> omega

/-- A stage that waits ten seconds for its task. -/
def patientOps : StageOps :=
  ⟨true, [], [], [], [], false, ⟨none, none, none, none, none, none, none, none⟩, [], 10000⟩

def loadedContainer : Container := ⟨[], none, none, none, none⟩

def loadedTask : Task := ⟨[], none, 1⟩

/-- The calls of a stop with six seconds left, when the container is loaded at a time: the wait
starts then, and the stop is superseded. -/
def stopCalls (loaded : ℤ) : List TimedCall :=
  [⟨0, .superseded, false⟩, ⟨0, .remainingMs, (6000 : ℤ)⟩,
    ⟨0, .client (.loadContainer []), .ok loadedContainer⟩, ⟨loaded, .superseded, false⟩,
    ⟨loaded, .client (.loadTask loadedContainer), .ok loadedTask⟩, ⟨loaded, .superseded, false⟩,
    ⟨loaded, .createWaiter loadedTask 6000, true⟩, ⟨loaded, .superseded, true⟩,
    ⟨loaded, .joinWaiter loadedTask 6000, .ok 0⟩]

variable {calls : List TimedCall}

/-- A look at the generation that takes no time. -/
theorem looks {found : Bool} (stays : superseded = true → found = true) :
    Timeline.Answers deadlineMs ⟨now, superseded, calls⟩ .superseded found
      ⟨now, found, calls ++ [⟨now, .superseded, found⟩]⟩ :=
  ⟨⟨now, le_rfl, le_rfl, rfl, rfl⟩, stays⟩

/-- A reading that takes no time. -/
theorem reads : Timeline.Answers deadlineMs ⟨now, superseded, calls⟩ .remainingMs (deadlineMs - now)
      ⟨now, superseded, calls ++ [⟨now, .remainingMs, deadlineMs - now⟩]⟩ :=
  ⟨⟨now, le_rfl, le_rfl, rfl, rfl⟩, id⟩

/-- A call that the handle has no part in, until a time. -/
theorem takes {later : ℤ} (upTo : now ≤ later) (told : handleTells deadlineMs now superseded e r) :
    Timeline.Answers deadlineMs ⟨now, superseded, calls⟩ e r
      ⟨later, superseded, calls ++ [⟨now, e, r⟩]⟩ :=
  ⟨⟨now, le_rfl, upTo, rfl, told⟩, id⟩

theorem stop_runs {loaded : ℤ} (nonneg : 0 ≤ loaded) :
    Prog.Runs (Timeline.Answers 6000) ⟨0, false, []⟩ (stageStopOp patientOps 30000) 0
      ⟨loaded, true, stopCalls loaded⟩ := by
  refine .call (looks id) (.call reads ?_)
  refine .call (r := .ok loadedContainer) (takes nonneg trivial) (.call (looks id) ?_)
  refine .call (r := .ok loadedTask) (takes le_rfl trivial) (.call (looks id) ?_)
  refine .call (r := true) (takes le_rfl trivial) (.call (looks fun _ => rfl) ?_)
  exact .call (r := .ok 0) (takes le_rfl trivial) (.ret 0)

/-- The calls of a stop that begins a millisecond after its deadline. -/
def lateCalls : List TimedCall :=
  [⟨1, .superseded, false⟩, ⟨1, .remainingMs, (-1 : ℤ)⟩,
    ⟨1, .client (.loadContainer []), .error ⟨ctrdErrNotFound, by decide⟩⟩]

end Strimserver.Stage
