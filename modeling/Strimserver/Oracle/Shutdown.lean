import Strimserver.Oracle.System

/-!
# The shutdown of the Go controller

`run` from the signal on: the HTTP server is shut down, the goroutines of the ticker and of the
containerd listener are joined, the operations are waited for, the stages are torn down, and the
channel is closed. All the while `Run` takes actions off the channel, and handlers of HTTP requests
send to it. `Shutdown` of the server waits for its handlers or gives up after a time, and does not
wait for the handlers of `/subscribe`, whose connections are hijacked and which send the removal of
their listener at their end.

Two things go wrong. A handler that is still there when the channel is closed panics with its next
send, and a pass that is still on the channel when the operations have been waited for launches
operations behind the wait. `shutdown_safe` says that these are all.
-/

namespace Strimserver.Oracle

open Strimserver.Controller (Listener)
open Library List Option

/-! ## Handlers of requests -/

/-- What a client asks for. -/
inductive Request where
  | event (path status : String)
  | control (component action : String)
  | status
  | subscribe (l : Listener)

/-- The goroutine of a handler: whether its connection is hijacked, and what it is to send. -/
structure Handler where
  hijacked : Bool
  todo : List Action

def Request.handler : Request → Handler
  | .event path state => ⟨false, [.pathEvent path state, .reconcile]⟩
  | .control component action => ⟨false, [.control component action, .reconcile]⟩
  | .status => ⟨false, [.status]⟩
  | .subscribe l => ⟨true, [.addListener l, .removeListener l]⟩

/-! ## The process -/

/-- How far `run` has come. -/
inductive Phase where
  | serving
  /-- In `srv.Shutdown`. -/
  | stopping
  /-- At the receives from `tickerDone` and `listenerDone`. -/
  | joining
  /-- In `WaitForOps`. -/
  | waiting
  /-- Before the send of `Teardown`. -/
  | tearing
  /-- At the receive of its reply. -/
  | replying
  /-- The channel is closed. -/
  | closed
  deriving DecidableEq

/-- The program with its handlers. -/
structure Process where
  system : System
  phase : Phase
  handlers : List Handler
  /-- The goroutines of the ticker and of the containerd listener. -/
  ticker : Bool
  listener : Bool
  /-- `rootContext` is done. -/
  cancelled : Bool
  /-- The operations that had been launched when `WaitForOps` returned. -/
  waited : Option ℕ
  /-- A send on the closed channel. -/
  panicked : Bool

def Process.send (p : Process) (a : Action) : Process :=
  if p.phase = .closed then { p with panicked := true }
  else { p with system := { p.system with queue := p.system.queue ++ [a] } }

/-- The steps of the program. -/
inductive Event where
  /-- The signal. -/
  | cancel
  | accept (r : Request)
  /-- A handler sends what is next. -/
  | handlerSends (k : ℕ)
  /-- A handler returns early. -/
  | handlerQuits (k : ℕ)
  | tickerSends
  | tickerEnds
  | listenerSends (stage state : String)
  | listenerEnds
  /-- `run` goes on. The flag says that `srv.Shutdown` gave up. -/
  | main (timedOut : Bool)
  | run (order : List String) (env : ReconcileEnv)
  | opReturns (op : ℕ) (error : Bool)
  | opSubmits (op : ℕ)
  | tick (now : Time)

/-- The system takes a step of its own. -/
def Process.internal (p : Process) (l : Label) : Option Process :=
  (p.system.step l).map fun system => { p with system }

/-- The next statement of `run`. -/
def Process.advance (p : Process) (timedOut : Bool) : Option Process :=
  match p.phase with
  | .serving => if p.cancelled then some { p with phase := .stopping } else none
  | .stopping =>
    if timedOut || p.handlers.all (fun h => h.hijacked || h.todo.isEmpty) then
      some { p with phase := .joining }
    else none
  | .joining => if !p.ticker && !p.listener then some { p with phase := .waiting } else none
  | .waiting =>
    if p.system.ops.all fun op => op.phase = .ended then
      some { p with phase := .tearing, waited := some p.system.ops.length }
    else none
  | .tearing => some { p.send .teardown with phase := .replying }
  | .replying => if .teardown ∈ p.system.queue then none else some { p with phase := .closed }
  | .closed => none

/-- A step of the program. -/
def Process.step (p : Process) : Event → Option Process
  | .cancel => some { p with cancelled := true }
  | .accept r =>
    if p.phase = .serving then some { p with handlers := p.handlers ++ [r.handler] } else none
  | .handlerSends k =>
    p.handlers[k]?.bind fun h =>
      match h.todo with
      | [] => none
      | a :: todo => some { p.send a with handlers := p.handlers.set k { h with todo } }
  | .handlerQuits k =>
    p.handlers[k]?.map fun h => { p with handlers := p.handlers.set k { h with todo := [] } }
  | .tickerSends => if p.ticker then some (p.send .reconcile) else none
  | .tickerEnds => if p.cancelled then some { p with ticker := false } else none
  | .listenerSends stage state =>
    if p.listener then some (p.send (.stageEvent stage state)) else none
  | .listenerEnds => some { p with listener := false }
  | .main timedOut => p.advance timedOut
  | .run order env => p.internal (.run order env)
  | .opReturns i error => p.internal (.opReturns i error)
  | .opSubmits i =>
    if p.phase = .closed then
      (p.system.step (.opSubmits i)).map fun _ => { p with panicked := true }
    else p.internal (.opSubmits i)
  | .tick now => p.internal (.tick now)

def process (c : Controller) (clock : Time) : Machine Process Event where
  initial p := p = ⟨⟨c, [], [], clock⟩, .serving, [], true, true, false, none, false⟩
  step := Process.step

/-- When `WaitForOps` returns, no pass is on the channel or to be requested, and when the channel is
closed, no handler has anything to send. -/
def endsInOrder (p : Process) : Event → Bool
  | .main _ =>
    match p.phase with
    | .waiting =>
      decide (Action.reconcile ∉ p.system.queue) &&
        p.handlers.all fun h => decide (Action.reconcile ∉ h.todo)
    | .replying => p.handlers.all fun h => h.todo.isEmpty
    | _ => true
  | _ => true

/-! ## Actions behind the wait -/

/-- An action that is not a pass launches and ends no operation. -/
theorem perform_phases {a : Action} (other : a ≠ .reconcile) (order : List String)
    (env : ReconcileEnv) (s : System) :
    (System.perform order env s a).ops.map Op.phase = s.ops.map Op.phase := by
  have excuse : ∀ (s : System) name, (s.excuse name).ops.map Op.phase = s.ops.map Op.phase := by
    intro s name
    rw [System.excuse, List.map_map]
    rfl
  cases a with
  | reconcile => exact (other rfl).elim
  | stageEvent stage state =>
    rw [System.perform]
    cases (handleStageEvent s.controller stage state).2 with
    | ok _ => exact excuse _ stage
    | error => rfl
  | teardown =>
    show (order.foldl System.tearDown s).ops.map Op.phase = _
    induction order generalizing s with
    | nil => rfl
    | cons name rest ih =>
      rw [foldl_cons, ih, System.tearDown]
      split_ifs
      · exact excuse _ name
      · rfl
  | _ => rfl

theorem perform_queue (a : Action) (order : List String) (env : ReconcileEnv) (s : System) :
    (System.perform order env s a).queue = s.queue := by
  cases a with
  | stageEvent stage state =>
    rw [System.perform]
    cases (handleStageEvent s.controller stage state).2 <;> rfl
  | reconcile =>
    show (order.foldl (System.visit env) s).queue = _
    induction order generalizing s with
    | nil => rfl
    | cons name rest ih =>
      rw [foldl_cons, ih, System.visit]
      split_ifs <;> rfl
  | teardown =>
    show (order.foldl System.tearDown s).queue = _
    induction order generalizing s with
    | nil => rfl
    | cons name rest ih =>
      rw [foldl_cons, ih, System.tearDown]
      split_ifs <;> rfl
  | _ => rfl

/-! ## The invariant -/

/-- The goroutines have been joined. -/
def Phase.joined : Phase → Bool
  | waiting | tearing | replying | closed => true
  | _ => false

/-- The operations have been waited for. -/
def Phase.waited : Phase → Bool
  | tearing | replying | closed => true
  | _ => false

/-- No operation can be launched any more. -/
structure Quiet (p : Process) : Prop where
  ended : ∀ phase ∈ p.system.ops.map Op.phase, phase = .ended
  queue : Action.reconcile ∉ p.system.queue
  handlers : ∀ h ∈ p.handlers, Action.reconcile ∉ h.todo

/-- What holds in a run that ends in order. -/
structure Safe (p : Process) : Prop where
  panicked : p.panicked = false
  joined : p.phase.joined = true → p.ticker = false ∧ p.listener = false
  waited : p.phase.waited = false → p.waited = none
  launched : ∀ n ∈ p.waited, (p.system.ops.map Op.phase).length = n
  quiet : p.phase.waited = true → Quiet p
  silent : p.phase = .closed → ∀ h ∈ p.handlers, h.todo = []

section

variable {p p' : Process}

theorem Phase.joined_of_waited {phase : Phase} (waited : phase.waited = true) :
    phase.joined = true := by
  cases phase <;> first | rfl | cases waited

theorem Safe.sent (safe : Safe p) (a : Action) (handlers : List Handler)
    (opened : p.phase ≠ .closed)
    (calm : p.phase.waited = true → a ≠ .reconcile ∧ ∀ h ∈ handlers, Action.reconcile ∉ h.todo) :
    Safe { p.send a with handlers } := by
  rw [Process.send, if_neg opened]
  refine ⟨safe.panicked, safe.joined, safe.waited, safe.launched, fun late => ?_,
    fun closed => (opened closed).elim⟩
  obtain ⟨ended, queue, -⟩ := safe.quiet late
  obtain ⟨other, handlers⟩ := calm late
  refine ⟨ended, fun mem => ?_, handlers⟩
  rcases mem_append.mp mem with before | new
  · exact queue before
  · exact other (mem_singleton.mp new).symm

/-- A goroutine that has not been joined sends. -/
theorem Safe.goroutine (safe : Safe p) (a : Action) (early : p.phase.joined = true → False) :
    Safe (p.send a) := by
  refine safe.sent a (p.send a).handlers (fun closed => early ?_) fun late =>
    (early (Phase.joined_of_waited late)).elim
  rw [closed]
  rfl

/-- The signal, or the end of a goroutine. -/
theorem Safe.ends (safe : Safe p) {ticker listener : Bool} (cancelled : Bool)
    (ended : p.phase.joined = true → ticker = false ∧ listener = false) :
    Safe { p with ticker, listener, cancelled } :=
  ⟨safe.panicked, ended, safe.waited, safe.launched,
    fun late => ⟨(safe.quiet late).ended, (safe.quiet late).queue, (safe.quiet late).handlers⟩,
    safe.silent⟩

/-- The system moves and the operations stay as they are. -/
theorem Safe.moved (safe : Safe p) {system : System}
    (phases : p.phase.waited = true → system.ops.map Op.phase = p.system.ops.map Op.phase)
    (queue : p.phase.waited = true → Action.reconcile ∉ system.queue) : Safe { p with system } := by
  refine ⟨safe.panicked, safe.joined, safe.waited, fun n mem => ?_, fun late => ?_, safe.silent⟩
  · cases late : p.phase.waited with
    | false =>
      rw [safe.waited late] at mem
      cases mem
    | true =>
      rw [phases late]
      exact safe.launched n mem
  · refine ⟨?_, queue late, (safe.quiet late).handlers⟩
    rw [phases late]
    exact (safe.quiet late).ended

/-- Once all operations have ended, none returns or sends. -/
theorem no_op_of_ended {s : System} {i : ℕ} {op : Op}
    (ended : ∀ phase ∈ s.ops.map Op.phase, phase = .ended) (found : s.ops[i]? = some op) :
    op.phase = .ended :=
  ended _ (mem_map_of_mem (mem_of_getElem? found))

theorem Safe.ran (safe : Safe p) {order : List String} {env : ReconcileEnv}
    (step : p.internal (.run order env) = some p') : Safe p' := by
  obtain ⟨system, ran, moved⟩ := map_eq_some_iff.mp step
  cases moved
  rw [System.step] at ran
  cases queue : p.system.queue with
  | nil =>
    rw [queue] at ran
    cases ran
  | cons a =>
    rw [queue] at ran
    obtain ⟨-, ran⟩ := ite_none_right_eq_some.mp ran
    cases ran
    refine safe.moved (fun late => ?_) fun late => ?_
    · refine perform_phases ?_ order env _
      rintro rfl
      exact (safe.quiet late).queue (queue ▸ mem_cons_self)
    rw [perform_queue]
    intro mem
    exact (safe.quiet late).queue (queue ▸ mem_cons_of_mem a mem)

/-- A step of an operation, which is over once they have all ended. -/
theorem Safe.operated (safe : Safe p) {i : ℕ} {op : Op} {system : System}
    (found : p.system.ops[i]? = some op) (alive : op.phase ≠ .ended) : Safe { p with system } := by
  have early : p.phase.waited = true → False := fun late =>
    alive (no_op_of_ended (safe.quiet late).ended found)
  exact safe.moved (fun late => (early late).elim) fun late => (early late).elim

theorem Safe.advanced (safe : Safe p) {timedOut : Bool}
    (guarded : endsInOrder p (.main timedOut) = true) (step : p.advance timedOut = some p') :
    Safe p' := by
  unfold Process.advance at step
  unfold endsInOrder at guarded
  cases phase : p.phase with
  | serving | stopping =>
    rw [phase] at step
    obtain ⟨-, moved⟩ := ite_none_right_eq_some.mp step
    cases moved
    exact ⟨safe.panicked, nofun, fun _ => safe.waited (by rw [phase]; rfl), safe.launched,
      nofun, nofun⟩
  | joining =>
    rw [phase] at step
    obtain ⟨joined, moved⟩ := ite_none_right_eq_some.mp step
    cases moved
    rw [Bool.and_eq_true, Bool.not_eq_true', Bool.not_eq_true'] at joined
    exact ⟨safe.panicked, fun _ => joined, fun _ => safe.waited (by rw [phase]; rfl), safe.launched,
      nofun, nofun⟩
  | waiting =>
    rw [phase] at step guarded
    obtain ⟨ended, moved⟩ := ite_none_right_eq_some.mp step
    cases moved
    rw [Bool.and_eq_true, decide_eq_true_eq, List.all_eq_true] at guarded
    refine ⟨safe.panicked, fun _ => safe.joined (by rw [phase]; rfl), nofun, ?_, fun _ => ?_,
      nofun⟩
    · intro n mem
      cases mem
      exact length_map _
    refine ⟨fun phase mem => ?_, guarded.1, fun h mem => of_decide_eq_true (guarded.2 h mem)⟩
    obtain ⟨op, launched, rfl⟩ := mem_map.mp mem
    exact of_decide_eq_true (all_eq_true.mp ended op launched)
  | tearing =>
    have opened : p.phase ≠ .closed := by
      rw [phase]
      decide
    have late : p.phase.waited = true := by
      rw [phase]
      rfl
    rw [phase] at step
    cases step
    have sent := safe.sent .teardown p.handlers opened fun late =>
      ⟨by decide, (safe.quiet late).handlers⟩
    rw [Process.send, if_neg opened] at sent ⊢
    have quiet := sent.quiet late
    exact ⟨sent.panicked, fun _ => sent.joined (Phase.joined_of_waited late), nofun, sent.launched,
      fun _ => ⟨quiet.ended, quiet.queue, quiet.handlers⟩, nofun⟩
  | replying =>
    have late : p.phase.waited = true := by
      rw [phase]
      rfl
    rw [phase] at step guarded
    obtain ⟨-, moved⟩ := ite_none_left_eq_some.mp step
    cases moved
    have quiet := safe.quiet late
    refine ⟨safe.panicked, fun _ => safe.joined (Phase.joined_of_waited late), nofun,
      safe.launched, fun _ => ⟨quiet.ended, quiet.queue, quiet.handlers⟩, fun _ h mem => ?_⟩
    exact List.isEmpty_iff.mp (all_eq_true.mp guarded h mem)
  | closed =>
    rw [phase] at step
    cases step

/-- What holds of all handlers, when one of them changes. -/
theorem forall_mem_set {P : Handler → Prop} {handlers : List Handler} {k : ℕ} {h : Handler}
    (all : ∀ h ∈ handlers, P h) (new : P h) : ∀ h' ∈ handlers.set k h, P h' := by
  intro h' mem
  rcases mem_or_eq_of_mem_set mem with old | rfl
  · exact all h' old
  · exact new

theorem Safe.step (safe : Safe p) {e : Event} (guarded : endsInOrder p e = true)
    (step : p.step e = some p') : Safe p' := by
  cases e with
  | cancel =>
    cases step
    exact safe.ends true safe.joined
  | accept =>
    obtain ⟨serving, moved⟩ := ite_none_right_eq_some.mp step
    cases moved
    refine ⟨safe.panicked, safe.joined, safe.waited, safe.launched, fun late => ?_,
      fun closed => ?_⟩
    · rw [show p.phase = .serving from serving] at late
      cases late
    · cases serving.symm.trans closed
  | handlerSends =>
    obtain ⟨h, found, moved⟩ := bind_eq_some_iff.mp step
    have mem := mem_of_getElem? found
    cases todo : h.todo with
    | nil =>
      rw [todo] at moved
      cases moved
    | cons a =>
      rw [todo] at moved
      cases moved
      refine safe.sent a _ (fun closed => ?_) fun late => ?_
      · rw [safe.silent closed h mem] at todo
        cases todo
      have none := (safe.quiet late).handlers h mem
      rw [todo, mem_cons, not_or] at none
      exact ⟨fun same => none.1 same.symm, forall_mem_set (safe.quiet late).handlers none.2⟩
  | handlerQuits =>
    obtain ⟨h, -, moved⟩ := map_eq_some_iff.mp step
    cases moved
    refine ⟨safe.panicked, safe.joined, safe.waited, safe.launched, fun late => ?_,
      fun closed => ?_⟩
    · exact ⟨(safe.quiet late).ended, (safe.quiet late).queue,
        forall_mem_set (safe.quiet late).handlers (by simp)⟩
    · exact forall_mem_set (safe.silent closed) rfl
  | tickerSends =>
    obtain ⟨alive, moved⟩ := ite_none_right_eq_some.mp step
    cases moved
    exact safe.goroutine _ fun joined =>
      Bool.false_ne_true ((safe.joined joined).1.symm.trans alive)
  | tickerEnds =>
    obtain ⟨-, moved⟩ := ite_none_right_eq_some.mp step
    cases moved
    exact safe.ends p.cancelled fun joined => ⟨rfl, (safe.joined joined).2⟩
  | listenerSends stage state =>
    obtain ⟨alive, moved⟩ := ite_none_right_eq_some.mp step
    cases moved
    exact safe.goroutine _ fun joined =>
      Bool.false_ne_true ((safe.joined joined).2.symm.trans alive)
  | listenerEnds =>
    cases step
    exact safe.ends p.cancelled fun joined => ⟨(safe.joined joined).1, rfl⟩
  | main => exact safe.advanced guarded step
  | run => exact safe.ran step
  | opReturns =>
    obtain ⟨system, moved, same⟩ := map_eq_some_iff.mp step
    cases same
    obtain ⟨op, found, moved⟩ := bind_eq_some_iff.mp moved
    obtain ⟨running, -⟩ := ite_none_right_eq_some.mp moved
    exact safe.operated found (by rw [running]; decide)
  | opSubmits i =>
    rw [Process.step] at step
    have alive : ∀ {system}, p.system.step (.opSubmits i) = some system →
        ∃ op, p.system.ops[i]? = some op ∧ op.phase = .failed := by
      intro system moved
      obtain ⟨op, found, moved⟩ := bind_eq_some_iff.mp moved
      exact ⟨op, found, (ite_none_right_eq_some.mp moved).1⟩
    split_ifs at step with closed
    · obtain ⟨system, moved, -⟩ := map_eq_some_iff.mp step
      obtain ⟨op, found, failed⟩ := alive moved
      have ended := no_op_of_ended (safe.quiet (by rw [closed]; rfl)).ended found
      rw [failed] at ended
      cases ended
    obtain ⟨system, moved, same⟩ := map_eq_some_iff.mp step
    cases same
    obtain ⟨op, found, failed⟩ := alive moved
    exact safe.operated found (by rw [failed]; decide)
  | tick =>
    obtain ⟨system, moved, same⟩ := map_eq_some_iff.mp step
    cases same
    obtain ⟨-, moved⟩ := ite_none_right_eq_some.mp moved
    cases moved
    exact safe.moved (fun _ => rfl) fun late => (safe.quiet late).queue

end

/-- **A shutdown in order is safe.** In every run in which no pass is on the channel or to be
requested by a handler when `WaitForOps` returns, and no handler has anything to send when the
channel is closed, nothing is sent on the closed channel, and nothing is launched once `WaitForOps`
has returned. -/
theorem shutdown_safe (c : Controller) (clock : Time) (p : Process)
    (reachable : ((process c clock).restrict fun p e => endsInOrder p e = true).Reachable p) :
    p.panicked = false ∧ ∀ n ∈ p.waited, p.system.ops.length = n := by
  have safe : Safe p := by
    refine reachable.induct ?_ fun p e p' _ step safe => ?_
    · rintro _ rfl
      exact ⟨rfl, nofun, fun _ => rfl, nofun, nofun, nofun⟩
    · obtain ⟨guarded, step⟩ := Machine.restrict_step.mp step
      exact safe.step guarded step
  refine ⟨safe.panicked, fun n mem => ?_⟩
  rw [← safe.launched n mem, length_map]

/-! ## Runs -/

/-- `Run` takes an action, with readings of the first time. -/
def takeAction : Event := .run ["s"] ⟨fun _ => 1, fun _ => 1⟩

/-- From the signal to the return of `WaitForOps`. -/
def untilWaited : List Event :=
  [.cancel, .main false, .main false, .tickerEnds, .listenerEnds, .main false, .main false]

def subscriber : Listener := ⟨1, 0⟩

/-- A subscriber that leaves before the signal, and a shutdown with nothing left. -/
theorem orderly_shutdown_safe :
    ∃ p, ((process oneStage 1).restrict fun p e => endsInOrder p e = true).Reachable p ∧
      p.phase = .closed ∧ p.panicked = false ∧ p.waited = some 0 ∧ p.system.ops.length = 0 := by
  have run : ∃ p, ((process oneStage 1).restrict fun p e => endsInOrder p e = true).exec
      ⟨⟨oneStage, [], [], 1⟩, .serving, [], true, true, false, none, false⟩
      ([.accept (.subscribe subscriber), .handlerSends 0, takeAction, .handlerSends 0,
        takeAction] ++
        untilWaited ++ [.main false, takeAction, .main false]) = some p ∧
      p.phase = .closed ∧ p.waited = some 0 := ⟨_, rfl, rfl, rfl⟩
  obtain ⟨p, run, closed, waited⟩ := run
  have reachable : ((process oneStage 1).restrict fun p e => endsInOrder p e = true).Reachable p :=
    ⟨_, rfl, _, run⟩
  obtain ⟨panicked, launched⟩ := shutdown_safe oneStage 1 p reachable
  exact ⟨p, reachable, closed, panicked, waited, launched 0 waited⟩

/-- A subscriber that is there when the channel is closed sends the removal of its listener on it.
And a pass that the ticker has requested before the signal launches an operation behind
`WaitForOps`. -/
theorem shutdown_unsafe :
    (∃ p, (process oneStage 1).Reachable p ∧ p.panicked = true) ∧
    ∃ p, (process oneStage 1).Reachable p ∧ p.waited = some 0 ∧ p.system.ops.length = 1 := by
  have subscribed : ∃ p, (process oneStage 1).exec
      ⟨⟨oneStage, [], [], 1⟩, .serving, [], true, true, false, none, false⟩
      ([.accept (.subscribe subscriber), .handlerSends 0, takeAction] ++ untilWaited ++
        [.main false, takeAction, .main false, .handlerSends 0]) = some p ∧ p.panicked = true :=
    ⟨_, rfl, rfl⟩
  have requested : ∃ p, (process oneStage 1).exec
      ⟨⟨oneStage, [], [], 1⟩, .serving, [], true, true, false, none, false⟩
      (.tickerSends :: untilWaited ++ [takeAction]) = some p ∧ p.waited = some 0 ∧
      p.system.ops.length = 1 := ⟨_, rfl, rfl, rfl⟩
  obtain ⟨p, run, panicked⟩ := subscribed
  obtain ⟨q, run', launched⟩ := requested
  exact ⟨⟨p, ⟨_, rfl, _, run⟩, panicked⟩, q, ⟨_, rfl, _, run'⟩, launched⟩

end Strimserver.Oracle
