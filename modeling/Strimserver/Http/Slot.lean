import Strimserver.Http.Wslay
import Strimserver.Library.Machine
import Strimserver.Library.Mailbox

/-!
# The slot of a WebSocket client

A client has a slot with place for one status. The controller thread puts a status into it with
`strim_http_ws_send`, and the service thread moves it on to wslay with `ws_drain_slot`, from the
passes of `ws_pump_client` and of `ws_shutdown_all`. The steps of the machine are the stretches of
the service thread between which a send can come: the slot is locked while it is written and while
it is emptied, and between the emptying and the hand-over to wslay a new status can come in.

`ws_drain_slot` drops the status when wslay refuses it, which the source takes for a sign of
closing. wslay refuses too when it has closed the connection by itself, because a frame of the
client broke the protocol, and when an allocation fails. The flags of the slot do not change then,
and sends are accepted and dropped from there on. `slot_hands_over_newest` says that these are the
only ways to lose the newest status.

What is still written to a socket that is being closed is left out, as are the 256 rounds after
which `ws_shutdown_all` stops waiting. A round is a step of its own here. -/

namespace Strimserver.Http

open Library Option

/-- `STRIM_HTTP_STATUS_MAX`. -/
def statusMax : ℕ := 4096

/-- A status that fits into the slot. -/
structure Frame where
  bytes : List UInt8
  nonempty : bytes.length ≠ 0
  fits : bytes.length ≤ statusMax

/-- The check of the length in `strim_http_ws_send`. -/
def Frame.ofBytes (bytes : List UInt8) : Option Frame :=
  if h : bytes.length ≠ 0 ∧ bytes.length ≤ statusMax then some ⟨bytes, h.1, h.2⟩ else none

/-- Where the service thread is. The flags tell the passes of `ws_shutdown_all` from those of
`ws_pump_client`. -/
inductive Pc where
  | idle
  /-- In `ws_upgrade_handler`, with the slot published. -/
  | upgrading
  /-- Behind `wslay_event_recv`. -/
  | received
  /-- In `ws_drain_slot`, with the lock released. -/
  | taken (shutdown : Bool)
  /-- Behind `ws_drain_slot`. -/
  | drained (shutdown : Bool)
  /-- Behind the check of the write timeout. -/
  | checked
  deriving DecidableEq

/-- `struct ws_client`, with the flag of the server and the statuses of the current client. -/
structure Slot where
  (inUse closed closing frameInflight shutdownRequested : Bool)
  wctx : Context Frame
  box : Mailbox Frame
  pc : Pc

/-- The steps of the server on a slot. -/
inductive Label where
  | upgrade
  /-- The rest of `ws_upgrade_handler`, which may fail. -/
  | handOff (ok : Bool)
  | send (bytes : List UInt8)
  | receive (frames : List Inbound)
  | take
  | queue (memory : Bool)
  | check (late memory : Bool)
  | transmit (w : Writes) (late : Bool)
  | requestShutdown
  | shutdownTake
  | shutdownFlush (flush close : Writes) (memory : Bool)
  /-- The last loop of `ws_shutdown_all`. -/
  | hardClose
  /-- `ws_cleanup_slot`. -/
  | cleanup

namespace Slot

/-- The slot is published and not on its way to be closed: `strim_http_ws_send` accepts. -/
def isOpen (s : Slot) : Bool := s.inUse && !s.closed && !s.closing

/-- `strim_http_ws_send` and whether it returns 0. -/
def wsSend (s : Slot) (bytes : List UInt8) : Slot × Bool :=
  match Frame.ofBytes bytes with
  | none => (s, false)
  | some frame => if s.isOpen then ({ s with box := s.box.put frame }, true) else (s, false)

/-- `ws_begin_close`. -/
def beginClose (memory : Bool) (s : Slot) : Slot :=
  if s.closing then s
  else
    match s.wctx.queueClose memory with
    | none => { s with closed := true }
    | some wctx => { s with wctx, closing := true }

/-- The locked part of `ws_drain_slot`, where a pass reaches it. -/
def drain (shutdown : Bool) (s : Slot) : Slot :=
  if !s.closing && !s.frameInflight then { s with box := s.box.take, pc := .taken shutdown }
  else { s with pc := .drained shutdown }

/-- The rest of `ws_drain_slot`. -/
def enqueue (memory : Bool) (s : Slot) : Slot :=
  match s.box.held with
  | none => if s.shutdownRequested then s.beginClose memory else s
  | some frame =>
    match s.wctx.queueMsg memory frame with
    | none => { s with box := s.box.drop }
    | some wctx => { s with wctx, box := s.box.deliver, frameInflight := true }

/-- `ws_pump_client` up to the drain. -/
def receive (frames : List Inbound) (s : Slot) : Slot :=
  let (wctx, ok) := s.wctx.recv frames
  if ok then { s with wctx, closing := s.closing || wctx.closeReceived, pc := .received }
  else { s with wctx, closed := true, pc := .idle }

/-- The end of `ws_pump_client`. -/
def transmit (w : Writes) (late : Bool) (s : Slot) : Slot :=
  let (wctx, ok) := s.wctx.send w
  if ok then
    { s with wctx, frameInflight := s.frameInflight && wctx.wantWrite,
             closed := s.closed || (s.closing && (wctx.closeSent || late)), pc := .idle }
  else { s with wctx, closed := true, pc := .idle }

/-- A round of `ws_shutdown_all` behind the drain. -/
def shutdownFlush (flush close : Writes) (memory : Bool) (s : Slot) : Slot :=
  let flushing := s.frameInflight && !s.closing
  let wctx := if flushing then (s.wctx.send flush).1 else s.wctx
  if flushing && wctx.wantWrite then { s with wctx, pc := .idle }
  else
    let s := beginClose memory { s with wctx, frameInflight := s.frameInflight && s.closing }
    let wctx := (s.wctx.send close).1
    { s with wctx, closed := s.closed || wctx.closeSent, pc := .idle }

/-- A step of the server. -/
def step (s : Slot) : Label → Option Slot
  | .upgrade =>
    if s.pc = .idle ∧ s.inUse = false then
      some { s with inUse := true, closed := false, closing := false, frameInflight := false,
                    wctx := .init, box := .empty, pc := .upgrading }
    else none
  | .handOff ok =>
    if s.pc = .upgrading then some { s with closed := s.closed || !ok, pc := .idle } else none
  | .send bytes => some (s.wsSend bytes).1
  | .receive frames =>
    if s.pc = .idle ∧ s.inUse = true ∧ s.closed = false then some (s.receive frames) else none
  | .take => if s.pc = .received then some (s.drain false) else none
  | .queue memory =>
    match s.pc with
    | .taken shutdown => some { s.enqueue memory with pc := .drained shutdown }
    | _ => none
  | .check late memory =>
    if s.pc = .drained false then
      some { (if s.frameInflight && !s.closing && late then s.beginClose memory else s) with
        pc := .checked }
    else none
  | .transmit w late => if s.pc = .checked then some (s.transmit w late) else none
  | .requestShutdown => some { s with shutdownRequested := true }
  | .shutdownTake =>
    if s.pc = .idle ∧ s.inUse = true ∧ s.closed = false then some (s.drain true) else none
  | .shutdownFlush flush close memory =>
    if s.pc = .drained true then some (s.shutdownFlush flush close memory) else none
  | .hardClose =>
    if s.pc = .idle ∧ s.inUse = true ∧ s.closed = false then some { s with closed := true }
      else none
  | .cleanup =>
    if s.pc = .idle ∧ s.inUse = true then
      some { s with inUse := false, closed := true, frameInflight := false, box := s.box.discard }
    else none

end Slot

/-- A slot before its first client. -/
def freshSlot : Slot := ⟨false, false, false, false, false, .init, .empty, .idle⟩

/-- The slot over the life of the server. -/
def slot : Machine Slot Label where
  initial s := s = freshSlot
  step := Slot.step

/-- The client keeps to the protocol until it is being closed, and wslay has memory for a status. -/
def keepsToProtocol (s : Slot) : Label → Bool
  | .receive frames => s.closing || Context.obeyed frames
  | .queue memory => memory || s.box.held.isNone
  | _ => true

section

variable {s s' : Slot} {l : Label}

/-! ## What the steps leave alone -/

variable (memory : Bool)

theorem Slot.beginClose_box : (s.beginClose memory).box = s.box := by
  unfold Slot.beginClose
  split_ifs
  · rfl
  · cases s.wctx.queueClose memory <;> rfl

theorem Slot.beginClose_isOpen : (s.beginClose memory).isOpen = false := by
  unfold Slot.beginClose
  split_ifs with closing
  · simp [Slot.isOpen, closing]
  · cases s.wctx.queueClose memory <;> simp [Slot.isOpen]

theorem Slot.isOpen_iff : s.isOpen = true ↔
    s.inUse = true ∧ s.closed = false ∧ s.closing = false := by
  simp [Slot.isOpen, and_assoc]

/-- A slot that is open was open before a step that may close it. -/
theorem Slot.isOpen_of_or {wctx : Context Frame} {frameInflight closed : Bool} {pc : Pc}
    (opened : Slot.isOpen { s with wctx, frameInflight, closed := s.closed || closed, pc } = true) :
    s.isOpen = true := by
  obtain ⟨used, closed, closing⟩ := Slot.isOpen_iff.mp opened
  exact Slot.isOpen_iff.mpr ⟨used, (Bool.or_eq_false_iff.mp closed).1, closing⟩

/-- A send changes the box alone, and only to put a status in. -/
theorem Slot.wsSend_cases (s : Slot) (bytes : List UInt8) :
    (s.wsSend bytes).1 = s ∨
      ∃ frame, s.isOpen = true ∧ (s.wsSend bytes).1 = { s with box := s.box.put frame } := by
  unfold Slot.wsSend
  cases Frame.ofBytes bytes with
  | none => exact .inl rfl
  | some frame =>
    split_ifs with accepts
    · exact .inr ⟨frame, accepts, rfl⟩
    · exact .inl rfl

/-- What a step does, and where the service thread was. -/
inductive Stepped (s : Slot) : Label → Slot → Prop where
  | upgrade : Stepped s .upgrade { s with
      inUse := true, closed := false, closing := false, frameInflight := false, wctx := .init,
      box := .empty, pc := .upgrading }
  | handOff (ok : Bool) (pc : s.pc = .upgrading) :
      Stepped s (.handOff ok) { s with closed := s.closed || !ok, pc := .idle }
  | send (bytes : List UInt8) : Stepped s (.send bytes) (s.wsSend bytes).1
  | receive (frames : List Inbound) (pc : s.pc = .idle) :
      Stepped s (.receive frames) (s.receive frames)
  | take (pc : s.pc = .received) : Stepped s .take (s.drain false)
  | queue (memory shutdown : Bool) (pc : s.pc = .taken shutdown) :
      Stepped s (.queue memory) { s.enqueue memory with pc := .drained shutdown }
  | check (late memory : Bool) (pc : s.pc = .drained false) : Stepped s (.check late memory)
      { (if s.frameInflight && !s.closing && late then s.beginClose memory else s) with
        pc := .checked }
  | transmit (w : Writes) (late : Bool) (pc : s.pc = .checked) :
      Stepped s (.transmit w late) (s.transmit w late)
  | requestShutdown : Stepped s .requestShutdown { s with shutdownRequested := true }
  | shutdownTake (pc : s.pc = .idle) : Stepped s .shutdownTake (s.drain true)
  | shutdownFlush (flush close : Writes) (memory : Bool) (pc : s.pc = .drained true) :
      Stepped s (.shutdownFlush flush close memory) (s.shutdownFlush flush close memory)
  | hardClose (pc : s.pc = .idle) : Stepped s .hardClose { s with closed := true }
  | cleanup (pc : s.pc = .idle) : Stepped s .cleanup { s with
      inUse := false, closed := true, frameInflight := false, box := s.box.discard }

theorem stepped (step : s.step l = some s') : Stepped s l s' := by
  cases l with
  | upgrade =>
    obtain ⟨-, moved⟩ := ite_none_right_eq_some.mp step
    cases moved
    exact .upgrade
  | send | requestShutdown =>
    cases step
    constructor
  | handOff | take | check | transmit | shutdownFlush =>
    obtain ⟨pc, moved⟩ := ite_none_right_eq_some.mp step
    cases moved
    constructor
    exact pc
  | receive | shutdownTake | hardClose | cleanup =>
    obtain ⟨⟨pc, -⟩, moved⟩ := ite_none_right_eq_some.mp step
    cases moved
    constructor
    exact pc
  | queue memory =>
    rw [Slot.step] at step
    cases pc : s.pc with
    | taken =>
      rw [pc] at step
      cases step
      exact .queue memory _ pc
    | _ =>
      rw [pc] at step
      cases step

/-! ## The order of the statuses -/

/-- The statuses are kept in order, and none is held outside of `ws_drain_slot`. -/
structure Ordered (s : Slot) : Prop where
  kept : s.box.Kept
  held : (∀ shutdown, s.pc ≠ .taken shutdown) → s.box.held = none

theorem Ordered.of_box (ordered : Ordered s) (box : s'.box = s.box) (free : s.box.held = none) :
    Ordered s' :=
  ⟨box ▸ ordered.kept, fun _ => box ▸ free⟩

theorem Ordered.drain (ordered : Ordered s) (shutdown : Bool) (free : s.box.held = none) :
    Ordered (s.drain shutdown) := by
  unfold Slot.drain
  split_ifs
  · exact ⟨ordered.kept.take free, fun out => (out shutdown rfl).elim⟩
  · exact ordered.of_box rfl free

/-- `ws_drain_slot` behind the lock: nothing was pending, wslay refuses the status, or wslay takes
it. -/
theorem Slot.enqueue_cases (s : Slot) :
    s.box.held = none ∧ (s.enqueue memory = s ∨ s.enqueue memory = s.beginClose memory) ∨
      ∃ frame, s.box.held = some frame ∧
        (s.wctx.queueMsg memory frame = none ∧ s.enqueue memory = { s with box := s.box.drop } ∨
          ∃ wctx, s.wctx.queueMsg memory frame = some wctx ∧
            s.enqueue memory = { s with wctx, box := s.box.deliver, frameInflight := true }) := by
  unfold Slot.enqueue
  cases held : s.box.held with
  | none =>
    refine .inl ⟨rfl, ?_⟩
    split_ifs
    · exact .inr rfl
    · exact .inl rfl
  | some frame =>
    refine .inr ⟨frame, rfl, ?_⟩
    dsimp only
    cases queued : s.wctx.queueMsg memory frame with
    | none => exact .inl ⟨rfl, rfl⟩
    | some wctx => exact .inr ⟨wctx, rfl, rfl⟩

theorem Ordered.enqueue (ordered : Ordered s) (memory : Bool) (pc : Pc) :
    Ordered { s.enqueue memory with pc } := by
  rcases s.enqueue_cases memory with ⟨free, same | closes⟩
    | ⟨frame, -, ⟨-, dropped⟩ | ⟨wctx, -, queued⟩⟩
  · rw [same]
    exact ordered.of_box rfl free
  · rw [closes]
    exact ordered.of_box (Slot.beginClose_box memory) free
  · rw [dropped]
    exact ⟨ordered.kept.drop, fun _ => rfl⟩
  · rw [queued]
    exact ⟨ordered.kept.deliver, fun _ => rfl⟩

theorem Slot.shutdownFlush_box (flush close : Writes) (memory : Bool) :
    (s.shutdownFlush flush close memory).box = s.box := by
  unfold Slot.shutdownFlush
  dsimp only
  split_ifs
  · rfl
  · exact Slot.beginClose_box memory
  · rfl
  · exact Slot.beginClose_box memory

theorem Ordered.step (ordered : Ordered s) (step : s.step l = some s') : Ordered s' := by
  have free : ∀ {pc : Pc}, s.pc = pc → (∀ shutdown, pc ≠ .taken shutdown) → s.box.held = none :=
    fun at_pc out => ordered.held fun shutdown taken => out shutdown (at_pc ▸ taken)
  cases stepped step with
  | upgrade => exact ⟨.empty, fun _ => rfl⟩
  | handOff _ pc | hardClose pc => exact ordered.of_box rfl (free pc nofun)
  | send bytes =>
    rcases s.wsSend_cases bytes with same | ⟨frame, -, put⟩
    · exact same.symm ▸ ordered
    · exact put.symm ▸ ⟨ordered.kept.put frame, ordered.held⟩
  | receive frames pc =>
    refine ordered.of_box ?_ (free pc nofun)
    unfold Slot.receive
    dsimp only
    split_ifs <;> rfl
  | take pc | shutdownTake pc => exact ordered.drain _ (free pc nofun)
  | queue memory => exact ordered.enqueue memory _
  | check late memory pc =>
    refine ordered.of_box ?_ (free pc nofun)
    split_ifs
    · exact Slot.beginClose_box memory
    · rfl
  | transmit w late pc =>
    refine ordered.of_box ?_ (free pc nofun)
    unfold Slot.transmit
    dsimp only
    split_ifs <;> rfl
  | requestShutdown => exact ⟨ordered.kept, ordered.held⟩
  | shutdownFlush flush close memory pc =>
    exact ordered.of_box (Slot.shutdownFlush_box flush close memory) (free pc nofun)
  | cleanup pc => exact ⟨ordered.kept.discard, fun _ => free pc nofun⟩

theorem ordered_of_reachable (reachable : slot.Reachable s) : Ordered s :=
  reachable.induct (by rintro _ rfl; exact ⟨.empty, fun _ => rfl⟩)
    fun _ _ _ _ step ordered => ordered.step step

/-! ## The newest status -/

/-- In an open slot the newest status is on its way, and wslay takes messages. -/
def Current (s : Slot) : Prop := s.isOpen = true → s.box.Fresh ∧ s.wctx.Quiet

theorem Current.closed (closed : s.isOpen = false) : Current s := fun opened =>
  (Bool.false_ne_true (closed.symm.trans opened)).elim

section

variable (current : Current s)

include current

/-- A step that does not open the slot keeps what holds of it. -/
theorem Current.of_same (opened : s'.isOpen = true → s.isOpen = true) (box : s'.box = s.box)
    (wctx : s'.wctx = s.wctx) : Current s' := by
  intro still
  rw [box, wctx]
  exact current (opened still)

theorem Current.drain (shutdown : Bool) (free : s.box.held = none) :
    Current (s.drain shutdown) := by
  unfold Slot.drain
  split_ifs
  · intro opened
    obtain ⟨fresh, quiet⟩ := current opened
    exact ⟨fresh.take free, quiet⟩
  · exact current

theorem Current.enqueue {memory : Bool} (pc : Pc) (enough : (memory || s.box.held.isNone) = true) :
    Current { s.enqueue memory with pc } := by
  rcases s.enqueue_cases memory with
    ⟨-, same | closes⟩ | ⟨frame, held, ⟨refused, dropped⟩ | ⟨wctx, taken, queued⟩⟩
  · rw [same]
    exact current
  · rw [closes]
    exact .closed (Slot.beginClose_isOpen memory)
  · -- an open slot has a context that takes the status
    rw [held, isNone_some, Bool.or_false] at enough
    rw [dropped]
    intro opened
    have queueable := (current opened).2.queueable
    rw [Context.queueMsg, queueable, enough] at refused
    cases refused
  rw [queued]
  intro opened
  obtain ⟨fresh, quiet⟩ := current opened
  obtain ⟨-, moved⟩ := ite_none_right_eq_some.mp taken
  cases moved
  exact ⟨fresh.deliver, quiet.writeEnabled, quiet.closeQueued, quiet.sendCtrlQueue, quiet.omsg⟩

theorem Current.receive {frames : List Inbound}
    (obeys : (s.closing || Context.obeyed frames) = true) : Current (s.receive frames) := by
  unfold Slot.receive
  dsimp only
  split_ifs with received
  · intro opened
    obtain ⟨used, closed, going⟩ := Slot.isOpen_iff.mp opened
    obtain ⟨closing, going⟩ := Bool.or_eq_false_iff.mp going
    rw [closing, Bool.false_or] at obeys
    obtain ⟨fresh, quiet⟩ := current (Slot.isOpen_iff.mpr ⟨used, closed, closing⟩)
    exact ⟨fresh, quiet.recv obeys received going⟩
  · exact .closed (by simp [Slot.isOpen])

theorem Current.transmit (w : Writes) (late : Bool) : Current (s.transmit w late) := by
  unfold Slot.transmit
  dsimp only
  split_ifs with sent
  · intro opened
    obtain ⟨fresh, quiet⟩ := current (Slot.isOpen_of_or opened)
    exact ⟨fresh, quiet.send sent⟩
  · exact .closed (by simp [Slot.isOpen])

omit current in
theorem Slot.closing_isOpen {wctx : Context Frame} {closed memory : Bool} {pc : Pc} :
    Slot.isOpen { s.beginClose memory with
      wctx, closed := (s.beginClose memory).closed || closed, pc } = false :=
  Bool.eq_false_iff.mpr fun opened =>
    Bool.eq_false_iff.mp (Slot.beginClose_isOpen memory) (Slot.isOpen_of_or opened)

theorem Current.shutdownFlush (flush close : Writes) (memory : Bool) :
    Current (s.shutdownFlush flush close memory) := by
  unfold Slot.shutdownFlush
  dsimp only
  split_ifs with flushing wants
  · intro opened
    obtain ⟨fresh, quiet⟩ := current opened
    -- A context that still wants to write has not failed.
    refine ⟨fresh, quiet.send ?_⟩
    have wants := (Bool.and_eq_true_iff.mp wants).2
    rw [Context.send] at wants ⊢
    split_ifs at wants ⊢
    · cases wants
    · rfl
  · exact .closed Slot.closing_isOpen
  · exact current
  · exact .closed Slot.closing_isOpen

theorem Current.step (ordered : Ordered s) (guarded : keepsToProtocol s l = true)
    (step : s.step l = some s') : Current s' := by
  have free : ∀ {pc : Pc}, s.pc = pc → (∀ shutdown, pc ≠ .taken shutdown) → s.box.held = none :=
    fun at_pc out => ordered.held fun shutdown taken => out shutdown (at_pc ▸ taken)
  cases stepped step with
  | upgrade => exact fun _ => ⟨.empty, .init⟩
  | handOff => exact current.of_same (fun opened => Slot.isOpen_of_or opened) rfl rfl
  | send bytes =>
    rcases s.wsSend_cases bytes with same | ⟨frame, opened, put⟩
    · exact same.symm ▸ current
    · exact put.symm ▸ fun _ => ⟨.put s.box frame, (current opened).2⟩
  | receive => exact current.receive guarded
  | take pc | shutdownTake pc => exact current.drain _ (free pc nofun)
  | queue => exact current.enqueue _ guarded
  | check late memory =>
    split_ifs
    · exact .closed (Slot.beginClose_isOpen memory)
    · exact current
  | transmit w late => exact current.transmit w late
  | requestShutdown => exact current
  | shutdownFlush flush close memory => exact current.shutdownFlush flush close memory
  | hardClose | cleanup => exact .closed (by simp [Slot.isOpen])

end

theorem current_of_reachable
    (reachable : (slot.restrict fun s l => keepsToProtocol s l = true).Reachable s) : Current s :=
  reachable.induct (by rintro _ rfl; exact .closed rfl) fun _ _ _ before step current => by
    obtain ⟨guarded, step⟩ := Machine.restrict_step.mp step
    exact current.step (ordered_of_reachable before.of_restrict) guarded step

/-! ## Passes without a send -/

/-- `strim_http_ws_send` is called. -/
def Label.isSend : Label → Bool
  | .send _ => true
  | _ => false

/-- The end of a pass of `ws_pump_client`. -/
def Label.isTransmit : Label → Bool
  | .transmit _ _ => true
  | _ => false

/-- Nothing waits in the mailbox. -/
structure Clear (box : Mailbox Frame) : Prop where
  pending : box.pending = none
  held : box.held = none

/-- In an open slot the status that is on its way is the next to be taken, and once a pass is done
there is none. -/
def Draining (done : Bool) (s : Slot) : Prop :=
  s.isOpen = true →
    match s.pc with
    | .idle | .received => done = false ∧ s.frameInflight = false ∨ Clear s.box
    | .taken _ => s.box.pending = none ∧ (done = true → s.box.held = none)
    | _ => Clear s.box

variable {done : Bool}

theorem Draining.closed (closed : s.isOpen = false) : Draining done s := fun opened =>
  (Bool.false_ne_true (closed.symm.trans opened)).elim

theorem Draining.clear (draining : Draining true s) (opened : s.isOpen = true) : Clear s.box := by
  have now := draining opened
  revert now
  cases s.pc with
  | idle | received =>
    rintro (⟨absurd, -⟩ | clear)
    · cases absurd
    · exact clear
  | taken => exact fun ⟨pending, held⟩ => ⟨pending, held rfl⟩
  | _ => exact id

theorem Draining.drain (draining : Draining done s) (shutdown : Bool)
    (pc : s.pc = .idle ∨ s.pc = .received) : Draining done (s.drain shutdown) := by
  have before : s.isOpen = true → done = false ∧ s.frameInflight = false ∨ Clear s.box := by
    intro opened
    have now := draining opened
    rcases pc with pc | pc
    all_goals
      rw [pc] at now
      exact now
  unfold Slot.drain
  split_ifs with free
  · intro opened
    rcases before opened with ⟨early, -⟩ | clear
    · exact ⟨rfl, fun late => (Bool.false_ne_true (early.symm.trans late)).elim⟩
    · exact ⟨rfl, fun _ => clear.pending⟩
  intro opened
  rcases before opened with ⟨-, idle⟩ | clear
  · have going := (Slot.isOpen_iff.mp opened).2.2
    exact (free (by rw [going, idle]; rfl)).elim
  · exact clear

/-- A step without a send. The end of a pass leaves no status on its way. -/
theorem Draining.step (draining : Draining done s) (quiet : l.isSend = false)
    (step : s.step l = some s') : Draining (done || l.isTransmit) s' := by
  have same (other : l.isTransmit = false) (draining : Draining done s') :
      Draining (done || l.isTransmit) s' := by
    rwa [other, Bool.or_false]
  cases stepped step with
  | upgrade => exact fun _ => ⟨rfl, rfl⟩
  | handOff _ pc =>
    intro opened
    have now := draining (Slot.isOpen_of_or opened)
    rw [pc] at now
    exact .inr now
  | send => cases quiet
  | receive frames pc =>
    refine same rfl ?_
    unfold Slot.receive
    dsimp only
    split_ifs
    · intro opened
      obtain ⟨used, closed, closing⟩ := Slot.isOpen_iff.mp opened
      have now := draining (Slot.isOpen_iff.mpr ⟨used, closed, (Bool.or_eq_false_iff.mp closing).1⟩)
      rw [pc] at now
      exact now
    · exact .closed (by simp [Slot.isOpen])
  | take pc => exact same rfl (draining.drain false (.inr pc))
  | shutdownTake pc => exact same rfl (draining.drain true (.inl pc))
  | queue memory shutdown pc =>
    have pending (opened : s.isOpen = true) : s.box.pending = none := by
      have now := draining opened
      rw [pc] at now
      exact now.1
    rcases s.enqueue_cases memory with
      ⟨free, same | closes⟩ | ⟨frame, -, ⟨-, dropped⟩ | ⟨wctx, -, queued⟩⟩
    · rw [same]
      exact fun opened => ⟨pending opened, free⟩
    · rw [closes]
      exact .closed (Slot.beginClose_isOpen memory)
    · rw [dropped]
      exact fun opened => ⟨pending opened, rfl⟩
    · rw [queued]
      exact fun opened => ⟨pending opened, rfl⟩
  | check late memory pc =>
    split_ifs
    · exact .closed (Slot.beginClose_isOpen memory)
    intro opened
    have now := draining opened
    rw [pc] at now
    exact now
  | transmit w late pc =>
    unfold Slot.transmit
    dsimp only
    split_ifs
    · intro opened
      have now := draining (Slot.isOpen_of_or opened)
      rw [pc] at now
      exact .inr now
    · exact .closed (by simp [Slot.isOpen])
  | requestShutdown => exact same rfl draining
  | shutdownFlush flush close memory pc =>
    have clear (opened : s.isOpen = true) : Clear s.box := by
      have now := draining opened
      rwa [pc] at now
    unfold Slot.shutdownFlush
    dsimp only
    split_ifs
    · exact fun opened => .inr (clear opened)
    · exact .closed Slot.closing_isOpen
    · exact fun opened => .inr (clear opened)
    · exact .closed Slot.closing_isOpen
  | hardClose | cleanup => exact .closed (by simp [Slot.isOpen])

theorem Draining.exec {ls : List Label} (draining : Draining done s)
    (quiet : ∀ l ∈ ls, l.isSend = false) (run : slot.exec s ls = some s') :
    Draining (done || ls.any Label.isTransmit) s' := by
  induction ls generalizing s done with
  | nil =>
    cases run
    rw [List.any_nil, Bool.or_false]
    exact draining
  | cons l ls ih =>
    obtain ⟨mid, step, rest⟩ := Machine.exec_cons_cases run
    obtain ⟨first, others⟩ := List.forall_mem_cons.mp quiet
    rw [List.any_cons, ← Bool.or_assoc]
    exact ih (draining.step first step) others rest

end

/-- **The client ends with the newest status.** In every run, what wslay takes is a part of what was
accepted, in order, and at most one status is pending. If the client keeps to the protocol until it
is being closed, and wslay has memory for each status: when a pass leaves nothing to write, no send
follows, another pass ends and the client is still open, then the status that wslay took last is the
one accepted last. -/
theorem slot_hands_over_newest (s : Slot) (reachable : slot.Reachable s) :
    s.box.handed.Sublist s.box.accepted ∧ s.box.pending.toList.length ≤ 1 ∧
    ((slot.restrict fun s l => keepsToProtocol s l = true).Reachable s →
      ∀ (w : Writes) (late : Bool) (ls : List Label) (first last : Slot),
        s.step (.transmit w late) = some first → first.wctx.wantWrite = false →
        (slot.restrict fun s l => keepsToProtocol s l = true).exec first ls = some last →
        (∀ l ∈ ls, l.isSend = false) → ls.any Label.isTransmit = true → last.isOpen = true →
        last.box.handed.getLast? = last.box.accepted.getLast?) := by
  refine ⟨(ordered_of_reachable reachable).kept.handed, ?_, ?_⟩
  · cases s.box.pending <;> simp
  intro guarded w late ls first last flush flushed run quiet pass opened
  have flush' : (slot.restrict fun s l => keepsToProtocol s l = true).step s (.transmit w late) =
      some first := Machine.restrict_step.mpr ⟨rfl, flush⟩
  have reached := (guarded.step flush').leads ⟨ls, run⟩
  -- after a pass that leaves nothing to write, the slot is the next to be emptied
  have emptied : Draining false first := by
    obtain ⟨-, moved⟩ := ite_none_right_eq_some.mp flush
    cases moved
    revert flushed
    unfold Slot.transmit
    dsimp only
    split_ifs
    · intro flushed _
      refine .inl ⟨rfl, ?_⟩
      rw [flushed, Bool.and_false]
    · exact fun _ => .closed (by simp [Slot.isOpen])
  have draining := emptied.exec quiet (Machine.exec_of_restrict run)
  rw [pass, Bool.or_true] at draining
  have clear := draining.clear opened
  exact (current_of_reachable reached opened).1.handed clear.held clear.pending

/-! ## Runs -/

def octet (b : UInt8) : Frame := ⟨[b], by simp, by simp [statusMax]⟩

def connect : List Label := [.upgrade, .handOff true]

/-- The steps of a pass before its end. -/
def pump (frames : List Inbound) : List Label :=
  [.receive frames, .take, .queue true, .check false true]

/-- A status comes in while the one before it is being taken out. Both are handed over, in two
passes. -/
theorem client_gets_last_status :
    ∃ s first last, slot.Reachable s ∧ s.step (.transmit ⟨1, false⟩ false) = some first ∧
      (slot.restrict fun s l => keepsToProtocol s l = true).exec first
        (pump [.ping] ++ [.transmit ⟨0, false⟩ false]) = some last ∧
      last.box.accepted = [octet 1, octet 2] ∧ last.box.handed.getLast? = some (octet 2) := by
  have before : ∃ s, (slot.restrict fun s l => keepsToProtocol s l = true).exec freshSlot
      (connect ++ [.send [1], .receive [], .take, .send [2], .queue true, .check false true]) =
        some s ∧
      ∃ first, s.step (.transmit ⟨1, false⟩ false) = some first ∧ first.wctx.wantWrite = false ∧
        ∃ last, (slot.restrict fun s l => keepsToProtocol s l = true).exec first
          (pump [.ping] ++ [.transmit ⟨0, false⟩ false]) = some last ∧
          last.box.accepted = [octet 1, octet 2] ∧ last.isOpen = true :=
    ⟨_, rfl, _, rfl, rfl, _, rfl, rfl, rfl⟩
  obtain ⟨s, run, first, flush, flushed, last, rest, accepted, opened⟩ := before
  have guarded : (slot.restrict fun s l => keepsToProtocol s l = true).Reachable s :=
    ⟨_, rfl, _, run⟩
  have reachable : slot.Reachable s := guarded.of_restrict
  have newest :=
    (slot_hands_over_newest s reachable).2.2 guarded ⟨1, false⟩ false _ first last flush flushed
    rest (by decide) (by decide) opened
  refine ⟨s, first, last, reachable, flush, rest, accepted, ?_⟩
  rw [newest, accepted]
  rfl

/-- A frame of the client breaks the protocol, and wslay closes the connection by itself. The slot
stays open; the next status is accepted and never handed over. -/
theorem status_dropped_behind_violation :
    ∃ s first last, slot.Reachable s ∧ s.step (.transmit ⟨0, false⟩ false) = some first ∧
      first.wctx.wantWrite = false ∧
      slot.exec first (pump [] ++ [.transmit ⟨0, false⟩ false]) = some last ∧ last.isOpen = true ∧
      last.box.accepted = [octet 1] ∧ last.box.handed = [] := by
  have run : ∃ s, slot.exec freshSlot
      (connect ++ pump [.violation] ++ [.transmit ⟨1, false⟩ false, .send [1]] ++ pump []) =
        some s ∧
      ∃ first, s.step (.transmit ⟨0, false⟩ false) = some first ∧ first.wctx.wantWrite = false ∧
        ∃ last, slot.exec first (pump [] ++ [.transmit ⟨0, false⟩ false]) = some last ∧
          last.isOpen = true ∧ last.box.accepted = [octet 1] ∧ last.box.handed = [] :=
    ⟨_, rfl, _, rfl, rfl, _, rfl, rfl, rfl, rfl⟩
  obtain ⟨s, run, first, flush, flushed, last, rest⟩ := run
  exact ⟨s, first, last, ⟨_, rfl, _, run⟩, flush, flushed, rest⟩

end Strimserver.Http
