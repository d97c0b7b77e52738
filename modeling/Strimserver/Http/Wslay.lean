import Mathlib.Data.List.Basic
import Mathlib.Data.Option.Basic

/-!
# The event context of wslay

The part of `wslay_event.c` that the WebSocket clients of the HTTP server rest on: what may be
queued, how frames of the peer end the connection, and in which order queued messages are written.
Messages are not fragmented here, so a message that has been popped from its queue is written to its
end before the next one.

An allocation of the context fails where the environment says so. How far the socket takes the
octets that are offered is given by the number of messages that it takes completely: what it takes
of the next one is not told apart, because nothing depends on it.

A close frame is queued for two reasons. The peer has sent one, and then `close_status` says so. Or
a frame of the peer breaks the protocol, and then it does not. -/

namespace Strimserver.Http

universe u

/-- The control messages that the context sends. -/
inductive Ctrl where
  | pong
  | close
  deriving DecidableEq

/-- A message that is being written. -/
inductive Omsg (α : Type u) where
  | text (payload : α)
  | ctrl (c : Ctrl)

/-- `struct wslay_event_context`. -/
structure Context (α : Type u) where
  readEnabled : Bool
  writeEnabled : Bool
  /-- The bits of `close_status`. -/
  (closeQueued closeReceived closeSent : Bool)
  sendQueue : List α
  sendCtrlQueue : List Ctrl
  omsg : Option (Omsg α)

/-- What `wslay_event_recv` meets next. -/
inductive Inbound where
  | ping
  /-- A text, a binary or a pong message. -/
  | message
  | close
  /-- A frame that breaks the protocol, or is too long, or is not UTF-8. -/
  | violation
  /-- The end of the stream or an error of the socket. -/
  | broken
  /-- An allocation fails. -/
  | noMemory
  deriving DecidableEq

/-- What the socket does in one `wslay_event_send`: the messages that it takes completely, and
whether it fails then or would block. -/
structure Writes where
  messages : ℕ
  failed : Bool

namespace Context

variable {α : Type u}

/-- `wslay_event_context_server_init`. -/
def init : Context α := ⟨true, true, false, false, false, [], [], none⟩

/-- `wslay_event_is_msg_queueable`. -/
def isMsgQueueable (ctx : Context α) : Bool := ctx.writeEnabled && !ctx.closeQueued

/-- `wslay_event_queue_msg` with a text. -/
def queueMsg (memory : Bool) (payload : α) (ctx : Context α) : Option (Context α) :=
  if ctx.isMsgQueueable && memory then some { ctx with sendQueue := ctx.sendQueue ++ [payload] }
    else none

/-- `wslay_event_queue_close`. -/
def queueClose (memory : Bool) (ctx : Context α) : Option (Context α) :=
  if ctx.isMsgQueueable && memory then
    some { ctx with sendCtrlQueue := ctx.sendCtrlQueue ++ [.close], closeQueued := true }
  else none

/-- `wslay_event_queue_close_wrapper`, which takes a refusal for a success. -/
def queueCloseWrapper (ctx : Context α) : Context α :=
  let ctx := { ctx with readEnabled := false }
  (ctx.queueClose true).getD ctx

def queuePong (ctx : Context α) : Context α :=
  if ctx.isMsgQueueable then { ctx with sendCtrlQueue := ctx.sendCtrlQueue ++ [.pong] } else ctx

/-- `wslay_event_recv` and whether it returns 0. -/
def recv : List Inbound → Context α → Context α × Bool
  | [], ctx => (ctx, true)
  | frame :: rest, ctx =>
    if ctx.readEnabled then
      match frame with
      | .ping => recv rest ctx.queuePong
      | .message => recv rest ctx
      | .close => recv rest { ctx with closeReceived := true }.queueCloseWrapper
      | .violation => (ctx.queueCloseWrapper, true)
      | .broken => (ctx.queueCloseWrapper, false)
      | .noMemory => ({ ctx with readEnabled := false }, false)
    else (ctx, true)

/-- `wslay_event_want_write`. -/
def wantWrite (ctx : Context α) : Bool :=
  ctx.writeEnabled && (!ctx.sendQueue.isEmpty || !ctx.sendCtrlQueue.isEmpty || ctx.omsg.isSome)

/-- The message to write next. Control messages come first, and once a close frame is queued the
other ones are thrown away, as in `wslay_event_send_ctrl_queue_pop`. -/
def pop (ctx : Context α) : Context α :=
  match ctx.omsg with
  | some _ => ctx
  | none =>
    match ctx.sendCtrlQueue with
    | [] =>
      match ctx.sendQueue with
      | [] => ctx
      | payload :: rest => { ctx with omsg := some (.text payload), sendQueue := rest }
    | c :: rest =>
      if ctx.closeQueued then
        match (c :: rest).dropWhile (· != .close) with
        | [] => { ctx with sendCtrlQueue := [] }
        | found :: rest => { ctx with omsg := some (.ctrl found), sendCtrlQueue := rest }
      else { ctx with omsg := some (.ctrl c), sendCtrlQueue := rest }

/-- A message has been written to its end. -/
def finish (m : Omsg α) (ctx : Context α) : Context α :=
  match m with
  | .ctrl .close => { ctx with omsg := none, writeEnabled := false, closeSent := true }
  | _ => { ctx with omsg := none }

/-- The loop of `wslay_event_send` over a socket that takes so many messages. -/
def write : ℕ → Context α → Context α
  | 0, ctx => if ctx.wantWrite then ctx.pop else ctx
  | room + 1, ctx =>
    if ctx.wantWrite then
      match ctx.pop.omsg with
      | none => ctx.pop
      | some m => write room (ctx.pop.finish m)
    else ctx

/-- `wslay_event_send` and whether it returns 0. -/
def send (w : Writes) (ctx : Context α) : Context α × Bool :=
  let ctx := ctx.write w.messages
  if w.failed && ctx.wantWrite then ({ ctx with writeEnabled := false }, false) else (ctx, true)

/-! ## A context without a close frame -/

/-- No close frame is queued or under way. -/
structure Quiet (ctx : Context α) : Prop where
  writeEnabled : ctx.writeEnabled = true
  closeQueued : ctx.closeQueued = false
  sendCtrlQueue : Ctrl.close ∉ ctx.sendCtrlQueue
  omsg : ctx.omsg ≠ some (.ctrl .close)

section

variable {ctx : Context α}

theorem Quiet.init : Quiet (Context.init : Context α) := ⟨rfl, rfl, List.not_mem_nil, nofun⟩

section

variable (quiet : ctx.Quiet)

include quiet

theorem Quiet.queueable : ctx.isMsgQueueable = true := by
  rw [isMsgQueueable, quiet.writeEnabled, quiet.closeQueued]
  rfl

theorem Quiet.queuePong : ctx.queuePong.Quiet := by
  rw [Context.queuePong, if_pos quiet.queueable]
  refine ⟨quiet.writeEnabled, quiet.closeQueued, fun mem => ?_, quiet.omsg⟩
  rcases List.mem_append.mp mem with before | new
  · exact quiet.sendCtrlQueue before
  · cases List.mem_singleton.mp new

theorem Quiet.pop : ctx.pop.Quiet := by
  obtain ⟨reading, writing, queued, received, sent, texts, ctrls, busy⟩ := ctx
  cases show queued = false from quiet.closeQueued
  cases busy with
  | some => exact quiet
  | none =>
    cases ctrls with
    | nil =>
      cases texts with
      | nil => exact quiet
      | cons => exact ⟨quiet.writeEnabled, rfl, quiet.sendCtrlQueue, nofun⟩
    | cons =>
      obtain ⟨other, others⟩ := not_or.mp (mt List.mem_cons.mpr quiet.sendCtrlQueue)
      refine ⟨quiet.writeEnabled, rfl, others, fun same => other ?_⟩
      cases same
      rfl

theorem Quiet.finish {m : Omsg α} (other : m ≠ .ctrl .close) : (ctx.finish m).Quiet := by
  match m with
  | .text _ | .ctrl .pong =>
    exact ⟨quiet.writeEnabled, quiet.closeQueued, quiet.sendCtrlQueue, nofun⟩
  | .ctrl .close => exact (other rfl).elim

theorem Quiet.write (room : ℕ) : (ctx.write room).Quiet := by
  induction room generalizing ctx with
  | zero =>
    rw [Context.write]
    split_ifs
    · exact quiet.pop
    · exact quiet
  | succ room ih =>
    rw [Context.write]
    split_ifs
    · cases next : ctx.pop.omsg with
      | none => exact quiet.pop
      | some => exact ih (quiet.pop.finish fun same => quiet.pop.omsg (same ▸ next))
    · exact quiet

/-- What is written when the socket does not fail. -/
theorem Quiet.send {w : Writes} (sent : (ctx.send w).2 = true) : (ctx.send w).1.Quiet := by
  rw [Context.send] at sent ⊢
  split_ifs at sent ⊢
  exact quiet.write w.messages

end

/-- The frames of the peer keep to the protocol, up to the one that ends the reading. -/
def obeyed : List Inbound → Bool
  | [] => true
  | .ping :: rest | .message :: rest => obeyed rest
  | .violation :: _ => false
  | .close :: _ | .broken :: _ | .noMemory :: _ => true

theorem recv_of_disabled (stopped : ctx.readEnabled = false) (frames : List Inbound) :
    ctx.recv frames = (ctx, true) := by
  cases frames with
  | nil => rfl
  | cons =>
    unfold recv
    rw [stopped]
    rfl

/-- Where the peer keeps to the protocol and has not closed, nothing is closed. -/
theorem Quiet.recv (quiet : ctx.Quiet) {frames : List Inbound} (obeys : obeyed frames = true)
    (received : (ctx.recv frames).2 = true) (going : (ctx.recv frames).1.closeReceived = false) :
    (ctx.recv frames).1.Quiet := by
  induction frames generalizing ctx with
  | nil => exact quiet
  | cons frame rest ih =>
    cases reading : ctx.readEnabled with
    | false =>
      rw [recv_of_disabled reading]
      exact quiet
    | true =>
      unfold Context.recv at received going ⊢
      rw [if_pos reading] at received going ⊢
      cases frame with
      | ping => exact ih quiet.queuePong obeys received going
      | message => exact ih quiet obeys received going
      | close =>
        -- the close of the peer stays on record
        have queueable : ({ ctx with closeReceived := true, readEnabled := false } :
            Context α).isMsgQueueable = true := quiet.queueable
        dsimp only at going
        rw [queueCloseWrapper, queueClose, if_pos (by simpa using queueable),
          recv_of_disabled rfl] at going
        cases going
      | violation => cases obeys
      | broken | noMemory => cases received

end

end Context

end Strimserver.Http
