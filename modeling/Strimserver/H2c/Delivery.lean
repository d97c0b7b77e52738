import Strimserver.H2c.Windows

/-!
# The delivery of messages

A subscription hands the messages of its stream to the consumer, which asks for them
with `h2c_stream_next`. `delivering` records for each slot the data that the stream in
it has received and the messages that the consumer has got, from `h2c_stream_open` to
`h2c_stream_close`.

What the consumer has got and what is in the queue are the messages of the data, in
every run in which no queue is thrown away: a stream that is finished is not reset with
messages in its queue, and its slot is not given to a new request before the consumer
has closed it.
-/

namespace Strimserver.H2c

open Hpack Library Function List

/-! ## The record of a slot -/

/-- What has happened to the stream in a slot. -/
structure Log where
  /-- The data that was received, without padding. -/
  data : Octets
  /-- The messages that `h2c_stream_next` has returned. -/
  delivered : List Octets
  /-- The stream is opened, and the consumer has not closed it. -/
  held : Bool

/-- The length that the five octets in front of a message tell: it is not compressed and
not too long. -/
def grpcLength : Octets → Option ℕ
  | [compressed, w, x, y, z] =>
    let length := readBe32 w x y z
    if compressed ≠ 0 ∨ maxMsg < length then none else some length
  | _ => none

/-- The messages that were received completely. -/
def Log.messages (log : Log) : List Octets := Prefixed.messages 5 grpcLength log.data

def Log.empty : Log := ⟨[], [], false⟩

variable {s : Stream}

namespace Client

/-- The data that a frame brings for a subscription that goes on, if the frame is
accepted. -/
def received (c : Conn) (f : Frame) : Option (Slot × Octets) :=
  if f.type = .data ∧ (c.processOneFrame f).2 = true then
    match c.streamFind f.sid with
    | none => none
    | some i =>
      if (c.streams i).state = .done ∨ (c.streams i).type = .unary then none
      else (Conn.unpad f.flags f.payload).map fun octets => (i, octets)
  else none

/-- The slot that a request gets, if it gets one. -/
def allocated (old : Client) (type : StreamType) (new : Client) : Option Slot :=
  if new.conn.nextSid = old.conn.nextSid then none else (old.conn.streamAlloc type).map Prod.fst

/-- The records, when a slot is given to a new request. A handle that the consumer has
stays what it is. -/
def logStart (g : Slot → Log) (old : Client) (type : StreamType) (new : Client) : Slot → Log :=
  match allocated old type new with
  | none => g
  | some i => if (g i).held then g else Function.update g i ⟨[], [], decide (type = .subscribe)⟩

/-- What a step adds to the records. -/
def log (g : Slot → Log) (old : Client) (label : Label) (new : Client) : Slot → Log :=
  match label with
  | .frame f =>
    match received old.conn f with
    | none => g
    | some (i, octets) => Function.update g i { g i with data := (g i).data ++ octets }
  | .unary _ _ _ => logStart g old .unary new
  | .streamOpen _ _ => logStart g old .subscribe new
  | .streamClose i => Function.update g i .empty
  | .check | .expire =>
    match old.call with
    | .next i =>
      match new.returned with
      | .message m :: _ => Function.update g i { g i with delivered := (g i).delivered ++ [m] }
      | _ => g
    | .sending i _ _ _ | .unary i | .opening i =>
      -- A request that has failed leaves no handle.
      if (new.conn.streams i).inUse then g else Function.update g i .empty
    | _ => g
  | _ => g

/-- A code with which the consumer gives up: all but a message and the end of its
time. -/
def final : Outcome → Bool
  | .message _ => false
  | .error .timeout => false
  | _ => true

/-- `h2c_stream_next` returns a final code. -/
def Ends (old : Client) (label : Label) (new : Client) (i : Slot) : Prop :=
  (label = .streamNext i ∨ old.call = .next i) ∧
    ∃ outcome, new.returned = outcome :: old.returned ∧ final outcome = true

end Client

/-- The clients, with the records of their slots. -/
def delivering : Machine (Machine.Recorded Client (Slot → Log)) Client.Label :=
  clients.recording (fun _ => .empty) Client.log

/-! ## Conditions on a step -/

/-- Messages of a subscription are accepted and fit in its queue, and a stream that is
finished is not reset before its queue is empty. -/
def Conn.delivers (c : Conn) (f : Frame) : Bool :=
  match f.type with
  | .data =>
    (c.streamFind f.sid).all fun i =>
      decide ((c.streams i).state = .done) || decide ((c.streams i).type = .unary) ||
        (Conn.unpad f.flags f.payload).all fun octets =>
          (c.streams i).takes ((c.streams i).part ++ octets)
  | .rstStream =>
    (c.streamFind f.sid).all fun i =>
      decide ((c.streams i).state ≠ .done) || (c.streams i).queue.isEmpty
  | _ => true

/-- A request does not get a slot that the consumer still has. -/
def Client.unheld (g : Slot → Log) (c : Client) (type : StreamType) : Bool :=
  (c.conn.streamAlloc type).all fun found => !(g found.1).held

def Client.delivers (r : Machine.Recorded Client (Slot → Log)) : Client.Label → Bool
  | .frame f => r.state.conn.delivers f
  | .unary _ _ _ => r.state.unheld r.record .unary
  | .streamOpen _ _ => r.state.unheld r.record .subscribe
  | _ => true

/-! ## Frames -/

/-- The records are right: what the consumer has got and what is in the queue are the
messages that were received, and the slot has what is behind them. -/
structure Delivered (v : View) (g : Slot → Log) : Prop where
  queue : ∀ i, (g i).delivered ++ (v.streams i).queue = (g i).messages
  at' : ∀ i, (v.streams i).inUse = true → (v.streams i).type = .subscribe →
    (v.streams i).state ≠ .done →
      (v.streams i).At (Prefixed.remainder 5 grpcLength (g i).data)

variable {g : Slot → Log} {i : Slot}

/-- A new value for a slot, and a new record. -/
theorem Delivered.move {v v' : View} (right : Delivered v g) (log : Log)
    (streams : v'.streams = (v.set i s).streams) (queue : log.delivered ++ s.queue = log.messages)
    (at' : s.inUse = true → s.type = .subscribe → s.state ≠ .done →
      s.At (Prefixed.remainder 5 grpcLength log.data)) :
    Delivered v' (Function.update g i log) := by
  refine ⟨fun j => ?_, fun j => ?_⟩ <;> rw [streams] <;> by_cases same : j = i
  · subst same
    rw [View.set_streams, update_self]
    exact queue
  · rw [View.set_streams_of_ne v same, update_of_ne same]
    exact right.queue j
  · subst same
    rw [View.set_streams, update_self]
    exact at'
  · rw [View.set_streams_of_ne v same, update_of_ne same]
    exact right.at' j

/-- A new value for a slot with the same queue and record. -/
theorem Delivered.keep {v v' : View} (right : Delivered v g)
    (streams : v'.streams = (v.set i s).streams) (queue : s.queue = (v.streams i).queue)
    (at' : s.inUse = true → s.type = .subscribe → s.state ≠ .done →
      s.At (Prefixed.remainder 5 grpcLength (g i).data)) :
    Delivered v' g := by
  have moved := right.move (g i) streams (by rw [queue]; exact right.queue i) at'
  rwa [update_eq_self] at moved

/-- The record of a slot that is not in use can be forgotten. -/
theorem Delivered.forget {v : View} (right : Delivered v g) (sound : v.Sound)
    (idle : (v.streams i).inUse = false) : Delivered v (Function.update g i .empty) := by
  have same : v.streams = (v.set i (v.streams i)).streams := (update_eq_self ..).symm
  refine right.move .empty same ?_ fun inUse => absurd (inUse.symm.trans idle) Bool.noConfusion
  rw [(sound.slots i).idle idle]
  rfl

namespace Conn

/-- The data of a call is not queued. -/
theorem fed_queue_of_unary {c : Conn} {rest : Octets} (at' : (c.streams i).At rest)
    (type : (c.streams i).type = .unary) (going : (c.streams i).state ≠ .done) (n : ℕ)
    (octets : Octets) : ((c.fed i n octets).streams i).queue = (c.streams i).queue := by
  have debited : (c.debit i n).streams i =
    { c.streams i with recvWindow := (c.streams i).recvWindow - n } := set_streams ..
  let P : Conn → Octets → Octets → Prop := fun d rest' _ =>
    (d.streams i).At rest' ∧ (d.streams i).state ≠ .done ∧ (d.streams i).type = .unary ∧
      (d.streams i).queue = (c.streams i).queue
  have start : P (c.debit i n) rest octets := by
    show ((c.debit i n).streams i).At rest ∧ _
    rw [debited]
    exact ⟨at'.congr rfl, going, type, rfl⟩
  refine streamFeedData_rule (Q := fun d => (d.streams i).queue = (c.streams i).queue)
    (fun holds => ⟨holds.1, holds.2.1⟩) ?_ ?_ (fun holds => holds.2.2.2) start (Nat.le_refl _)
  · rintro d rest' b left s' code ⟨-, -, -, queue⟩ quit _
    rw [set_streams, quit.queue]
    exact queue
  rintro d rest' b left d' rest'' ⟨-, going, unary, queue⟩ round
  cases round with
  | more at' =>
    show ((d.set i _).streams i).At _ ∧ _
    rw [set_streams]
    exact ⟨at', going, unary, queue⟩
  | queued front type => exact absurd (unary.symm.trans type) nofun
  | answered front type first flag header =>
    show ((Conn.set _ i _).streams i).At _ ∧ _
    rw [set_streams]
    exact ⟨.header flag header (by decide), going, unary, queue⟩

/-- The data of a subscription, as the record has it. -/
theorem data_delivered {c c' : Conn} {f : Frame} {octets : Octets} (sound : c.view.Sound)
    (right : Delivered c.view g) (type : f.type = .data) (found : c.streamFind f.sid = some i)
    (going : (c.streams i).state ≠ .done) (unpadded : unpad f.flags f.payload = some octets)
    (conn : c' = (c.fed i f.payload.length octets).endCheck i f.flags)
    (delivers : c.delivers f = true) (accepted : (c.processOneFrame f).2 = true) :
    Delivered c'.view (match Client.received c f with
        | none => g
        | some (i, octets) => Function.update g i { g i with data := (g i).data ++ octets }) := by
  have inUse := (streamFind_spec found).1
  have length := length_unpad_le unpadded
  obtain ⟨rest, at'⟩ := (sound.slots i).of_received.at' inUse going
  have ends := data_books sound at' inUse going length f.flags
  rw [← conn] at ends
  have kept : c'.view.streams = (c.view.set i (c'.streams i).received).streams := ends.view_streams
  have received : Client.received c f =
      if (c.streams i).type = .unary then none else some (i, octets) := by
    unfold Client.received
    rw [if_pos ⟨type, accepted⟩, found, unpadded]
    simp [going]
  have same : (c'.streams i).queue = ((c.fed i f.payload.length octets).streams i).queue := by
    rw [conn, endCheck]
    split
    · rw [streamAbort_eq, set_streams]
    · rfl
  rw [received]
  by_cases unary : (c.streams i).type = .unary
  · have queue := fed_queue_of_unary at' unary going f.payload.length octets
    rw [if_pos unary]
    exact right.keep kept (same.trans queue) fun _ subscribe =>
      absurd (ends.type.symm.trans subscribe) (by rw [unary]; exact nofun)
  have subscribe : (c.streams i).type = .subscribe := by
    cases kind : (c.streams i).type with
    | unary => exact absurd kind unary
    | subscribe => rfl
  have whole : (c.streams i).takes ((c.streams i).part ++ octets) = true := by
    unfold Conn.delivers at delivers
    rw [type, found, unpadded] at delivers
    simpa [going, unary] using delivers
  have accepts : (c.streams i).accepts = grpcLength := by
    funext header
    unfold Stream.accepts grpcLength
    rw [subscribe]
    split <;> simp
  -- The slot has what is behind the messages that were received so far.
  have fed :=
    data_fed sound (Stream.at_received.mp (right.at' i inUse subscribe going)) inUse going
    length whole
  have cut : Prefixed.messages 5 grpcLength ((g i).data ++ octets) = _ ∧
      Prefixed.remainder 5 grpcLength ((g i).data ++ octets) = _ :=
    Prefixed.messages_append (by decide) (g i).data octets
  have queue : ((c.fed i f.payload.length octets).streams i).queue = (c.streams i).queue ++
      Prefixed.messages 5 grpcLength (Prefixed.remainder 5 grpcLength (g i).data ++ octets) := by
    rw [fed.queue, Stream.toQueue_of_subscribe subscribe, accepts]
  rw [if_neg unary]
  refine right.move _ kept ?_ fun _ _ still => ?_
  · have before : (g i).delivered ++ (c.streams i).queue =
      Prefixed.messages 5 grpcLength (g i).data := right.queue i
    show (g i).delivered ++ (c'.streams i).queue =
      Prefixed.messages 5 grpcLength ((g i).data ++ octets)
    rw [same, queue, ← append_assoc, before, cut.1]
  have more : c' = c.fed i f.payload.length octets := by
    rw [conn] at still ⊢
    unfold endCheck at still ⊢
    split_ifs at still with fine
    · rw [streamAbort_eq, set_streams] at still
      exact absurd rfl still
    · exact if_neg fine
  have at' := fed.books.at'
  rw [accepts, ← cut.2, ← more] at at'
  exact Stream.at_received.mpr at'

theorem completeAllStreams_delivered {c : Conn} (right : Delivered c.view g) (status : ℕ) :
    Delivered (c.completeAllStreams status).view g := by
  refine ⟨fun i => ?_, fun i => ?_⟩
  · have same : (completeStream status (c.streams i)).queue = (c.streams i).queue := by
      unfold completeStream
      split <;> rfl
    exact (congrArg ((g i).delivered ++ ·) same).trans (right.queue i)
  have slot : (c.completeAllStreams status).view.streams i =
    (completeStream status (c.streams i)).received := rfl
  rw [slot]
  unfold completeStream
  split
  · exact right.at' i
  · exact fun _ _ going => absurd rfl going

theorem failed_delivered {c c' : Conn} (right : Delivered c.view g)
    (view : c'.view = c.view ∨ c'.view = (c.completeAllStreams statusUnavailable).view) :
    Delivered c'.view g := by
  rcases view with same | completed
  · exact same ▸ right
  · exact completed ▸ completeAllStreams_delivered right _

/-- **A frame keeps the records right.** -/
theorem FrameMove.delivered {c c' : Conn} {f : Frame} (move : c.FrameMove f c')
    (sound : c.view.Sound) (right : Delivered c.view g) (delivers : c.delivers f = true)
    (accepted : (c.processOneFrame f).2 = true) :
    Delivered c'.view (match Client.received c f with
        | none => g
        | some (i, octets) => Function.update g i { g i with data := (g i).data ++ octets }) := by
  have none (other : f.type ≠ .data) : Client.received c f = none := by
    exact if_neg fun data => other data.1
  have rst (type : f.type = .rstStream) : f.type ≠ .data := by
    rw [type]
    exact nofun
  cases move with
  | still other quiet lost view =>
    rw [none other, view]
    exact right
  | drained i type found done error conn =>
    have nothing : Client.received c f = .none := by
      unfold Client.received
      rw [found]
      simp [done]
    rw [nothing, conn]
    exact right
  | data i octets type found going window window' unpadded conn =>
    exact data_delivered sound right type found going unpadded conn delivers accepted
  | ignored i fields header done error view =>
    rw [none header.ne_data, view]
    exact right
  | concluded i fields h status header clean scanned conclusion view =>
    rw [none header.ne_data, view, view_set]
    exact right.keep rfl rfl fun _ _ going => absurd rfl going
  | responded i fields h header sent scanned conclusion view =>
    rw [none header.ne_data, view, view_set]
    refine right.keep rfl rfl fun inUse subscribe _ => ?_
    refine (right.at' i inUse subscribe ?_).congr rfl
    show (c.streams i).state ≠ .done
    rw [sent]
    exact nofun
  | cancelled i type found going view =>
    rw [none (rst type), view, view_set]
    exact right.keep rfl rfl fun _ _ going => absurd rfl going
  | destroyed i type found done conn =>
    have empty : (c.streams i).queue = [] := by
      unfold Conn.delivers at delivers
      rw [type, found] at delivers
      simpa [done] using delivers
    rw [none (rst type), conn, Client.streamDestroy_view]
    exact right.keep rfl empty.symm nofun
  | goaway type dead view =>
    rw [none (by rw [type]; exact nofun), view]
    exact completeAllStreams_delivered right _

end Conn

/-! ## Steps -/

namespace Client

variable {old new : Client} {label : Label} {g : Slot → Log} {i : Slot}

/-- What `h2c_stream_next` does at its loop: it returns a message, or a code with nothing
in the queue. -/
theorem next_step (call : old.call = .next i) (label' : label = .check ∨ label = .expire)
    (step : old.step label = some new) :
    (∃ m rest, (old.conn.streams i).queue = m :: rest ∧ new = takeMessage old i m rest) ∨
      ((old.conn.streams i).queue = [] ∧ new.conn = old.conn ∧
        ∃ outcome, new.returned = outcome :: old.returned ∧ ∀ m, outcome ≠ .message m) := by
  cases stepped step with
  | refused _ connecting | cancelled connecting | resumed connecting =>
    cases connecting.symm.trans call
  | returned _ empty other => exact .inr ⟨empty i call, rfl, _, rfl, other⟩
  | gaveUp frees loop => rcases loop with rfl | rfl <;> simp [Client.frees, call] at frees
  | took next queue =>
    cases call.symm.trans next
    exact .inl ⟨_, _, queue, rfl⟩
  | _ => rcases label' with absurd | absurd <;> cases absurd

variable {type : StreamType} {resp : Option ℕ}

theorem log_start (starts : Starts label type resp) :
    log g old label new = logStart g old type new := by
  cases label with
  | unary | streamOpen =>
    obtain ⟨rfl, -⟩ := starts
    rfl
  | _ => exact starts.elim

theorem start_delivered (starts : Starts label type resp) (move : Move old label new)
    (right : Delivered old.conn.view g) (free : old.unheld g type = true) :
    Delivered new.conn.view (log g old label new) := by
  rw [log_start starts]
  have none (sid : new.conn.nextSid = old.conn.nextSid) : logStart g old type new = g := by
    unfold logStart allocated
    rw [if_pos sid]
  -- The slot is not the consumer's, so its record starts anew.
  have some {type' : StreamType} {resp' : Option ℕ} {i : Slot} {c : Conn}
      (starts' : Starts label type' resp') (alloc : old.conn.streamAlloc type' = some (i, c))
      (sid : new.conn.nextSid = (old.conn.nextSid + 2) % 2 ^ 32) :
      logStart g old type new = Function.update g i ⟨[], [], decide (type = .subscribe)⟩ := by
    obtain rfl : type = type' := by
      cases label with
      | unary | streamOpen => exact starts.1.trans starts'.1.symm
      | _ => exact starts.elim
    have other : new.conn.nextSid ≠ old.conn.nextSid := by omega
    have unheld : (g i).held = false := by
      unfold Client.unheld at free
      rw [alloc] at free
      simpa using free
    unfold logStart allocated
    rw [if_neg other, alloc, Option.map_some]
    dsimp only
    rw [unheld, if_neg Bool.false_ne_true]
  cases move with
  | still quiet view =>
    rw [none (congrArg View.nextSid view), view]
    exact right
  | frame | took | closed => exact starts.elim
  | failed dead view =>
    rw [none (view.elim (congrArg View.nextSid) (congrArg View.nextSid))]
    exact Conn.failed_delivered right view
  | freed frees =>
    cases label with
    | unary | streamOpen => cases frees
    | _ => exact starts.elim
  | started starts' alloc view =>
    rw [some starts' alloc (congrArg View.nextSid view), view]
    exact right.move _ rfl rfl fun _ _ _ => .header rfl rfl (Nat.le_of_ble_eq_true rfl)
  | unsent starts' alloc idle empty id view =>
    rw [some starts' alloc (congrArg View.nextSid view), view]
    refine right.move _ rfl ?_ fun inUse => absurd (inUse.symm.trans idle) Bool.noConfusion
    rw [empty]
    rfl

/-- The slot of a call that is at its loop. -/
def busy : Call → Option Slot
  | .sending i _ _ _ => some i
  | .unary i => some i
  | .opening i => some i
  | _ => none

section

variable (call : busy old.call = some i) (label' : label = .check ∨ label = .expire)

include call label'

theorem log_busy : log g old label new =
      if (new.conn.streams i).inUse then g else Function.update g i .empty := by
  rcases label' with rfl | rfl <;> unfold log busy at * <;> dsimp only <;> split at call <;>
    cases call <;> simp only [*]

theorem frees_busy {j : Slot} (frees : old.frees label = some j) : j = i := by
  rcases label' with rfl | rfl <;> unfold Client.frees busy at * <;> dsimp only at frees <;>
    split at call <;> cases call <;> simp_all

theorem busy_delivered (move : Move old label new) (sound : new.conn.view.Sound)
    (right : Delivered old.conn.view g) : Delivered new.conn.view (log g old label new) := by
  rw [log_busy call label']
  have keeps (right : Delivered new.conn.view g) : Delivered new.conn.view
      (if (new.conn.streams i).inUse then g else Function.update g i .empty) := by
    split_ifs with idle
    · exact right
    · exact right.forget sound (Bool.eq_false_iff.mpr idle)
  cases move with
  | still quiet view => exact keeps (view ▸ right)
  | frame | closed => exact absurd label' (by simp)
  | failed dead view => exact keeps (Conn.failed_delivered right view)
  | @freed _ _ j s frees idle empty id view =>
    obtain rfl := frees_busy call label' frees
    have slot := congrArg Stream.inUse (Conn.received_of_view view j)
    rw [View.set_streams, idle] at slot
    rw [if_neg (by rw [show (new.conn.streams j).inUse = false from slot]; decide), view]
    refine right.move .empty rfl ?_ fun inUse => absurd (inUse.symm.trans idle) Bool.noConfusion
    rw [empty]
    rfl
  | started starts | unsent starts => rcases label' with rfl | rfl <;> exact starts.elim
  | took next =>
    rw [next] at call
    cases call

end

/-- The loop of a call goes on, or its time is over. -/
theorem loop_delivered (step : old.step label = some new)
    (label' : label = .check ∨ label = .expire) (sound : old.conn.view.Sound)
    (opened : new.call ≠ .closed) (right : Delivered old.conn.view g) :
    Delivered new.conn.view (log g old label new) := by
  have move := step_move step
  have sound' := (move.sound sound).resolve_left opened
  have other (same : log g old label new = g) (keeps : old.frees label = none)
      (waits : ∀ i, old.call ≠ .next i) : Delivered new.conn.view (log g old label new) := by
    rw [same]
    cases move with
    | still quiet view => exact view ▸ right
    | frame | closed => exact absurd label' (by simp)
    | failed dead view => exact Conn.failed_delivered right view
    | freed frees => exact absurd (keeps.symm.trans frees) nofun
    | started starts | unsent starts => rcases label' with rfl | rfl <;> exact starts.elim
    | took next => exact absurd next (waits _)
  cases call : old.call with
  | connecting | idle | closed =>
    have quiet : log g old label new = g ∧ old.frees label = none ∧ ∀ i, old.call ≠ .next i := by
      rcases label' with rfl | rfl <;> unfold log frees <;> dsimp only <;> rw [call] <;>
        exact ⟨rfl, rfl, fun i => nofun⟩
    exact other quiet.1 quiet.2.1 quiet.2.2
  | next i =>
    have same : log g old label new = match new.returned with
        | .message m :: _ => Function.update g i { g i with delivered := (g i).delivered ++ [m] }
        | _ => g := by
      rcases label' with rfl | rfl <;> unfold log <;> dsimp only <;> rw [call]
    rw [same]
    rcases next_step call label' step with ⟨m, rest, queue, rfl⟩
      | ⟨-, conn, outcome, returned, other⟩
    · obtain ⟨credit, view, -⟩ := takeMessage_view sound queue
      have inUse := Stream.inUse_of_queue (sound.slots i).of_received queue
      rw [view]
      refine right.move _ rfl ?_ fun _ subscribe going => ?_
      · have before : (g i).delivered ++ (old.conn.streams i).queue = (g i).messages :=
          right.queue i
        rw [queue] at before
        show ((g i).delivered ++ [m]) ++ rest = (g i).messages
        rw [← before, append_assoc]
        rfl
      · exact (right.at' i inUse subscribe going).congr rfl
    rw [returned, conn]
    split
    · rename_i m _ eq
      exact absurd (head_eq_of_cons_eq eq) (other m)
    · exact right
  | sending | unary | opening => exact busy_delivered (by rw [call]; rfl) label' move sound' right

/-- **A step keeps the records right.** -/
theorem step_delivered (step : old.step label = some new) (sound : old.conn.view.Sound)
    (opened : new.call ≠ .closed) (right : Delivered old.conn.view g)
    (delivers : delivers ⟨old, g⟩ label = true) :
    Delivered new.conn.view (log g old label new) := by
  have move := step_move step
  cases stepped step with
  | unary path req cap =>
    have starts : Starts (.unary path req cap) .unary cap := ⟨rfl, rfl⟩
    exact start_delivered starts move right delivers
  | streamOpen path req =>
    have starts : Starts (.streamOpen path req) .subscribe none := ⟨rfl, rfl⟩
    exact start_delivered starts move right delivers
  | streamNext | missed | socket => exact right
  | streamClose i =>
    cases inUse : (old.conn.streams i).inUse with
    | true =>
      rw [streamClose_view inUse]
      exact right.move .empty rfl rfl nofun
    | false =>
      rw [streamClose_of_idle inUse]
      exact right.forget sound inUse
  | close => exact absurd rfl opened
  | frame f =>
    show Delivered _ (match received old.conn f with
      | none => g
      | some (i, octets) => Function.update g i { g i with data := (g i).data ++ octets })
    unfold pollFrame
    split
    · rename_i c processed
      exact (Conn.processOneFrame_move processed).delivered sound right delivers (by rw [processed])
    rename_i c failed
    have nothing : received old.conn f = none := by
      unfold received
      rw [failed]
      exact if_neg fun accepted => Bool.noConfusion accepted.2
    have view := Conn.processOneFrame_failed_view failed
    rw [nothing]
    exact Conn.failed_delivered (view ▸ right) (connFail_view c .proto)
  | readError => exact Conn.failed_delivered right (connFail_view old.conn .io)
  | refused loop | returned loop | gaveUp _ loop =>
    exact loop_delivered step loop sound opened right
  | cancelled => exact loop_delivered step (.inr rfl) sound opened right
  | resumed | took => exact loop_delivered step (.inl rfl) sound opened right

/-- A code that ends the consumer's calls comes with an empty queue. -/
theorem queue_of_ends (ends : Ends old label new i) (step : old.step label = some new)
    (sound : old.conn.view.Sound) : (old.conn.streams i).queue = [] := by
  obtain ⟨next, outcome, returned, last⟩ := ends
  have returns (same : new.returned = old.returned) : (old.conn.streams i).queue = [] :=
    absurd (returned.symm.trans same) (cons_ne_self _ _)
  rcases next with rfl | call
  · cases stepped step with
    | streamNext => exact returns rfl
    | missed _ _ unused => exact (sound.slots i).idle unused
    | refused loop | returned loop | gaveUp _ loop =>
      rcases loop with absurd | absurd <;> cases absurd
  have loop (label' : label = .check ∨ label = .expire) : (old.conn.streams i).queue = [] := by
    rcases next_step call label' step with ⟨m, rest, -, rfl⟩ | ⟨empty, -⟩
    · rw [← head_eq_of_cons_eq returned] at last
      cases last
    · exact empty
  cases stepped step with
  | frame =>
    refine returns ?_
    unfold pollFrame
    split <;> rfl
  | readError | socket => exact returns rfl
  | refused label' | returned label' | gaveUp _ label' => exact loop label'
  | cancelled => exact loop (.inr rfl)
  | resumed | took => exact loop (.inl rfl)
  | unary _ _ _ idle | streamOpen _ _ idle | streamNext _ idle | missed _ idle
  | streamClose _ idle | close idle => cases idle.symm.trans call

end Client

/-! ## Runs -/

/-- **Delivery is lossless, in order and exactly once.** In every run in which no queue is thrown
away, the messages that `h2c_stream_next` has returned and those in the queue are those that were
received completely. When it returns a final code the queue is empty. -/
theorem stream_delivery_lossless {r : Machine.Recorded Client (Slot → Log)}
    (reachable : (delivering.restrict fun r label => Client.delivers r label = true).Reachable r)
    (opened : r.state.call ≠ .closed) (i : Slot) :
    (r.record i).delivered ++ (r.state.conn.streams i).queue = (r.record i).messages ∧
      ∀ label r', delivering.step r label = some r' → r.state.Ends label r'.state i →
        (r.state.conn.streams i).queue = [] ∧ (r.record i).delivered = (r.record i).messages := by
  have sound := (Client.sound_of_reachable reachable.of_restrict.of_recording).resolve_left opened
  have right : Delivered r.state.conn.view r.record := by
    refine reachable.recording_induct (P := fun c g => c.call ≠ .closed → Delivered c.conn.view g)
      ?_ ?_ opened
    · rintro _ ⟨ns, rfl⟩ _
      exact ⟨fun i => rfl, fun i => nofun⟩
    intro old g label new before met step holds opened'
    have opened : old.call ≠ .closed := fun closed => opened' (Client.call_of_closed step closed)
    have sound := (Client.sound_of_reachable before).resolve_left opened
    exact Client.step_delivered step sound opened' (holds opened) met
  refine ⟨right.queue i, fun label r' step ends => ?_⟩
  obtain ⟨step, -⟩ := Machine.recording_step.mp step
  have empty := Client.queue_of_ends ends step sound
  have all := right.queue i
  rw [show (r.state.conn.view.streams i).queue = [] from empty, append_nil] at all
  exact ⟨empty, all⟩

/-- A subscription that gets a message and its trailers. -/
def deliveredMessage : List Client.Label :=
  [.frame ⟨.settings, 0, 0, []⟩, .check, .streamOpen (ascii "/v/A") [], .frame responseHeaders,
    .check, .streamNext 0, .frame ⟨.data, flagPadded, 1, [1, 0, 0, 0, 0, 1, 7, 0]⟩,
    .frame responseTrailers]

theorem stream_delivery_lossless_deliveredMessage :
    ∃ r r', (delivering.restrict fun r label => Client.delivers r label = true).Reachable r ∧
      r.state.call = .next 0 ∧ delivering.step r .check = some r' ∧ r.state.Ends .check r'.state 0 ∧
      (r.record 0).messages = [[7]] ∧ (r.record 0).delivered = [[7]] ∧
      (r.state.conn.streams 0).queue = [] := by
  have run : (((delivering.restrict fun r label => Client.delivers r label = true).exec
      ⟨.connecting (ascii "k8s"), fun _ => .empty⟩
      (deliveredMessage ++ [.check, .streamNext 0])).any fun r =>
        (delivering.step r .check).any fun r' =>
          decide (r.state.call = .next 0 ∧
            r'.state.returned = .error .streamEnd :: r.state.returned ∧
            (r.record 0).messages = [[7]])) = true := by decide +kernel
  obtain ⟨r, reachable, facts⟩ := Machine.Reachable.of_any run ⟨⟨_, rfl⟩, rfl⟩
  obtain ⟨r', step, facts⟩ := (Option.any_eq_true _ _).mp facts
  obtain ⟨call, returned, messages⟩ := of_decide_eq_true facts
  have ends : r.state.Ends .check r'.state 0 := ⟨.inr call, _, returned, rfl⟩
  obtain ⟨empty, all⟩ := (stream_delivery_lossless reachable (by rw [call]; exact nofun) 0).2 _ _
    step ends
  exact ⟨r, r', reachable, call, step, ends, messages, all.trans messages, empty⟩

/-- **A message can be lost.** A subscription gets a message and its trailers, and the server resets
the stream behind them. The consumer has got nothing and is told that the stream has ended. -/
theorem stream_delivery_lost :
    ∃ r r', delivering.Reachable r ∧ r.state.call = .next 0 ∧
      delivering.step r .check = some r' ∧ r.state.Ends .check r'.state 0 ∧
      (r.record 0).messages = [[7]] ∧ (r.record 0).delivered = [] := by
  have run : ((delivering.exec ⟨.connecting (ascii "k8s"), fun _ => .empty⟩
      (deliveredMessage ++ [.frame ⟨.rstStream, 0, 1, [0, 0, 0, 0]⟩])).any fun r =>
        (delivering.step r .check).any fun r' =>
          decide (r.state.call = .next 0 ∧
            r'.state.returned = .error .streamEnd :: r.state.returned ∧
            (r.record 0).messages = [[7]] ∧ (r.record 0).delivered = [])) = true := by
    decide +kernel
  obtain ⟨r, reachable, facts⟩ := Machine.Reachable.of_any run ⟨⟨_, rfl⟩, rfl⟩
  obtain ⟨r', step, facts⟩ := (Option.any_eq_true _ _).mp facts
  obtain ⟨call, returned, messages, delivered⟩ := of_decide_eq_true facts
  exact ⟨r, r', reachable, call, step, ⟨.inr call, _, returned, rfl⟩, messages, delivered⟩

end Strimserver.H2c
