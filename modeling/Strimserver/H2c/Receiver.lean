import Mathlib.Algebra.BigOperators.Fin
import Mathlib.Algebra.Order.BigOperators.Group.Finset
import Strimserver.H2c.Moves

/-!
# The books of the receiving side

What a client has received and not yet given credit for is a message that it has in
part, or a message in a queue: `held` counts the octets. Whatever happens, a window
and what is held together are never more than the window at the start. So a window
does not grow beyond its start, and the guards against that in
`stream_credit_message` never refuse credit.

`View.Sound` has this with the facts about the slots that it rests on, and holds for
every client.
-/

namespace Strimserver.H2c

open Hpack Library

/-! ## What a slot holds -/

namespace Stream

/-- How much of a message a slot has that is not complete. -/
def pending (s : Stream) : ℕ := if s.rasmBody then 5 + s.rasmGot else s.rasmHdr.length

/-- The octets of the messages in the queue, with those in front of them. -/
def queued (s : Stream) : ℕ := (s.queue.map fun m => m.length + 5).sum

/-- What is held for a slot. A stream that is done has only its queue. -/
def held (s : Stream) : ℕ :=
  if s.inUse then (if s.state = .done then 0 else s.pending) + s.queued else 0

/-- What holds of every slot. -/
structure Sound (s : Stream) : Prop where
  id : s.inUse = true → s.id % 2 = 1
  idle : s.inUse = false → s.queue = []
  at' : s.inUse = true → s.state ≠ .done → ∃ rest, s.At rest
  short : ∀ m ∈ s.queue, m.length ≤ maxMsg
  window : s.inUse = true → s.recvWindow + s.held ≤ initWindow

variable {s : Stream}

theorem At.length_eq {rest : Octets} (at' : s.At rest) : rest.length = s.pending := by
  unfold pending
  cases at' with
  | header flag octets => rw [flag, if_neg Bool.false_ne_true, octets]
  | body inBody => rw [inBody.flag, if_pos rfl, inBody.got]

theorem at_received {rest : Octets} : s.received.At rest ↔ s.At rest :=
  ⟨fun at' => at'.congr rfl, fun at' => at'.congr rfl⟩

theorem Sound.received (sound : s.Sound) : s.received.Sound :=
  ⟨sound.id, sound.idle, fun inUse going => (sound.at' inUse going).imp fun _ => at_received.mpr,
    sound.short,
    sound.window⟩

theorem Sound.of_received (sound : s.received.Sound) : s.Sound :=
  ⟨sound.id, sound.idle, fun inUse going => (sound.at' inUse going).imp fun _ => at_received.mp,
    sound.short,
    sound.window⟩

theorem Sound.of_idle (idle : s.inUse = false) (empty : s.queue = []) : s.Sound := by
  have unused : ¬s.inUse = true := Bool.eq_false_iff.mp idle
  exact ⟨(absurd · unused), fun _ => empty, (absurd · unused), empty ▸ nofun, (absurd · unused)⟩

theorem held_of_idle (idle : s.inUse = false) : s.held = 0 := by
  unfold held
  rw [idle]
  rfl

theorem Sound.done {t : Stream} (sound : s.Sound) (id : t.id = s.id) (inUse : t.inUse = s.inUse)
    (queue : t.queue = s.queue) (window : t.recvWindow = s.recvWindow) (done : t.state = .done) :
    t.Sound ∧ t.held ≤ s.held := by
  have less : t.held ≤ s.held := by
    unfold held queued
    rw [inUse, queue, if_pos done]
    split
    · omega
    · omega
  refine ⟨⟨?_, ?_, fun _ going => absurd done going, ?_, ?_⟩, less⟩
  · rw [id, inUse]
    exact sound.id
  · rw [inUse, queue]
    exact sound.idle
  · rw [queue]
    exact sound.short
  rw [inUse, window]
  intro used
  have := sound.window used
  omega

/-- A message is taken from the queue, and credit is given for it. -/
def taken (s : Stream) (m : Octets) (rest : List Octets) : Stream :=
  { s with
    queue := rest
    qBytes := s.qBytes - m.length
    recvWindow := s.recvWindow + (m.length + 5 : ℕ) }

variable {m : Octets} {rest : List Octets}

theorem inUse_of_queue (sound : s.Sound) (queue : s.queue = m :: rest) : s.inUse = true := by
  by_contra idle
  have empty := sound.idle (Bool.eq_false_iff.mpr idle)
  rw [queue] at empty
  cases empty

theorem held_taken (queue : s.queue = m :: rest) (inUse : s.inUse = true) :
    (s.taken m rest).held + (m.length + 5) = s.held := by
  unfold held queued pending taken
  dsimp only
  rw [if_pos inUse, if_pos inUse, queue, List.map_cons, List.sum_cons]
  omega

theorem Sound.taken (sound : s.Sound) (queue : s.queue = m :: rest) : (s.taken m rest).Sound := by
  have inUse := inUse_of_queue sound queue
  have held := held_taken queue inUse
  refine ⟨sound.id, fun idle => ?_, fun inUse going => ?_, fun m' mem => ?_, fun _ => ?_⟩
  · exact absurd (inUse.symm.trans idle) Bool.noConfusion
  · exact (sound.at' inUse going).imp fun rest at' => at'.congr rfl
  · exact sound.short m' (by rw [queue]; exact List.mem_cons_of_mem m mem)
  have window := sound.window inUse
  have same : (s.taken m rest).recvWindow = s.recvWindow + (m.length + 5 : ℕ) := rfl
  omega

end Stream

/-! ## All slots -/

namespace View

def held (v : View) : ℕ := ∑ i, (v.streams i).held

/-- The receiving side in order. -/
structure Sound (v : View) : Prop where
  nextSid : v.nextSid % 2 = 1
  slots : ∀ i, (v.streams i).Sound
  window : v.window + v.held ≤ initWindow

/-- The sum of a number over all slots, with a new value for a slot. -/
theorem sum_set (v : View) (i : Slot) (s : Stream) (g : Stream → ℕ) :
    ∑ j, g ((v.set i s).streams j) + g (v.streams i) = ∑ j, g (v.streams j) + g s := by
  rw [← Finset.add_sum_erase _ _ (Finset.mem_univ i), set_streams,
    ← Finset.add_sum_erase (Finset.univ) (fun j => g (v.streams j)) (Finset.mem_univ i)]
  have others : ∑ j ∈ Finset.univ.erase i, g ((v.set i s).streams j) =
      ∑ j ∈ Finset.univ.erase i, g (v.streams j) :=
    Finset.sum_congr rfl fun j mem => by rw [set_streams_of_ne v (Finset.ne_of_mem_erase mem)]
  omega

theorem slot_held_le (v : View) (i : Slot) : (v.streams i).held ≤ v.held :=
  Finset.single_le_sum (f := fun j => (v.streams j).held) (fun _ _ => Nat.zero_le _)
    (Finset.mem_univ i)

variable {v v' : View}

/-- New values for all slots that are in order, and hold no more than before. -/
theorem Sound.all (sound : v.Sound)
    (slots : ∀ i, (v'.streams i).Sound ∧ (v'.streams i).held ≤ (v.streams i).held)
    (sid : v'.nextSid = v.nextSid) (window : v'.window = v.window) : v'.Sound := by
  refine ⟨sid ▸ sound.nextSid, fun i => (slots i).1, ?_⟩
  have less : v'.held ≤ v.held := Finset.sum_le_sum fun i _ => (slots i).2
  have before := sound.window
  omega

variable {i : Slot} {s : Stream}

/-- What holds of all slots, and what they hold, under a new value for one of them. -/
theorem slots_move {P : Stream → Prop} (slots : ∀ j, P (v.streams j)) (slot : P s)
    (streams : v'.streams = (v.set i s).streams) :
    (∀ j, P (v'.streams j)) ∧ v'.held + (v.streams i).held = v.held + s.held := by
  refine ⟨fun j => ?_, ?_⟩
  · rw [streams]
    by_cases same : j = i
    · subst same
      rw [set_streams]
      exact slot
    · rw [set_streams_of_ne v same]
      exact slots j
  · refine Eq.trans ?_ (v.sum_set i s Stream.held)
    rw [held, streams]

/-- A new value for a slot that is in order, and that does not hold more than before
beyond what was taken off the window. -/
theorem Sound.move (sound : v.Sound) (slot : s.Sound) (streams : v'.streams = (v.set i s).streams)
    (sid : v'.nextSid % 2 = 1) (window : v'.window + s.held ≤ v.window + (v.streams i).held) :
    v'.Sound := by
  obtain ⟨slots, total⟩ := slots_move sound.slots slot streams
  have before := sound.window
  exact ⟨sid, slots, by omega⟩

theorem Sound.empty (sound : v.Sound) (slot : s.Sound) (none : s.held = 0)
    (streams : v'.streams = (v.set i s).streams) (sid : v'.nextSid % 2 = 1)
    (window : v'.window = v.window) : v'.Sound := by
  refine sound.move slot streams sid ?_
  omega

end View

/-! ## Credit -/

theorem maxMsg_eq : maxMsg = 16777216 := rfl

variable {n : ℕ}

theorem int32_of_le (small : n ≤ maxMsg + 5) : int32 n = n := by
  rw [maxMsg_eq] at small
  unfold int32
  rw [Int.bmod_eq_of_le] <;> omega

namespace Conn

/-- Some more frames can be written. -/
def canWrite (c : Conn) (n : ℕ) : Bool := c.writable.all fun m => decide (n ≤ m)

variable {c : Conn} {i : Slot}

theorem frameWrite_of_canWrite {f : Frame} (able : c.canWrite (n + 1) = true)
    (short : f.payload.length ≤ 0xffffff) :
    (c.frameWrite f).2 = true ∧ (c.frameWrite f).1.canWrite n = true := by
  unfold frameWrite canWrite at *
  rw [if_neg (Nat.not_lt.mpr short)]
  rcases writable : c.writable with _ | _ | m
  · exact ⟨rfl, by simp⟩
  · rw [writable] at able
    simp at able
  rw [writable] at able
  have enough : n + 1 ≤ m + 1 := by simpa using able
  exact ⟨rfl, by simpa using enough⟩

/-- The credit that two updates for a message give. -/
theorem creditConn_view (c : Conn) (sid total : ℕ) (odd : sid % 2 = 1)
    (small : total ≤ maxMsg + 5) :
    ∃ g, (c.creditConn sid total).view =
        { c.view with window := c.connRecvWindow + total, granted := g } ∧
      (c.canWrite 2 = true → g = granted c.written + total) := by
  have stream : Frame.increment ⟨.windowUpdate, 0, sid, be32 total⟩ = 0 := by
    unfold Frame.increment
    dsimp only
    split
    · cases odd
    · rfl
  have conn : Frame.increment ⟨.windowUpdate, 0, 0, be32 total⟩ = total := by
    refine readBe32_be32 ?_
    unfold maxMsg at small
    omega
  have before : Conn.view { c with connRecvWindow := c.connRecvWindow + int32 total } =
      { c.view with window := c.connRecvWindow + total } := by
    rw [int32_of_le small]
    rfl
  unfold creditConn frameWriteWindowUpdate
  have first := (frameWrite_view { c with connRecvWindow := c.connRecvWindow + int32 total }
    stream).trans before
  rw [frameWrite_granted, first, conn]
  refine ⟨_, rfl, fun able => ?_⟩
  obtain ⟨-, still⟩ := frameWrite_of_canWrite (f := ⟨.windowUpdate, 0, sid, be32 total⟩)
    (c := { c with connRecvWindow := c.connRecvWindow + int32 total }) able
    (Nat.le_of_ble_eq_true rfl)
  obtain ⟨wrote, -⟩ := frameWrite_of_canWrite (f := ⟨.windowUpdate, 0, 0, be32 total⟩) still
    (Nat.le_of_ble_eq_true rfl)
  have same := congrArg View.granted first
  rw [if_pos wrote]
  exact congrArg (· + total) same

/-- Credit is not refused while the windows are within their start. -/
theorem streamCreditMessage_of_le (small : n ≤ maxMsg)
    (stream : (c.streams i).recvWindow ≤ initWindow) (conn : c.connRecvWindow ≤ initWindow) :
    c.streamCreditMessage i (n + 5) = (c.creditConn (c.streams i).id (n + 5)).set i
        { c.streams i with recvWindow := (c.streams i).recvWindow + (n + 5 : ℕ) } := by
  have total : int32 (n + 5 : ℕ) = (n + 5 : ℕ) := int32_of_le (Nat.add_le_add_right small 5)
  have given : c.creditRefused (c.streams i).recvWindow (n + 5) = false := by
    rw [maxMsg_eq] at small
    rw [show initWindow = 65535 from rfl] at stream conn
    rw [creditRefused, total, decide_eq_false_iff_not]
    omega
  rw [streamCreditMessage_eq, given, if_neg Bool.false_ne_true, total]

/-! ## Data -/

section Feed

variable (c₀ : Conn) (i : Slot) (k k' l : ℤ) (able : Prop)

/-- What all rounds of the loop keep. -/
structure Kept (c : Conn) : Prop where
  others : ∀ j, j ≠ i → c.streams j = c₀.streams j
  nextSid : c.nextSid = c₀.nextSid
  id : (c.streams i).id = (c₀.streams i).id
  inUse : (c.streams i).inUse = (c₀.streams i).inUse
  type : (c.streams i).type = (c₀.streams i).type
  short : ∀ m ∈ (c.streams i).queue, m.length ≤ maxMsg
  ledger : able → c.connRecvWindow - granted c.written = l

/-- The books in the middle of the loop: the windows, with what is held and with the
data that is left. -/
structure Books (c : Conn) (rest data : Octets) : Prop extends Kept c₀ i l able c where
  state : (c.streams i).state = (c₀.streams i).state
  at' : (c.streams i).At rest
  stream : (c.streams i).recvWindow + ((c.streams i).queued + rest.length + data.length : ℕ) = k
  conn : c.connRecvWindow + ((c.streams i).queued + rest.length + data.length : ℕ) = k'
  room : able → (c.streams i).type = .unary → (c.streams i).msgCount = 0 → c.canWrite 2 = true

/-- The books at the end of the loop: all is accounted for, or the stream was given
up. -/
structure BooksEnd (c : Conn) : Prop extends Kept c₀ i l able c where
  balance : (∃ rest, Books c₀ i k k' l able c rest []) ∨
    ((c.streams i).state = .done ∧ (c.streams i).err.isSome = true ∧
      (c.streams i).recvWindow + ((c.streams i).queued : ℤ) ≤ k ∧
      c.connRecvWindow + ((c.streams i).queued : ℤ) ≤ k')

variable {c₀ i k k' l able} {s : Stream}

theorem Kept.set {d : Conn} {l₀ : ℤ} {able₀ : Prop} (kept : Kept c₀ i l₀ able₀ c)
    (streams : d.streams = c.streams) (sid : d.nextSid = c.nextSid) (id : s.id = (c.streams i).id)
    (inUse : s.inUse = (c.streams i).inUse) (type : s.type = (c.streams i).type)
    (short : ∀ m ∈ s.queue, m.length ≤ maxMsg)
    (ledger : able → d.connRecvWindow - granted d.written = l) : Kept c₀ i l able (d.set i s) := by
  refine ⟨fun j ne => ?_, sid.trans kept.nextSid, ?_, ?_, ?_, ?_, ledger⟩
  · rw [set_streams_of_ne _ ne, streams, kept.others j ne]
  all_goals rw [set_streams]
  · exact id.trans kept.id
  · exact inUse.trans kept.inUse
  · exact type.trans kept.type
  · exact short

variable {octets m more : Octets} {rest data : Octets}

theorem Kept.books {d : Conn} (kept : Kept c₀ i l able (d.set i s))
    (state : s.state = (c₀.streams i).state) (at' : s.At rest)
    (stream : s.recvWindow + (s.queued + rest.length + data.length : ℕ) = k)
    (conn : d.connRecvWindow + (s.queued + rest.length + data.length : ℕ) = k')
    (room : able → s.type = .unary → s.msgCount = 0 → d.canWrite 2 = true) :
    Books c₀ i k k' l able (d.set i s) rest data := by
  refine ⟨kept, ?_, ?_, ?_, ?_, ?_⟩ <;> rw [set_streams]
  · exact state
  · exact at'
  · exact stream
  · exact conn
  · exact room

theorem Kept.quit (kept : Kept c₀ i l able c)
    (stream : (c.streams i).recvWindow + ((c.streams i).queued : ℤ) ≤ k)
    (conn : c.connRecvWindow + ((c.streams i).queued : ℤ) ≤ k') {s' : Stream}
    (quit : (c.streams i).Quit s') (code : H2Code) :
    BooksEnd c₀ i k k' l able ((c.frameWriteRst (c.streams i).id code).set i s') := by
  have view := frameWriteRst_view c (c.streams i).id code
  have window : (c.frameWriteRst (c.streams i).id code).connRecvWindow = c.connRecvWindow :=
    congrArg View.window view
  have credit : granted (c.frameWriteRst (c.streams i).id code).written = granted c.written :=
    congrArg View.granted view
  have queued : s'.queued = (c.streams i).queued := by
    unfold Stream.queued
    rw [quit.queue]
  refine ⟨kept.set (frameWriteRst_streams ..) (congrArg View.nextSid view) quit.id
    quit.inUse quit.type
    ?_ ?_, .inr ?_⟩
  · rw [quit.queue]
    exact kept.short
  · rw [window, credit]
    exact kept.ledger
  rw [set_streams, quit.recvWindow, queued]
  exact ⟨quit.state, quit.err, stream, by rw [← window] at conn; exact conn⟩

theorem Books.quit (books : Books c₀ i k k' l able c rest data) {s' : Stream}
    (quit : (c.streams i).Quit s') (code : H2Code) :
    BooksEnd c₀ i k k' l able ((c.frameWriteRst (c.streams i).id code).set i s') := by
  have stream := books.stream
  have conn := books.conn
  exact books.toKept.quit (by omega) (by omega) quit code

/-- The lengths of a message and of what is around it. -/
theorem length_of_message {accept : Octets → Option ℕ}
    (front : Prefixed.progress 5 accept octets = .message m more) :
    octets.length = 5 + m.length + more.length := by
  obtain ⟨header, five, -, rfl⟩ := Prefixed.progress_eq_message_iff.mp front
  rw [List.length_append, List.length_append, five, Nat.add_assoc]

theorem length_le_of_message (front : Prefixed.progress 5 s.accepts octets = .message m more) :
    m.length ≤ maxMsg := by
  obtain ⟨header, -, accepted, -⟩ := Prefixed.progress_eq_message_iff.mp front
  unfold Stream.accepts at accepted
  split at accepted
  · dsimp only at accepted
    split at accepted
    · cases accepted
    rename_i fine
    rw [← Option.some.inj accepted]
    exact Nat.not_lt.mp fun long => fine (.inr (.inl long))
  · cases accepted

/-- **An octet** of the data. -/
theorem Books.round (odd : (c₀.streams i).id % 2 = 1) (bound : k ≤ initWindow)
    (bound' : k' ≤ initWindow) {c' : Conn} {rest' left : Octets} {b : UInt8}
    (books : Books c₀ i k k' l able c rest (b :: left)) (round : Round c i rest b c' rest') :
    Books c₀ i k k' l able c' rest' left := by
  have stream := books.stream
  have conn := books.conn
  rw [List.length_cons] at stream conn
  cases round with
  | more at' same =>
    have length : (rest ++ [b]).length = rest.length + 1 := List.length_append
    refine Kept.books (books.toKept.set rfl rfl rfl rfl rfl books.short books.ledger)
      books.state at'
      ?_ ?_ books.room <;> rw [length]
    · show (c.streams i).recvWindow + ((c.streams i).queued + (rest.length + 1) + left.length : ℕ) =
        k
      omega
    · show c.connRecvWindow + ((c.streams i).queued + (rest.length + 1) + left.length : ℕ) = k'
      omega
  | @queued t m front type flag header same =>
    have lengths := length_of_message (front left)
    rw [List.length_append, List.length_cons] at lengths
    have queued : Stream.queued { (c.streams i).withReassembly t with
        queue := (c.streams i).queue ++ [m], qBytes := (c.streams i).qBytes + m.length } =
        (c.streams i).queued + (m.length + 5) := by
      unfold Stream.queued
      rw [List.map_append, List.sum_append, List.map_singleton, List.sum_singleton]
    refine Kept.books (books.toKept.set rfl rfl rfl rfl rfl (fun m' mem => ?_) books.ledger)
      books.state (.header flag header (by decide)) ?_ ?_ books.room
    · rcases List.mem_append.mp mem with old | new
      · exact books.short m' old
      · rw [List.mem_singleton.mp new]
        exact length_le_of_message (front left)
    · rw [queued, List.length_nil]
      show (c.streams i).recvWindow + _ = k
      omega
    · rw [queued, List.length_nil]
      omega
  | @answered t m front type first flag header same resp =>
    have lengths := length_of_message (front left)
    rw [List.length_append, List.length_cons] at lengths
    have small := length_le_of_message (front left)
    rw [streamCreditMessage_of_le small (by omega) (by omega), set_set, set_streams]
    obtain ⟨g, view, wrote⟩ := c.creditConn_view (c.streams i).id (m.length + 5)
      (by rw [books.id]; exact odd) (Nat.add_le_add_right small 5)
    have window : (c.creditConn (c.streams i).id (m.length + 5)).connRecvWindow =
      c.connRecvWindow + (m.length + 5 : ℕ) := congrArg View.window view
    have credit : granted (c.creditConn (c.streams i).id (m.length + 5)).written = g :=
      congrArg View.granted view
    have streams : (c.creditConn (c.streams i).id (m.length + 5)).streams = c.streams := by
      rw [creditConn, frameWriteWindowUpdate_streams, frameWriteWindowUpdate_streams]
    refine Kept.books (books.toKept.set streams (congrArg View.nextSid view) rfl rfl rfl
      books.short fun able' => ?_) books.state (.header flag header (by decide)) ?_ ?_ nofun
    · have ledger := books.ledger able'
      rw [window, credit, wrote (books.room able' type first)]
      omega
    · show (c.streams i).recvWindow + (m.length + 5 : ℕ) +
        ((c.streams i).queued + 0 + left.length : ℕ) = k
      omega
    · rw [List.length_nil, window]
      show c.connRecvWindow + (m.length + 5 : ℕ) + ((c.streams i).queued + 0 + left.length : ℕ) = k'
      omega

theorem BooksEnd.endCheck (books : BooksEnd c₀ i k k' l able c) (flags : UInt8) :
    BooksEnd c₀ i k k' l able (c.endCheck i flags) := by
  unfold Conn.endCheck
  split
  · have kept : (c.streams i).recvWindow + ((c.streams i).queued : ℤ) ≤ k ∧
        c.connRecvWindow + ((c.streams i).queued : ℤ) ≤ k' := by
      rcases books.balance with ⟨rest, going⟩ | ⟨-, -, stream, conn⟩
      · have stream := going.stream
        have conn := going.conn
        constructor <;> omega
      · exact ⟨stream, conn⟩
    rw [streamAbort_eq]
    refine books.toKept.quit kept.1 kept.2 ?_ _
    exact ⟨rfl, rfl, rfl, rfl, rfl, rfl, rfl⟩
  · exact books

theorem BooksEnd.held_le (books : BooksEnd c₀ i k k' l able c) :
    (c.streams i).recvWindow + (c.streams i).held ≤ k ∧
      c.connRecvWindow + (c.streams i).held ≤ k' := by
  unfold Stream.held
  rcases books.balance with ⟨rest, going⟩ | ⟨done, -, stream, conn⟩
  · have stream := going.stream
    have conn := going.conn
    have length := going.at'.length_eq
    split <;> constructor <;> push_cast at * <;> omega
  · rw [if_pos done]
    constructor <;> push_cast <;> omega

end Feed

theorem length_unpad_le {flags : UInt8} {payload data : Octets}
    (unpadded : unpad flags payload = some data) : data.length ≤ payload.length := by
  unfold unpad at unpadded
  split at unpadded
  · split at unpadded
    · cases unpadded
    split at unpadded <;> cases unpadded
    rw [List.length_take, List.length_cons]
    omega
  · cases unpadded
    exact Nat.le_refl _

/-- Credit can be written for a response that the slot waits for. -/
def Creditable (c : Conn) (i : Slot) : Prop := (c.streams i).type = .unary → c.canWrite 2 = true

section Data

variable {c : Conn} {i : Slot} {rest octets : Octets} {n : ℕ}

/-- The window of the stream, with all that is held, behind a DATA frame. -/
def streamBook (c : Conn) (i : Slot) (rest octets : Octets) (n : ℕ) : ℤ :=
  (c.streams i).recvWindow - n + ((c.streams i).queued + rest.length + octets.length : ℕ)

/-- The window of the connection, with all that is held for the stream. -/
def connBook (c : Conn) (i : Slot) (rest octets : Octets) (n : ℕ) : ℤ :=
  c.connRecvWindow - n + ((c.streams i).queued + rest.length + octets.length : ℕ)

theorem debit_books (sound : c.view.Sound) (at' : (c.streams i).At rest) :
    Books c i (c.streamBook i rest octets n) (c.connBook i rest octets n)
      (c.connRecvWindow - n - granted c.written) (c.Creditable i) (c.debit i n) rest octets := by
  have kept : Kept c i 0 False c :=
    ⟨fun _ _ => rfl, rfl, rfl, rfl, rfl, (sound.slots i).short, nofun⟩
  exact Kept.books (kept.set rfl rfl rfl rfl rfl kept.short fun _ => rfl) rfl
    (at'.congr rfl) rfl rfl
    fun able unary _ => able unary

theorem held_of_going (at' : (c.streams i).At rest) (inUse : (c.streams i).inUse = true)
    (going : (c.streams i).state ≠ .done) :
    (c.streams i).held = rest.length + (c.streams i).queued := by
  unfold Stream.held
  rw [if_pos inUse, if_neg going, at'.length_eq]

/-- The windows with all that is held stay within the window at the start. -/
theorem books_le (sound : c.view.Sound) (at' : (c.streams i).At rest)
    (inUse : (c.streams i).inUse = true) (going : (c.streams i).state ≠ .done)
    (length : octets.length ≤ n) :
    c.streamBook i rest octets n ≤ initWindow ∧ c.connBook i rest octets n ≤ initWindow := by
  have held := held_of_going at' inUse going
  have window := (sound.slots i).window inUse
  change (c.streams i).recvWindow + ((c.streams i).held : ℤ) ≤ initWindow at window
  have conn := sound.window
  have part : (c.streams i).held ≤ c.view.held := c.view.slot_held_le i
  change c.connRecvWindow + (c.view.held : ℤ) ≤ initWindow at conn
  unfold streamBook connBook
  constructor
  · omega
  · omega

/-- **The books of a DATA frame.** -/
theorem data_books (sound : c.view.Sound) (at' : (c.streams i).At rest)
    (inUse : (c.streams i).inUse = true) (going : (c.streams i).state ≠ .done)
    (length : octets.length ≤ n) (flags : UInt8) :
    BooksEnd c i (c.streamBook i rest octets n) (c.connBook i rest octets n)
      (c.connRecvWindow - n - granted c.written) (c.Creditable i)
      ((c.fed i n octets).endCheck i flags) := by
  obtain ⟨stream, conn⟩ := books_le sound at' inUse going length
  have fed := streamFeedData_rule (P := Books c i _ _ _ _)
    (fun books => ⟨books.at', by rw [books.state]; exact going⟩)
    (fun code books quit _ => books.quit quit code)
    (Books.round ((sound.slots i).id inUse) stream conn)
    (fun books => ⟨books.toKept, .inl ⟨_, books⟩⟩) (debit_books sound at') (Nat.le_refl _)
  exact BooksEnd.endCheck fed flags

end Data

/-! ## Frames -/

theorem BooksEnd.view_streams {c₀ : Conn} {k k' l : ℤ} {able : Prop}
    (books : BooksEnd c₀ i k k' l able c) :
    c.view.streams = (c₀.view.set i (c.streams i).received).streams := by
  funext j
  by_cases same : j = i
  · subst same
    rw [View.set_streams]
    rfl
  · rw [View.set_streams_of_ne _ same]
    exact congrArg Stream.received (books.others j same)

theorem data_sound {octets : Octets} (sound : c.view.Sound) (inUse : (c.streams i).inUse = true)
    (going : (c.streams i).state ≠ .done) (length : octets.length ≤ n) (flags : UInt8) :
    ((c.fed i n octets).endCheck i flags).view.Sound := by
  have slot := (sound.slots i).of_received
  obtain ⟨rest, at'⟩ := slot.at' inUse going
  have books := data_books sound at' inUse going length flags
  have held := held_of_going at' inUse going
  have window := slot.window inUse
  obtain ⟨stream, conn⟩ := books.held_le
  rw [streamBook] at stream
  rw [connBook] at conn
  refine sound.move (i := i) (Stream.Sound.received ⟨?_, ?_, ?_, books.short, ?_⟩)
    books.view_streams ?_ ?_
  · rw [books.id, books.inUse]
    exact slot.id
  · rw [books.inUse, inUse]
    exact nofun
  · intro _ still
    rcases books.balance with ⟨rest', after⟩ | ⟨done, -⟩
    · exact ⟨rest', after.at'⟩
    · exact absurd done still
  · intro _
    omega
  · exact (congrArg (· % 2) books.nextSid).trans sound.nextSid
  change Conn.connRecvWindow _ + ((Stream.held _ : ℕ) : ℤ) ≤
    c.connRecvWindow + ((c.streams i).held : ℤ)
  refine le_trans conn ?_
  omega

theorem completeAllStreams_sound (sound : c.view.Sound) (status : ℕ) :
    (c.completeAllStreams status).view.Sound := by
  refine sound.all (fun i => ?_) rfl rfl
  show (completeStream status (c.streams i)).received.Sound ∧
    (completeStream status (c.streams i)).received.held ≤ (c.streams i).received.held
  unfold completeStream
  split
  · exact ⟨sound.slots i, Nat.le_refl _⟩
  · exact (sound.slots i).done rfl rfl rfl rfl rfl

/-- A frame that is accepted keeps the books in order. -/
theorem FrameMove.sound {c' : Conn} {f : Frame} (move : c.FrameMove f c') (sound : c.view.Sound) :
    c'.view.Sound := by
  have stays {i : Slot} {s : Stream} (view : c'.view = (c.set i s).view) (slot : s.Sound)
      (held : s.held ≤ (c.streams i).held) : c'.view.Sound := by
    rw [view, view_set]
    refine sound.move slot.received rfl sound.nextSid ?_
    show c.connRecvWindow + (s.held : ℤ) ≤ c.connRecvWindow + ((c.streams i).held : ℤ)
    omega
  have slots := fun i => (sound.slots i).of_received
  cases move with
  | still _ _ _ view | drained _ _ _ _ _ view | ignored _ _ _ _ _ view => exact view ▸ sound
  | data i octets type found going window window' unpadded conn =>
    rw [conn]
    exact data_sound sound (streamFind_spec found).1 going (length_unpad_le unpadded) _
  | concluded i fields h status block clean scanned conclusion view =>
    obtain ⟨slot, held⟩ := (slots i).done (t := { c.streams i with
      state := .done, status := status, err := none, rasmBuf := [] }) rfl rfl rfl rfl rfl
    exact stays view slot held
  | responded i fields h block sent scanned conclusion view =>
    have going : (c.streams i).state ≠ .done := by
      rw [sent]
      exact nofun
    have held : Stream.held { c.streams i with state := .headers, sawHeaders := true } =
        (c.streams i).held := by
      unfold Stream.held
      rw [if_neg going]
      rfl
    refine stays view ⟨(slots i).id, (slots i).idle, fun inUse _ => ?_, (slots i).short, ?_⟩ held.le
    · exact ((slots i).at' inUse going).imp fun rest at' => at'.congr rfl
    · rw [held]
      exact (slots i).window
  | cancelled i type found going view =>
    obtain ⟨slot, held⟩ := (slots i).done (t := { c.streams i with
      state := .done, status := statusCancelled, err := none, rasmBuf := [] }) rfl rfl rfl rfl rfl
    exact stays view slot held
  | destroyed i type found done conn =>
    refine stays (s := Client.destroyed (c.streams i)) (by rw [conn]; rfl)
      (.of_idle rfl rfl) ?_
    exact Nat.zero_le _
  | goaway type dead view => exact view ▸ completeAllStreams_sound sound _

/-- Only a GOAWAY ends the connection, and it finishes all streams. -/
theorem processOneFrame_dead (c : Conn) (f : Frame) : (c.processOneFrame f).1.dead = c.dead ∨
      (c.processOneFrame f).1.dead = true ∧
        (c.processOneFrame f).1.view = (c.completeAllStreams statusUnavailable).view := by
  have stays {c' : Conn} (kept : c'.kept = c.kept) : c'.dead = c.dead := congrArg Prod.fst kept
  have header (type : f.type = .headers ∨ f.type = .continuation) :
      (c.processOneFrame f).1.dead = c.dead := by
    have move := processOneFrame_header (c := c) type
    generalize c.processOneFrame f = result at move ⊢
    cases move with
    | refused | collected => rfl
    | handled => exact (handleHeaderBlock_kept ..).1
  obtain ⟨type, flags, sid, payload⟩ := f
  cases type with
  | data => exact .inl (stays ((steady_kept c).handleDataFrame _ _ _ rfl))
  | headers => exact .inl (header (.inl rfl))
  | continuation => exact .inl (header (.inr rfl))
  | rstStream => exact .inl (stays (handleRstStream_kept ..))
  | settings => exact .inl (stays ((adjustable_kept c).processOneFrame (.inl rfl) rfl))
  | ping => exact .inl (stays ((steady_kept c).handlePing _ _ rfl))
  | goaway =>
    show (c.handleGoaway payload).1.dead = c.dead ∨
      (c.handleGoaway payload).1.dead = true ∧ (c.handleGoaway payload).1.view = _
    unfold handleGoaway
    split
    · exact .inl rfl
    · exact .inr ⟨rfl, rfl⟩
  | windowUpdate => exact .inl (stays ((adjustable_kept c).processOneFrame (.inr rfl) rfl))
  | priority | pushPromise | unknown => exact .inl rfl

end Conn

/-! ## Steps -/

namespace Client

open Conn

theorem takeMessage_view {old : Client} (sound : old.conn.view.Sound) {i : Slot} {m : Octets}
    {rest : List Octets} (queue : (old.conn.streams i).queue = m :: rest) :
    ∃ g, (takeMessage old i m rest).conn.view =
        { old.conn.view.set i ((old.conn.streams i).taken m rest).received with
          window := old.conn.connRecvWindow + (m.length + 5 : ℕ), granted := g } ∧
      (old.conn.canWrite 2 = true → g = granted old.conn.written + (m.length + 5)) := by
  have slot := (sound.slots i).of_received
  have inUse := Stream.inUse_of_queue slot queue
  have small : m.length ≤ maxMsg := slot.short m (by rw [queue]; exact List.mem_cons_self)
  have stream := slot.window inUse
  have conn := sound.window
  change old.conn.connRecvWindow + (old.conn.view.held : ℤ) ≤ initWindow at conn
  obtain ⟨g, view, wrote⟩ := old.conn.creditConn_view (old.conn.streams i).id
    (m.length + 5) (slot.id inUse) (Nat.add_le_add_right small 5)
  refine ⟨g, ?_, wrote⟩
  have credited := streamCreditMessage_of_le (c := old.conn) (i := i) small (by omega) (by omega)
  have taken := set_streamCreditMessage old.conn i (s := { old.conn.streams i with
    queue := rest, qBytes := (old.conn.streams i).qBytes - m.length }) (m.length + 5) rfl rfl
  show (Conn.streamCreditMessage _ i (m.length + 5)).view = _
  rw [taken, credited, set_set, set_streams, view_set, view]
  rfl

theorem nextSid_odd (odd : n % 2 = 1) : (n + 2) % 2 ^ 32 % 2 = 1 := by omega

variable {old new : Client} {label : Label}

/-- A step keeps the books in order, unless the connection is closed. -/
theorem Move.sound (move : Move old label new) (sound : old.conn.view.Sound) :
    new.call = .closed ∨ new.conn.view.Sound := by
  cases move with
  | still quiet view => exact .inr (view ▸ sound)
  | frame processed => exact .inr ((processOneFrame_move processed).sound sound)
  | failed dead view =>
    rcases view with same | completed
    · exact .inr (same ▸ sound)
    · exact .inr (completed ▸ completeAllStreams_sound sound _)
  | freed frees idle empty id view =>
    rw [view]
    exact .inr (sound.empty (.of_idle idle empty) (Stream.held_of_idle idle) rfl sound.nextSid rfl)
  | started starts alloc view =>
    rw [view]
    refine .inr (sound.empty (.received ?_) rfl rfl (nextSid_odd sound.nextSid) rfl)
    exact ⟨fun _ => sound.nextSid, nofun, fun _ _ => ⟨[], .header rfl rfl (by decide)⟩, nofun,
      fun _ => Int.le_refl _⟩
  | unsent starts alloc idle empty id view =>
    rw [view]
    exact .inr (sound.empty (.of_idle idle empty) (Stream.held_of_idle idle) rfl
      (nextSid_odd sound.nextSid) rfl)
  | @took i m rest call queue =>
    obtain ⟨g, view, -⟩ := takeMessage_view sound queue
    have slot := (sound.slots i).of_received
    have held := Stream.held_taken queue (Stream.inUse_of_queue slot queue)
    rw [view]
    refine .inr (sound.move (slot.taken queue).received rfl sound.nextSid ?_)
    change old.conn.connRecvWindow + (m.length + 5 : ℕ) +
      (((old.conn.streams i).taken m rest).held : ℤ) ≤
        old.conn.connRecvWindow + ((old.conn.streams i).held : ℤ)
    omega
  | closed call => exact .inl call

theorem call_of_closed (step : old.step label = some new) (closed : old.call = .closed) :
    new.call = .closed := by
  unfold Client.step check expire polling at step
  rw [closed] at step
  dsimp only at step
  split at step
  · cases step
    rfl
  · simp at step
  · simp at step
  · cases step
  · split at step <;> cases step
  · cases step

variable {c : Client}

/-- **The books are in order** in every state of every client, until it is closed. -/
theorem sound_of_reachable (reachable : clients.Reachable c) :
    c.call = .closed ∨ c.conn.view.Sound := by
  refine reachable.induct (P := fun c => c.call = .closed ∨ c.conn.view.Sound)
    (fun c₀ start => ?_) fun old label new _ step before => ?_
  · obtain ⟨ns, rfl⟩ := start
    have nothing : (connecting ns).conn.view.held = 0 :=
      Finset.sum_eq_zero fun i _ => Stream.held_of_idle rfl
    refine .inr ⟨rfl, fun i => .of_idle rfl rfl, ?_⟩
    exact Int.le_refl _
  · rcases before with closed | sound
    · exact .inl (call_of_closed step closed)
    · exact (step_move step).sound sound

/-! ## Clients that can be used -/

deriving instance DecidableEq for Call, Outcome

/-- The connection is not dead and not closed. -/
def Live (c : Client) : Prop := c.conn.dead = false ∧ c.call ≠ .closed

instance (c : Client) : Decidable c.Live := inferInstanceAs (Decidable (_ ∧ _))

theorem sound_of_live (reachable : clients.Reachable c) (live : c.Live) : c.conn.view.Sound :=
  (sound_of_reachable reachable).resolve_left live.2

/-- A connection does not come back to life. -/
theorem live_of_step (step : old.step label = some new) (live : new.Live) : old.Live := by
  refine ⟨Bool.eq_false_iff.mpr fun dead => ?_, fun closed => live.2 (call_of_closed step closed)⟩
  suffices still : new.conn.dead = true from absurd (still.symm.trans live.1) Bool.noConfusion
  by_cases frame : ∃ f, label = .frame f
  · obtain ⟨f, rfl⟩ := frame
    obtain ⟨-, rfl⟩ := step_frame step
    have kept : (old.conn.processOneFrame f).1.dead = true :=
      (processOneFrame_dead old.conn f).elim (fun same => same.trans dead) And.left
    unfold pollFrame
    split
    · rename_i processed
      rwa [processed] at kept
    · exact connFail_dead ..
  · rcases step_quiet step fun f eq => frame ⟨f, eq⟩ with ⟨kept, -⟩ | ⟨still, -⟩
    · exact (congrArg Prod.fst kept).trans dead
    · exact still

/-- **The rule for live clients.** What holds at the start and is kept by the steps that
meet a condition holds in every run whose steps all meet it. -/
theorem live_induct {guard : Client → Label → Prop} [∀ c label, Decidable (guard c label)]
    {P : Client → Prop} (start : ∀ ns, P (connecting ns))
    (preserved : ∀ {old new : Client} {label : Label}, guard old label → Move old label new →
      old.conn.view.Sound → new.Live → P old → P new)
    (reachable : (clients.restrict guard).Reachable c) (live : c.Live) : P c := by
  refine reachable.induct (P := fun c => c.Live → P c) ?_ ?_ live
  · rintro c ⟨ns, rfl⟩ _
    exact start ns
  intro old label new before step holds alive
  obtain ⟨met, step⟩ := Machine.restrict_step.mp step
  have lived := live_of_step step alive
  exact preserved met (step_move step) (sound_of_live before.of_restrict lived) alive (holds lived)

end Client

end Strimserver.H2c
