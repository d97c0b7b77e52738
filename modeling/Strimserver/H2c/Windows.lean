import Strimserver.H2c.Receiver

/-!
# The windows of the client and of the server

A server counts what it sends against the window of the connection, and adds the
credit that it reads. `receiving` records the octets of all DATA frames that a client
has processed, so the window of the server can be read off a state.

The two windows agree while data of a stream that was given up is empty and credit
can be written when it is due (`Client.ledgered`). All credit has come back in the
end if moreover no octet is dropped: `Client.sparing` says of each step that it drops
none. Padding is dropped, and so is what is held for a stream when it is given up,
closed or ended in the middle of a message.
-/

namespace Strimserver.H2c

open Hpack Library List H2c.Stream

/-! ## Data that a stream takes as a whole -/

namespace Stream

/-- What a slot has of a message, with zeros for its body: only the length of a body
matters for what is behind it. -/
def part (s : Stream) : Octets :=
  if s.rasmBody then s.rasmHdr ++ List.replicate s.rasmGot 0 else s.rasmHdr

/-- The messages that go to the queue: those of a subscription. -/
def toQueue (s : Stream) (octets : Octets) : List Octets :=
  match s.type with
  | .unary => []
  | .subscribe => Prefixed.messages 5 s.accepts octets

theorem toQueue_congr {s t : Stream} (type : t.type = s.type) (accepts : t.accepts = s.accepts)
    (octets : Octets) : t.toQueue octets = s.toQueue octets := by
  unfold toQueue
  rw [type, accepts]

variable {s : Stream}

theorem toQueue_of_unary (type : s.type = .unary) (octets : Octets) : s.toQueue octets = [] := by
  unfold toQueue
  rw [type]

theorem toQueue_of_subscribe (type : s.type = .subscribe) (octets : Octets) :
    s.toQueue octets = Prefixed.messages 5 s.accepts octets := by
  unfold toQueue
  rw [type]

theorem toQueue_of_more {octets : Octets} (front : Prefixed.progress 5 s.accepts octets = .more) :
    s.toQueue octets = [] := by
  unfold toQueue
  split
  · rfl
  · exact (Prefixed.messages_of_more front).1

theorem takes_behind {t : Stream} {octets m more : Octets}
    (front : Prefixed.progress 5 s.accepts octets = .message m more) (whole : s.takes octets = true)
    (accepts : t.accepts = s.accepts) (type : t.type = s.type)
    (count : s.type = .unary → t.msgCount = s.msgCount + 1)
    (bytes : s.type = .subscribe → t.qBytes = s.qBytes + m.length) : t.takes more = true := by
  obtain ⟨clean, once, room⟩ := (takes_of_message front).mp whole
  unfold takes
  rw [accepts, clean, type, Bool.true_and]
  rcases kind : s.type with _ | _
  · have less := once kind
    rw [count kind]
    exact decide_eq_true (by omega)
  have less := room kind
  rw [bytes kind]
  exact decide_eq_true (by omega)

/-- Which octets of a body a slot has does not matter. -/
theorem At.alike {rest : Octets} (at' : s.At rest) (data : Octets) :
    Prefixed.Alike 5 s.accepts (rest ++ data) (s.part ++ data) := by
  unfold part
  rcases at' with ⟨flag, header, short⟩ | ⟨inBody, short⟩
  · rw [flag, if_neg Bool.false_ne_true, header]
    exact .same rfl
  have long := inBody.got
  have five : s.rasmHdr.length = 5 := by
    rw [inBody.header, length_take]
    omega
  have body : (rest.drop 5).length = s.rasmGot := by
    rw [length_drop]
    omega
  have split : rest = s.rasmHdr ++ rest.drop 5 := by rw [inBody.header, take_append_drop]
  rw [inBody.flag, if_pos rfl, split, append_assoc, append_assoc]
  exact Prefixed.alike_of_header five inBody.length (by rw [body]; exact inBody.fits)
    (length_replicate.trans body.symm) data

theorem takes_of_alike {octets octets' : Octets}
    (alike : Prefixed.Alike 5 s.accepts octets octets') : s.takes octets' = s.takes octets := by
  have lengths := alike.lengths_eq (by decide)
  have count : (Prefixed.messages 5 s.accepts octets').length =
      (Prefixed.messages 5 s.accepts octets).length := by
    rw [← length_map (f := List.length), lengths, length_map]
  unfold takes
  rw [alike.clean_eq (by decide), lengths, count]

end Stream

namespace Conn

section Feed

variable {c₀ : Conn} {i : Slot} {k k' l : ℤ} {able : Prop}

/-- Octets that a stream takes as a whole: they are accounted for, the messages are in
the queue, and the slot has what is behind them. -/
structure Fed (c₀ : Conn) (i : Slot) (k k' l : ℤ) (able : Prop) (s : Stream) (octets : Octets)
    (c : Conn) : Prop where
  books : Books c₀ i k k' l able c (Prefixed.remainder 5 s.accepts octets) []
  accepts : (c.streams i).accepts = s.accepts
  queue : (c.streams i).queue = s.queue ++ s.toQueue octets
  takes : (c.streams i).takes (Prefixed.remainder 5 s.accepts octets) = true

theorem streamFeedData_fed (odd : (c₀.streams i).id % 2 = 1) (bound : k ≤ initWindow)
    (bound' : k' ≤ initWindow) (going : (c₀.streams i).state ≠ .done) {c : Conn}
    {rest data : Octets} (books : Books c₀ i k k' l able c rest data)
    (whole : (c.streams i).takes (rest ++ data) = true) :
    Fed c₀ i k k' l able (c.streams i) (rest ++ data) (streamFeedData data.length c i data) := by
  -- What is behind all the octets is behind those that are left, and the queue with the
  -- messages that are left is always the same.
  let P : Conn → Octets → Octets → Prop := fun d rest' data' =>
    Books c₀ i k k' l able d rest' data' ∧ (d.streams i).takes (rest' ++ data') = true ∧
      (d.streams i).accepts = (c.streams i).accepts ∧
      Prefixed.remainder 5 (c.streams i).accepts (rest' ++ data') =
        Prefixed.remainder 5 (c.streams i).accepts (rest ++ data) ∧
      (d.streams i).queue ++ (d.streams i).toQueue (rest' ++ data') =
        (c.streams i).queue ++ (c.streams i).toQueue (rest ++ data)
  refine streamFeedData_rule (P := P)
    (fun holds => ⟨holds.1.at', by rw [holds.1.state]; exact going⟩) ?_ ?_ ?_
    ⟨books, whole, rfl, rfl, rfl⟩ (Nat.le_refl _)
  · rintro d rest' b left s' code ⟨-, whole, -⟩ quit untaken
    exact absurd (whole.symm.trans untaken) Bool.noConfusion
  · rintro d rest' b left d' rest'' ⟨books, whole, accepts, behind, queue⟩ round
    refine ⟨books.round odd bound bound' round, ?_⟩
    cases round with
    | more at' same =>
      have accepts' := accepts_withReassembly same
      rw [append_cons] at whole behind queue
      rw [set_streams, Stream.takes, Stream.toQueue, accepts']
      exact ⟨whole, accepts, behind, queue⟩
    | @queued t m front type flag header same =>
      have accepts' := accepts_withReassembly same
      obtain ⟨messages, remainder⟩ := Prefixed.messages_of_message (by decide) (front left)
      rw [set_streams]
      refine ⟨takes_behind (front left) whole accepts' rfl
        (fun unary => absurd (type.symm.trans unary) nofun) fun _ => rfl,
        accepts'.trans accepts, ?_, ?_⟩
      · rw [← behind, ← accepts, remainder]
        rfl
      rw [← queue, toQueue_of_subscribe type, messages]
      refine (congrArg (_ ++ ·) ?_).trans (append_assoc _ [m] _)
      exact (toQueue_congr (s := d.streams i) (by rfl) accepts' left).trans
        (toQueue_of_subscribe type left)
    | answered front type first flag header same =>
      have accepts' := accepts_withReassembly same
      obtain ⟨-, remainder⟩ := Prefixed.messages_of_message (by decide) (front left)
      rw [set_streams]
      refine ⟨takes_behind (front left) whole accepts' rfl (fun _ => by rw [first])
        fun subscribe => absurd (type.symm.trans subscribe) nofun, accepts'.trans accepts, ?_, ?_⟩
      · rw [← behind, ← accepts, remainder]
        rfl
      rw [← queue, toQueue_of_unary type]
      refine congrArg (_ ++ ·) ?_
      exact (toQueue_congr (s := d.streams i) (by rfl) accepts' left).trans
        (toQueue_of_unary type left)
  rintro d rest' ⟨books, whole, accepts, left, queue⟩
  have front := books.at'.progress_eq_more
  rw [append_nil] at left queue whole
  rw [toQueue_of_more front, append_nil] at queue
  rw [accepts] at front
  rw [(Prefixed.messages_of_more front).2] at left
  refine ⟨?_, accepts, queue, ?_⟩
  · rw [← left]
    exact books
  · rw [← left]
    exact whole

end Feed

end Conn

/-! ## Nothing is dropped -/

namespace View

/-- All octets that are not held have been given credit for. -/
structure Balanced (v : View) : Prop where
  slots : ∀ i, (v.streams i).inUse = true →
    (v.streams i).recvWindow + (v.streams i).held = initWindow
  window : v.window + v.held = initWindow

/-- A new value for a slot that is balanced, and that holds what it held before, but
for what was taken off the window. -/
theorem Balanced.move {v v' : View} (balanced : v.Balanced) {i : Slot} {s : Stream}
    (slot : s.inUse = true → s.recvWindow + s.held = initWindow)
    (streams : v'.streams = (v.set i s).streams)
    (window : v'.window + s.held = v.window + (v.streams i).held) : v'.Balanced := by
  obtain ⟨slots, total⟩ :=
    slots_move (P := fun s => s.inUse = true → s.recvWindow + s.held = initWindow)
    balanced.slots slot streams
  have before := balanced.window
  exact ⟨slots, by omega⟩

/-- A new value for a slot that holds nothing, before and after. -/
theorem Balanced.empty {v v' : View} (balanced : v.Balanced) {i : Slot} {s : Stream}
    (slot : s.inUse = true → s.recvWindow = initWindow) (none : s.held = 0)
    (before : (v.streams i).held = 0) (streams : v'.streams = (v.set i s).streams)
    (window : v'.window = v.window) : v'.Balanced := by
  refine balanced.move (fun inUse => ?_) streams ?_
  · rw [none, slot inUse]
    rfl
  · rw [none, before, window]

end View

namespace Conn

/-- A frame drops no octet: its data is not padded and is taken as a whole, a stream
does not end in the middle of a message, and it is not freed before its queue is
empty. -/
def spares (c : Conn) (f : Frame) : Bool :=
  match f.type with
  | .data =>
    (c.streamFind f.sid).all fun i =>
      let s := c.streams i
      decide (s.state = .done) ||
        (!has f.flags flagPadded && s.takes (s.part ++ f.payload) &&
          (!has f.flags flagEndStream ||
            (Prefixed.remainder 5 s.accepts (s.part ++ f.payload)).isEmpty))
  | .headers | .continuation =>
    (c.streamFind (c.streamOf f)).all fun i =>
      decide ((c.streams i).state = .done) || (c.streams i).pending == 0
  | .rstStream =>
    (c.streamFind f.sid).all fun i =>
      if (c.streams i).state = .done then (c.streams i).queue.isEmpty
      else (c.streams i).pending == 0
  | _ => true

variable {i : Slot} {c : Conn} {octets : Octets} {flags : UInt8}

theorem data_fed {rest : Octets} {n : ℕ} (sound : c.view.Sound)
    (at' : (c.streams i).At rest) (inUse : (c.streams i).inUse = true)
    (going : (c.streams i).state ≠ .done) (length : octets.length ≤ n)
    (whole : (c.streams i).takes ((c.streams i).part ++ octets) = true) :
    Fed c i (c.streamBook i rest octets n) (c.connBook i rest octets n)
      (c.connRecvWindow - n - granted c.written) (c.Creditable i) (c.streams i) (rest ++ octets)
      (c.fed i n octets) := by
  obtain ⟨stream, conn⟩ := books_le sound at' inUse going length
  have debited : (c.debit i n).streams i =
    { c.streams i with recvWindow := (c.streams i).recvWindow - n } := set_streams ..
  obtain ⟨books, accepts, queue, takes⟩ := streamFeedData_fed ((sound.slots i).id inUse) stream conn
    going (debit_books sound at')
    (by rw [debited]; exact (takes_of_alike (at'.alike octets)).symm.trans whole)
  rw [debited] at books accepts queue takes
  exact ⟨books, accepts, queue, takes⟩

/-- The stream does not end in the middle of a message. -/
theorem endCheck_of_fed {c₀ : Conn} {k k' l : ℤ} {able : Prop} {s : Stream}
    (fed : Fed c₀ i k k' l able s octets c)
    (last : has flags flagEndStream = true → Prefixed.remainder 5 s.accepts octets = []) :
    c.endCheck i flags = c := by
  refine if_neg fun ends => ?_
  have at' := fed.books.at'
  rw [last ends.1] at at'
  rcases at' with ⟨flag, -⟩ | ⟨inBody, -⟩
  · rw [flag] at ends
    cases ends.2
  have long := inBody.got
  rw [length_nil] at long
  omega

theorem data_balanced (sound : c.view.Sound) (balanced : c.view.Balanced)
    (inUse : (c.streams i).inUse = true) (going : (c.streams i).state ≠ .done)
    (whole : (c.streams i).takes ((c.streams i).part ++ octets) = true)
    (last : has flags flagEndStream = true →
      Prefixed.remainder 5 (c.streams i).accepts ((c.streams i).part ++ octets) = []) :
    ((c.fed i octets.length octets).endCheck i flags).view.Balanced := by
  obtain ⟨rest, at'⟩ := (sound.slots i).of_received.at' inUse going
  have fed := data_fed sound at' inUse going (Nat.le_refl octets.length) whole
  have books := fed.books
  have held := held_of_going at' inUse going
  have held' := held_of_going books.at' (books.inUse.trans inUse) (by rw [books.state]; exact going)
  have before := balanced.slots i inUse
  change (c.streams i).recvWindow + ((c.streams i).held : ℤ) = initWindow at before
  have stream := books.stream
  have conn := books.conn
  unfold streamBook at stream
  unfold connBook at conn
  rw [length_nil] at stream conn
  have ends : BooksEnd c i _ _ _ _ (c.fed i octets.length octets) := ⟨books.toKept, .inl ⟨_, books⟩⟩
  rw [endCheck_of_fed fed fun ends =>
    ((at'.alike octets).remainder_eq_nil_iff (by decide)).mp (last ends)]
  refine balanced.move (fun _ => ?_) ends.view_streams ?_
  · change ((c.fed i octets.length octets).streams i).recvWindow +
      ((((c.fed i octets.length octets).streams i).held : ℕ) : ℤ) = initWindow
    omega
  change (c.fed i octets.length octets).connRecvWindow +
    ((((c.fed i octets.length octets).streams i).held : ℕ) : ℤ) =
      c.connRecvWindow + ((c.streams i).held : ℤ)
  omega

/-- The condition for data, for the stream that it is for. -/
theorem spares_data {f : Frame} (type : f.type = .data) (found : c.streamFind f.sid = some i)
    (going : (c.streams i).state ≠ .done) (spared : c.spares f = true) :
    unpad f.flags f.payload = some f.payload ∧
      (c.streams i).takes ((c.streams i).part ++ f.payload) = true ∧
      (has f.flags flagEndStream = true →
        Prefixed.remainder 5 (c.streams i).accepts ((c.streams i).part ++ f.payload) = []) := by
  unfold spares at spared
  rw [type, found] at spared
  have facts : has f.flags flagPadded = false ∧
      (c.streams i).takes ((c.streams i).part ++ f.payload) = true ∧
      (has f.flags flagEndStream = false ∨
        Prefixed.remainder 5 (c.streams i).accepts ((c.streams i).part ++ f.payload) = []) := by
    simpa [going, and_assoc] using spared
  refine ⟨?_, facts.2.1, fun ends => facts.2.2.resolve_left ?_⟩
  · unfold unpad
    rw [facts.1, if_neg Bool.false_ne_true]
  · rw [ends]
    exact nofun

/-- **A frame that drops nothing** keeps the balance, unless the connection dies. -/
theorem FrameMove.balanced {c' : Conn} {f : Frame} (move : c.FrameMove f c') (sound : c.view.Sound)
    (balanced : c.view.Balanced) (spared : c.spares f = true) :
    c'.dead = true ∨ c'.view.Balanced := by
  have stays {i : Slot} {s : Stream} (view : c'.view = (c.set i s).view)
      (inUse : s.inUse = (c.streams i).inUse) (window : s.recvWindow = (c.streams i).recvWindow)
      (held : s.held = (c.streams i).held) : c'.view.Balanced := by
    rw [view, view_set]
    refine balanced.move (fun used => ?_) rfl ?_
    · change s.recvWindow + (s.held : ℤ) = initWindow
      rw [window, held]
      exact balanced.slots i (inUse.symm.trans used)
    · change c.connRecvWindow + (s.held : ℤ) = c.connRecvWindow + ((c.streams i).held : ℤ)
      rw [held]
  -- A stream that ends between two messages.
  have ends {i : Slot} {status : ℕ}
      (rest : (c.streams i).state = .done ∨ (c.streams i).pending = 0) :
      Stream.held { c.streams i with
        state := .done, status := status, err := none, rasmBuf := [] } = (c.streams i).held := by
    unfold Stream.held
    rcases rest with done | none
    · rw [if_pos done]
      rfl
    · rw [none, ite_self]
      rfl
  cases move with
  | still _ _ _ view | drained _ _ _ _ _ view | ignored _ _ _ _ _ view =>
    exact .inr (view ▸ balanced)
  | data i octets type found going window window' unpadded conn =>
    obtain ⟨plain, whole, last⟩ := spares_data type found going spared
    obtain rfl := Option.some.inj (unpadded.symm.trans plain)
    rw [conn]
    exact .inr (data_balanced sound balanced (streamFind_spec found).1 going whole last)
  | concluded i fields h status block clean scanned conclusion view =>
    refine .inr (stays view rfl rfl (ends ?_))
    have found := block.found
    unfold spares at spared
    rcases block.type with type | type <;> rw [type, found] at spared <;> simpa using spared
  | responded i fields h block sent scanned conclusion view =>
    refine .inr (stays view rfl rfl ?_)
    unfold Stream.held
    rw [sent]
    rfl
  | cancelled i type found going view =>
    refine .inr (stays view rfl rfl (ends (.inr ?_)))
    unfold spares at spared
    rw [type, found] at spared
    simpa [going] using spared
  | destroyed i type found done conn =>
    have empty : (c.streams i).queue = [] := by
      unfold spares at spared
      rw [type, found] at spared
      simpa [done] using spared
    rw [conn]
    refine .inr ?_
    rw [Client.streamDestroy_view]
    refine balanced.empty (fun used => ?_) (held_of_idle rfl) ?_ rfl rfl
    · cases used
    show (c.streams i).held = 0
    unfold Stream.held Stream.queued
    rw [empty, if_pos done]
    exact ite_self 0
  | goaway type dead => exact .inl dead

end Conn

/-! ## Credit for the whole connection -/

/-- The octets that a frame takes off the windows. -/
def Frame.octets (f : Frame) : ℕ := if f.type = .data then f.payload.length else 0

/-- The window, without the credit that was written. -/
def View.ledger (v : View) : ℤ := v.window - v.granted

namespace Conn

/-- Data of a stream that was given up is empty, and for a call that waits for its
response credit can be written. -/
def ledgers (c : Conn) (f : Frame) : Bool :=
  if f.type = .data then
    (c.streamFind f.sid).all fun i =>
      if (c.streams i).state = .done then f.payload.isEmpty
      else decide ((c.streams i).type ≠ .unary) || c.canWrite 2
  else true

/-- **A frame is taken off the window**, unless the connection dies. -/
theorem FrameMove.ledger {c c' : Conn} {f : Frame} (move : c.FrameMove f c')
    (sound : c.view.Sound) (ledgered : c.ledgers f = true) :
    c'.dead = true ∨ c'.view.ledger = c.view.ledger - f.octets := by
  have stays (other : f.type ≠ .data) (same : c'.view.ledger = c.view.ledger) :
      c'.dead = true ∨ c'.view.ledger = c.view.ledger - f.octets := by
    rw [same, Frame.octets, if_neg other]
    exact .inr (Int.sub_zero _).symm
  have rst (type : f.type = .rstStream) : f.type ≠ .data := by
    rw [type]
    exact nofun
  cases move with
  | still other quiet lost view => exact stays other (by rw [view])
  | drained i type found done error conn =>
    have empty : f.payload = [] := by
      unfold ledgers at ledgered
      rw [if_pos type, found] at ledgered
      simpa [done] using ledgered
    rw [conn, Frame.octets, if_pos type, empty]
    exact .inr (Int.sub_zero _).symm
  | data i octets type found going window window' unpadded conn =>
    have able : c.Creditable i := by
      intro unary
      unfold ledgers at ledgered
      rw [if_pos type, found] at ledgered
      simpa [going, unary] using ledgered
    obtain ⟨rest, at'⟩ := (sound.slots i).of_received.at' (streamFind_spec found).1 going
    have books := data_books sound at' (streamFind_spec found).1 going (length_unpad_le unpadded)
      f.flags
    have ledger := books.ledger able
    rw [← conn] at ledger
    rw [Frame.octets, if_pos type]
    refine .inr ?_
    change c'.connRecvWindow - (granted c'.written : ℤ) =
      c.connRecvWindow - (granted c.written : ℤ) - (f.payload.length : ℤ)
    omega
  | ignored i fields header done error view => exact stays header.ne_data (by rw [view])
  | concluded _ _ _ _ header _ _ _ view | responded _ _ _ header _ _ _ view =>
    exact stays header.ne_data (by rw [view, view_set]; rfl)
  | cancelled i type found going view => exact stays (rst type) (by rw [view, view_set]; rfl)
  | destroyed i type found done conn => exact stays (rst type) (by rw [conn]; rfl)
  | goaway type dead => exact .inl dead

end Conn

/-! ## Steps -/

namespace Client

/-- The octets that a step takes off the windows. -/
def octets : Label → ℕ
  | .frame f => f.octets
  | _ => 0

/-- The condition for the window of the client to be that of the server: no data comes
for a stream that was given up, and credit can be written when a message is
consumed. -/
def ledgered (c : Client) : Label → Bool
  | .frame f => c.conn.ledgers f
  | .check =>
    match c.call with
    | .next i => (c.conn.streams i).queue.isEmpty || c.conn.canWrite 2
    | _ => true
  | _ => true

/-- A new stream does not take the place of one with messages in its queue. -/
def allocSparing (c : Client) (type : StreamType) : Bool :=
  (c.conn.streamAlloc type).all fun found => (c.conn.streams found.1).held == 0

/-- The condition for all credit to come back: a step drops no octet. -/
def sparing (c : Client) : Label → Bool
  | .frame f => c.conn.spares f
  | .unary _ _ _ => c.allocSparing .unary
  | .streamOpen _ _ => c.allocSparing .subscribe
  | label => (c.frees label).all fun i => (c.conn.streams i).held == 0

variable {old new : Client} {label : Label}

/-- **A step is taken off the window.** -/
theorem Move.ledger (move : Move old label new) (sound : old.conn.view.Sound) (live : new.Live)
    (ledgered : old.ledgered label = true) :
    new.conn.view.ledger = old.conn.view.ledger - octets label := by
  have stays {label : Label} {new : Client} (quiet : ∀ f, label ≠ .frame f)
      (same : new.conn.view.ledger = old.conn.view.ledger) :
      new.conn.view.ledger = old.conn.view.ledger - octets label := by
    have none : octets label = 0 := by
      unfold octets
      split
      · rename_i f
        exact absurd rfl (quiet f)
      · rfl
    rw [same, none]
    exact (Int.sub_zero _).symm
  cases move with
  | still quiet view => exact stays quiet (by rw [view])
  | frame processed =>
    exact ((Conn.processOneFrame_move processed).ledger sound ledgered).resolve_left
      (by rw [live.1]; exact nofun)
  | failed dead => exact absurd (dead.symm.trans live.1) Bool.noConfusion
  | freed frees idle empty id view =>
    refine stays ?_ (by rw [view]; rfl)
    rintro f rfl
    cases frees
  | started starts _ view | unsent starts _ _ _ _ view =>
    exact stays (quiet_of_starts starts) (by rw [view]; rfl)
  | @took i m rest call queue =>
    have able : old.conn.canWrite 2 = true := by
      unfold Client.ledgered at ledgered
      rw [call] at ledgered
      simpa [queue] using ledgered
    obtain ⟨g, view, wrote⟩ := takeMessage_view sound queue
    refine stays (fun f => nofun) ?_
    rw [view, wrote able]
    change old.conn.connRecvWindow + (m.length + 5 : ℕ) -
      ((granted old.conn.written + (m.length + 5) : ℕ) : ℤ) =
        old.conn.connRecvWindow - (granted old.conn.written : ℤ)
    omega
  | closed call => exact absurd call live.2

/-- The condition for the slot of a new stream. -/
theorem held_of_allocSparing {type : StreamType} {resp : Option ℕ} {i : Slot} {c : Conn}
    (starts : Starts label type resp) (alloc : old.conn.streamAlloc type = some (i, c))
    (spared : old.sparing label = true) : (old.conn.streams i).held = 0 := by
  have spares : old.allocSparing type = true := by
    cases label with
    | unary | streamOpen =>
      obtain ⟨rfl, -⟩ := starts
      exact spared
    | _ => exact starts.elim
  unfold allocSparing at spares
  rw [alloc] at spares
  simpa using spares

/-- **A step that drops nothing** keeps the balance. -/
theorem Move.balanced (move : Move old label new) (sound : old.conn.view.Sound) (live : new.Live)
    (balanced : old.conn.view.Balanced) (spared : old.sparing label = true) :
    new.conn.view.Balanced := by
  cases move with
  | still quiet view => exact view ▸ balanced
  | frame processed =>
    exact ((Conn.processOneFrame_move processed).balanced sound balanced spared).resolve_left
      (by rw [live.1]; exact nofun)
  | failed dead => exact absurd (dead.symm.trans live.1) Bool.noConfusion
  | @freed label _ i s frees idle empty id view =>
    have none : (old.conn.streams i).held = 0 := by
      have spares : (old.frees label).all (fun i => (old.conn.streams i).held == 0) = true := by
        cases label with
        | streamClose | check | expire => exact spared
        | _ => cases frees
      rw [frees] at spares
      simpa using spares
    rw [view]
    exact balanced.empty (fun used => absurd (used.symm.trans idle) Bool.noConfusion)
      (held_of_idle idle) none rfl rfl
  | started starts alloc view =>
    rw [view]
    exact balanced.empty (fun _ => rfl) rfl (held_of_allocSparing starts alloc spared) rfl rfl
  | unsent starts alloc idle empty id view =>
    rw [view]
    exact balanced.empty (fun used => absurd (used.symm.trans idle) Bool.noConfusion)
      (held_of_idle idle) (held_of_allocSparing starts alloc spared) rfl rfl
  | @took i m rest call queue =>
    obtain ⟨g, view, -⟩ := takeMessage_view sound queue
    have inUse := inUse_of_queue (sound.slots i).of_received queue
    have held := held_taken queue inUse
    have before := balanced.slots i inUse
    change (old.conn.streams i).recvWindow + ((old.conn.streams i).held : ℤ) = initWindow at before
    rw [view]
    refine balanced.move (fun _ => ?_) rfl ?_
    · change (old.conn.streams i).recvWindow + (m.length + 5 : ℕ) +
        (((old.conn.streams i).taken m rest).held : ℤ) = initWindow
      omega
    change old.conn.connRecvWindow + (m.length + 5 : ℕ) +
      (((old.conn.streams i).taken m rest).held : ℤ) =
        old.conn.connRecvWindow + ((old.conn.streams i).held : ℤ)
    omega
  | closed call => exact absurd call live.2

end Client

/-! ## Runs -/

/-- The clients, with the octets of data that they have received. -/
def receiving : Machine (Machine.Recorded Client ℕ) Client.Label :=
  clients.recording 0 fun received _ label _ => received + Client.octets label

/-- Every stream is finished, and every complete message was consumed. -/
def Conn.Settled (c : Conn) : Prop :=
  ∀ i, (c.streams i).inUse = true → (c.streams i).state = .done ∧ (c.streams i).queue = []

instance (c : Conn) : Decidable c.Settled := inferInstanceAs (Decidable (∀ _, _))

theorem Conn.held_of_settled {c : Conn} (settled : c.Settled) : c.view.held = 0 := by
  refine Finset.sum_eq_zero fun i _ => ?_
  show (c.streams i).held = 0
  unfold Stream.held Stream.queued
  split
  · rename_i inUse
    obtain ⟨done, empty⟩ := settled i inUse
    rw [if_pos done, empty]
    rfl
  · rfl

theorem balanced_connecting (ns : Octets) : (Client.connecting ns).conn.view.Balanced := by
  have nothing : (Client.connecting ns).conn.view.held = 0 := Conn.held_of_settled fun i => nofun
  refine ⟨fun i => nofun, ?_⟩
  rfl

/-- A property of live clients that holds at the start and is kept by the steps that
meet a condition holds in every run whose steps all meet it. -/
theorem receiving_induct (guard : Client → Client.Label → Prop)
    [∀ c label, Decidable (guard c label)] {P : Client → ℕ → Prop}
    (start : ∀ ns, P (.connecting ns) 0)
    (preserved : ∀ {old new : Client} {label : Client.Label} (n : ℕ), guard old label →
      Client.Move old label new → old.conn.view.Sound → new.Live → P old n →
        P new (n + Client.octets label))
    {r : Machine.Recorded Client ℕ}
    (reachable : (receiving.restrict fun r label => guard r.state label).Reachable r)
    (live : r.state.Live) : P r.state r.record := by
  refine reachable.recording_induct (P := fun c n => c.Live → P c n) ?_ ?_ live
  · rintro _ ⟨ns, rfl⟩ _
    exact start ns
  intro old n label new before met step holds alive
  have lived := Client.live_of_step step alive
  exact preserved _ met (Client.step_move step) (Client.sound_of_live before lived) alive
    (holds lived)

/-- **The windows agree.** In a run in which data of streams that were given up is empty and credit
can be written when it is due, the window of the client is that of a server that counts what it
sends and adds the credit that was written. If moreover no step drops an octet, all credit has come
back when every stream is finished and every message consumed. -/
theorem receive_windows_agree {r : Machine.Recorded Client ℕ} (live : r.state.Live) :
    ((receiving.restrict fun r label => r.state.ledgered label = true).Reachable r →
      r.state.conn.connRecvWindow = 65535 - r.record + granted r.state.conn.written) ∧
    ((receiving.restrict fun r label =>
        r.state.ledgered label = true ∧ r.state.sparing label = true).Reachable r →
      r.state.conn.Settled → r.state.conn.connRecvWindow = 65535) := by
  constructor
  · intro reachable
    have ledger : r.state.conn.view.ledger = 65535 - r.record := by
      refine receiving_induct (fun c label => c.ledgered label = true)
        (P := fun c n => c.conn.view.ledger = 65535 - n) (fun ns => rfl) ?_ reachable live
      intro old new label n met move sound alive before
      rw [move.ledger sound alive met, before]
      push_cast
      omega
    change r.state.conn.connRecvWindow - (granted r.state.conn.written : ℤ) = _ at ledger
    omega
  intro reachable settled
  have balanced : r.state.conn.view.Balanced := by
    refine receiving_induct (fun c label => c.ledgered label = true ∧ c.sparing label = true)
      (P := fun c _ => c.conn.view.Balanced) balanced_connecting ?_ reachable live
    intro old new label n met move sound alive before
    exact move.balanced sound alive before met.2
  have window := balanced.window
  rw [Conn.held_of_settled settled] at window
  change r.state.conn.connRecvWindow + ((0 : ℕ) : ℤ) = 65535 at window
  omega

def responseHeaders : Frame :=
  ⟨.headers, flagEndHeaders, 1, 0x88 :: 0x0f :: 0x10 :: 16 :: ascii "application/grpc"⟩

/-- Trailers that end the first stream with status 0. -/
def responseTrailers : Frame :=
  ⟨.headers, flagEndHeaders ||| flagEndStream, 1, 0 :: 11 :: ascii "grpc-status" ++ [1, 0x30]⟩

/-- A unary call up to its response, with the DATA frame in the middle. -/
def answeredCall (data : Frame) : List Client.Label :=
  [.frame ⟨.settings, 0, 0, []⟩, .check, .unary (ascii "/v/A") [] none, .frame responseHeaders,
    .frame data, .frame responseTrailers, .check]

theorem receive_windows_agree_answeredCall :
    ∃ r, (receiving.restrict fun r label =>
        r.state.ledgered label = true ∧ r.state.sparing label = true).Reachable r ∧
      r.state.Live ∧ r.state.conn.Settled ∧ r.record = 6 ∧
      r.state.conn.connRecvWindow = 65535 - r.record + granted r.state.conn.written ∧
      r.state.conn.connRecvWindow = 65535 := by
  have run : (((receiving.restrict fun r label =>
      r.state.ledgered label = true ∧ r.state.sparing label = true).exec
        ⟨.connecting (ascii "k8s"), 0⟩ (answeredCall ⟨.data, 0, 1, [0, 0, 0, 0, 1, 7]⟩)).any
          fun r =>
      decide (r.state.Live ∧ r.state.conn.Settled ∧ r.record = 6)) = true := by decide +kernel
  obtain ⟨r, reachable, facts⟩ := Machine.Reachable.of_any run ⟨⟨_, rfl⟩, rfl⟩
  obtain ⟨live, settled, received⟩ := of_decide_eq_true facts
  exact ⟨r, reachable, live, settled, received,
    (receive_windows_agree live).1 (reachable.restrict_mono fun _ _ met => met.1),
    (receive_windows_agree live).2 reachable settled⟩

/-- A subscription that is given up, as its first message says that it is compressed,
with an octet of data behind it. -/
def dataBehindAbort : List Client.Label :=
  [.frame ⟨.settings, 0, 0, []⟩, .check, .streamOpen (ascii "/v/A") [],
    .frame responseHeaders, .check, .streamNext 0, .frame ⟨.data, 0, 1, [1, 0, 0, 0, 0]⟩,
    .frame ⟨.data, 0, 1, [0]⟩]

/-- **The windows can disagree.** An octet of data for a stream that was given up is not
counted. And a response in a padded frame costs two octets of the window for good. -/
theorem receive_windows_disagree :
    (∃ r, receiving.Reachable r ∧ r.state.Live ∧
      r.state.conn.connRecvWindow ≠ 65535 - r.record + granted r.state.conn.written) ∧
    (∃ r, receiving.Reachable r ∧ r.state.Live ∧ r.state.conn.Settled ∧
      r.state.conn.connRecvWindow = 65533) := by
  have run : ((receiving.exec ⟨.connecting (ascii "k8s"), 0⟩ dataBehindAbort).any fun r =>
      decide (r.state.Live ∧ r.state.conn.connRecvWindow ≠
        65535 - (r.record : ℤ) + granted r.state.conn.written)) = true := by decide +kernel
  have run' : ((receiving.exec ⟨.connecting (ascii "k8s"), 0⟩ (answeredCall
      ⟨.data, flagPadded, 1, [1, 0, 0, 0, 0, 1, 7, 0]⟩)).any fun r =>
      decide (r.state.Live ∧ r.state.conn.Settled ∧ r.state.conn.connRecvWindow = 65533)) =
        true := by
    decide +kernel
  obtain ⟨r, reachable, facts⟩ := Machine.Reachable.of_any run ⟨⟨_, rfl⟩, rfl⟩
  obtain ⟨r', reachable', facts'⟩ := Machine.Reachable.of_any run' ⟨⟨_, rfl⟩, rfl⟩
  exact ⟨⟨r, reachable, of_decide_eq_true facts⟩, r', reachable', of_decide_eq_true facts'⟩

end Strimserver.H2c
