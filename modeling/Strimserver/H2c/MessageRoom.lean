import Strimserver.H2c.Windows

/-!
# Messages that fit in the windows

A client gives credit for a message when it is consumed, so the windows have to hold
the whole of it. `Stream.committed` is what a slot will hold once the message that it
has in part is complete. While nothing is dropped and all slots together commit to no
more than the window at the start, a server can always send the next octet of a
message that it has begun. A message that is longer than that is accepted as well, and
stalls for ever.
-/

namespace Strimserver.H2c

open Hpack Library List

/-! ## What a slot commits to -/

namespace Stream

/-- The length of the message that a slot has in part, as far as it is known. -/
def demand (s : Stream) : ℕ := Prefixed.demand 5 s.accepts s.part

/-- What is held for a slot when the message that it has in part is complete. -/
def committed (s : Stream) : ℕ :=
  if s.inUse then (if s.state = .done then 0 else s.demand) + s.queued else 0

/-- The same, behind a DATA frame. -/
def committedBehind (s : Stream) (data : Octets) : ℕ :=
  s.queued + ((s.toQueue (s.part ++ data)).map fun m => m.length + 5).sum +
    Prefixed.demand 5 s.accepts (Prefixed.remainder 5 s.accepts (s.part ++ data))

def Partial (s : Stream) : Prop := s.rasmBody = true ∨ (0 < s.rasmHdr.length ∧ s.rasmHdr.length < 5)

variable {s : Stream}

theorem At.demand_eq {rest : Octets} (at' : s.At rest) :
    s.demand = Prefixed.demand 5 s.accepts rest := by
  unfold demand part
  rcases at' with ⟨flag, header, short⟩ | ⟨inBody, short⟩
  · rw [flag, if_neg Bool.false_ne_true, header]
  have long := inBody.got
  have five : s.rasmHdr.length = 5 := by
    rw [inBody.header, length_take]
    omega
  have split : rest = s.rasmHdr ++ rest.drop 5 := by rw [inBody.header, take_append_drop]
  rw [inBody.flag, if_pos rfl, Prefixed.demand_of_header (by decide) five]
  conv_rhs => rw [split, Prefixed.demand_of_header (by decide) five]

theorem toQueue_of_alike {octets octets' : Octets}
    (alike : Prefixed.Alike 5 s.accepts octets octets') :
    (s.toQueue octets').map (fun m => m.length + 5) =
      (s.toQueue octets).map fun m => m.length + 5 := by
  unfold toQueue
  split
  · rfl
  · have lengths := congrArg (List.map (· + 5)) (alike.lengths_eq (by decide))
    rwa [map_map, map_map] at lengths

theorem held_le_committed (sound : s.Sound) : s.held ≤ s.committed := by
  unfold held committed
  split
  · rename_i inUse
    split_ifs with going
    · exact Nat.le_refl _
    obtain ⟨rest, at'⟩ := sound.at' inUse going
    rw [at'.demand_eq, ← at'.length_eq]
    by_cases begun : rest = []
    · rw [begun, length_nil]
      omega
    · have less := Prefixed.length_lt_demand at'.progress_eq_more begun
      omega
  · exact Nat.le_refl _

/-- If it has a part of a message, then it holds less. -/
theorem held_lt_committed (sound : s.Sound) (inUse : s.inUse = true) (going : s.state ≠ .done)
    (part : s.Partial) : s.held < s.committed := by
  obtain ⟨rest, at'⟩ := sound.at' inUse going
  have begun : rest ≠ [] := by
    rw [← length_pos_iff, at'.length_eq]
    unfold pending
    rcases part with body | ⟨header, -⟩
    · rw [if_pos body]
      omega
    · split <;> omega
  have less := Prefixed.length_lt_demand at'.progress_eq_more begun
  unfold held committed
  rw [if_pos inUse, if_pos inUse, if_neg going, if_neg going, at'.demand_eq, ← at'.length_eq]
  omega

end Stream

/-! ## All slots -/

namespace View

def committed (v : View) : ℕ := ∑ i, (v.streams i).committed

/-- A new value for a slot that does not commit to more. -/
theorem committed_le_of_set {v v' : View} {i : Slot} {s : Stream}
    (streams : v'.streams = (v.set i s).streams) (less : s.committed ≤ (v.streams i).committed) :
    v'.committed ≤ v.committed := by
  have total := v.sum_set i s Stream.committed
  unfold committed
  rw [streams]
  omega

theorem held_lt_committed {v : View} (sound : v.Sound) {i : Slot}
    (inUse : (v.streams i).inUse = true) (going : (v.streams i).state ≠ .done)
    (part : (v.streams i).Partial) : v.held < v.committed :=
  Finset.sum_lt_sum (fun j _ => Stream.held_le_committed (sound.slots j))
    ⟨i, Finset.mem_univ i, Stream.held_lt_committed (sound.slots i) inUse going part⟩

end View

namespace Conn

/-- All slots together commit to no more than the window at the start, also behind a
DATA frame. -/
def roomy (c : Conn) (f : Frame) : Bool :=
  if f.type = .data then
    (c.streamFind f.sid).all fun i =>
      decide ((c.streams i).state = .done) ||
        decide (∑ j ∈ Finset.univ.erase i, (c.streams j).committed +
          (c.streams i).committedBehind f.payload ≤ 65535)
  else true

theorem data_committed {c : Conn} {f : Frame} {i : Slot} (sound : c.view.Sound)
    (type : f.type = .data) (found : c.streamFind f.sid = some i)
    (going : (c.streams i).state ≠ .done) (spared : c.spares f = true) (roomy : c.roomy f = true) :
    ((c.fed i f.payload.length f.payload).endCheck i f.flags).view.committed ≤ 65535 := by
  have inUse := (streamFind_spec found).1
  obtain ⟨-, whole, last⟩ := spares_data type found going spared
  obtain ⟨rest, at'⟩ := (sound.slots i).of_received.at' inUse going
  have fed := data_fed sound at' inUse going (Nat.le_refl f.payload.length) whole
  have ends : BooksEnd c i _ _ _ _ (c.fed i f.payload.length f.payload) :=
    ⟨fed.books.toKept, .inl ⟨_, fed.books⟩⟩
  have room : ∑ j ∈ Finset.univ.erase i, (c.streams j).committed +
      (c.streams i).committedBehind f.payload ≤ 65535 := by
    unfold Conn.roomy at roomy
    rw [if_pos type, found] at roomy
    simpa [going] using roomy
  rw [endCheck_of_fed fed fun ends =>
    ((at'.alike f.payload).remainder_eq_nil_iff (by decide)).mp (last ends)]
  unfold View.committed
  rw [ends.view_streams, ← Finset.add_sum_erase _ _ (Finset.mem_univ i), View.set_streams]
  have others : ∑ j ∈ Finset.univ.erase i,
      ((c.view.set i
        ((c.fed i f.payload.length f.payload).streams i).received).streams j).committed =
      ∑ j ∈ Finset.univ.erase i, (c.streams j).committed :=
    Finset.sum_congr rfl fun j mem => by
      rw [View.set_streams_of_ne _ (Finset.ne_of_mem_erase mem)]
      rfl
  have here : Stream.committed ((c.fed i f.payload.length f.payload).streams i).received =
      (c.streams i).committedBehind f.payload := by
    have alike := at'.alike f.payload
    have inUse' := fed.books.inUse.trans inUse
    have going' := fed.books.state ▸ going
    have demand : ((c.fed i f.payload.length f.payload).streams i).demand =
        Prefixed.demand 5 (c.streams i).accepts
          (Prefixed.remainder 5 (c.streams i).accepts ((c.streams i).part ++ f.payload)) := by
      rw [alike.demand_eq (by decide), fed.books.at'.demand_eq, fed.accepts]
    show Stream.committed ((c.fed i f.payload.length f.payload).streams i) = _
    unfold Stream.committed Stream.committedBehind Stream.queued
    rw [if_pos inUse', if_neg going', demand, fed.queue, map_append, sum_append,
      Stream.toQueue_of_alike alike]
    omega
  rw [others, here]
  omega

/-- **A frame leaves room** for the messages that are begun, unless the connection
dies. -/
theorem FrameMove.committed {c c' : Conn} {f : Frame} (move : c.FrameMove f c')
    (sound : c.view.Sound) (before : c.view.committed ≤ 65535) (spared : c.spares f = true)
    (roomy : c.roomy f = true) : c'.dead = true ∨ c'.view.committed ≤ 65535 := by
  have stays {i : Slot} {s : Stream} (view : c'.view = (c.set i s).view)
      (less : s.committed ≤ (c.streams i).committed) : c'.view.committed ≤ 65535 := by
    rw [view, view_set]
    exact Nat.le_trans (View.committed_le_of_set rfl less) before
  have ends {i : Slot} (status : ℕ) : Stream.committed { c.streams i with
      state := .done, status := status, err := none, rasmBuf := [] } ≤
      (c.streams i).committed := by
    unfold Stream.committed
    split
    · rw [if_pos rfl]
      exact Nat.add_le_add_right (Nat.zero_le _) _
    · exact Nat.zero_le _
  cases move with
  | still _ _ _ view | drained _ _ _ _ _ view | ignored _ _ _ _ _ view => exact .inr (view ▸ before)
  | data i octets type found going window window' unpadded conn =>
    obtain ⟨plain, -⟩ := spares_data type found going spared
    obtain rfl := Option.some.inj (unpadded.symm.trans plain)
    rw [conn]
    exact .inr (data_committed sound type found going spared roomy)
  | concluded i fields h status block clean scanned conclusion view =>
    exact .inr (stays view (ends status))
  | responded i fields h block sent scanned conclusion view =>
    refine .inr (stays view (Nat.le_of_eq ?_))
    unfold Stream.committed
    rw [sent]
    rfl
  | cancelled i type found going view => exact .inr (stays view (ends _))
  | destroyed i type found done conn =>
    rw [conn, Client.streamDestroy_view]
    exact .inr (Nat.le_trans (View.committed_le_of_set rfl (Nat.zero_le _)) before)
  | goaway type dead => exact .inl dead

end Conn

/-! ## Steps -/

namespace Client

/-- The condition for messages to be received: they fit in the windows. -/
def roomy (c : Client) : Label → Bool
  | .frame f => c.conn.roomy f
  | _ => true

variable {old new : Client} {label : Label}

/-- **A step leaves room** for the messages that are begun. -/
theorem Move.committed (move : Move old label new) (sound : old.conn.view.Sound) (live : new.Live)
    (before : old.conn.view.committed ≤ 65535) (spared : old.sparing label = true)
    (roomy : old.roomy label = true) : new.conn.view.committed ≤ 65535 := by
  have idle {s : Stream} (idle : s.inUse = false) : s.committed = 0 := by
    unfold Stream.committed
    rw [idle]
    rfl
  have stays {v : View} {i : Slot} {s : Stream}
    (streams : v.streams = (old.conn.view.set i s).streams)
      (less : s.committed ≤ (old.conn.streams i).committed) : v.committed ≤ 65535 :=
    Nat.le_trans (View.committed_le_of_set streams less) before
  cases move with
  | still quiet view => exact view ▸ before
  | frame processed =>
    exact ((Conn.processOneFrame_move processed).committed sound before spared roomy).resolve_left
      (by rw [live.1]; exact nofun)
  | failed dead => exact absurd (dead.symm.trans live.1) Bool.noConfusion
  | freed _ unused _ _ view | unsent _ _ unused _ _ view =>
    rw [view]
    refine stays rfl ?_
    rw [idle unused]
    exact Nat.zero_le _
  | started starts alloc view =>
    rw [view]
    refine stays rfl ?_
    exact Nat.zero_le _
  | @took i m rest call queue =>
    obtain ⟨g, view, -⟩ := takeMessage_view sound queue
    rw [view]
    refine stays rfl ?_
    show ((old.conn.streams i).taken m rest).committed ≤ _
    unfold Stream.committed Stream.taken Stream.queued
    split
    · rw [queue, map_cons, sum_cons]
      exact Nat.add_le_add_left (Nat.le_add_left _ _) _
    · exact Nat.zero_le _
  | closed call => exact absurd call live.2

end Client

/-! ## Runs -/

/-- **No deadlock on a message.** In a run in which no step drops an octet and the begun messages
fit the window at the start together, both windows are positive whenever a message is partially
received. -/
theorem partial_message_windows_positive {c : Client}
    (reachable : (clients.restrict fun c label =>
      c.sparing label = true ∧ c.roomy label = true).Reachable c)
    (live : c.Live) {i : Slot} (inUse : (c.conn.streams i).inUse = true)
    (going : (c.conn.streams i).state ≠ .done) (part : (c.conn.streams i).Partial) :
    0 < (c.conn.streams i).recvWindow ∧ 0 < c.conn.connRecvWindow := by
  have sound := Client.sound_of_live reachable.of_restrict live
  obtain ⟨balanced, room⟩ : c.conn.view.Balanced ∧ c.conn.view.committed ≤ 65535 := by
    refine Client.live_induct (P := fun c => c.conn.view.Balanced ∧ c.conn.view.committed ≤ 65535)
      (fun ns => ⟨balanced_connecting ns, ?_⟩) ?_ reachable live
    · exact Nat.le_trans (Nat.le_of_eq (Finset.sum_eq_zero fun i _ => rfl)) (Nat.zero_le _)
    intro old new label met move sound alive before
    exact ⟨move.balanced sound alive before.1 met.1,
      move.committed sound alive before.2 met.1 met.2⟩
  have slot := balanced.slots i inUse
  have window := balanced.window
  change (c.conn.streams i).recvWindow + ((c.conn.streams i).held : ℤ) = 65535 at slot
  change c.conn.connRecvWindow + (c.conn.view.held : ℤ) = 65535 at window
  have less := View.held_lt_committed sound (i := i) inUse going part
  have single := c.conn.view.slot_held_le i
  change (c.conn.streams i).held ≤ c.conn.view.held at single
  constructor <;> omega

/-- A subscription that waits for the first message. -/
def waitingStream : List Client.Label :=
  [.frame ⟨.settings, 0, 0, []⟩, .check, .streamOpen (ascii "/v/A") [], .frame responseHeaders,
    .check, .streamNext 0]

instance (s : Stream) : Decidable s.Partial := inferInstanceAs (Decidable (_ ∨ _))

theorem partial_message_windows_positive_waitingStream :
    ∃ c, (clients.restrict fun c label =>
        c.sparing label = true ∧ c.roomy label = true).Reachable c ∧
      c.Live ∧ (c.conn.streams 0).Partial ∧
      0 < (c.conn.streams 0).recvWindow ∧ 0 < c.conn.connRecvWindow := by
  have run : (((clients.restrict fun c label => c.sparing label = true ∧ c.roomy label = true).exec
      (.connecting (ascii "k8s")) (waitingStream ++ [.frame ⟨.data, 0, 1, [0, 0, 0, 0, 2, 7]⟩])).any
      fun c => decide (c.Live ∧ (c.conn.streams 0).inUse = true ∧
        (c.conn.streams 0).state ≠ .done ∧ (c.conn.streams 0).Partial)) = true := by decide +kernel
  obtain ⟨c, reachable, facts⟩ := Machine.Reachable.of_any run ⟨_, rfl⟩
  obtain ⟨live, inUse, going, part⟩ := of_decide_eq_true facts
  exact ⟨c, reachable, live, part, partial_message_windows_positive reachable live inUse going part⟩

/-! ## A message that stalls -/

namespace Client

/-- A subscription that waits for a message with some octets of it received, and with
the same room in both windows. -/
structure Awaits (c : Client) (i : Slot) (sid : ℕ) (accept : Octets → Option ℕ) (rest : Octets)
    (w : ℤ) : Prop where
  reachable : clients.Reachable c
  live : c.Live
  call : c.call = .next i
  found : c.conn.streamFind sid = some i
  going : (c.conn.streams i).state ≠ .done
  accepts : (c.conn.streams i).accepts = accept
  at' : (c.conn.streams i).At rest
  takes : (c.conn.streams i).takes rest = true
  queue : (c.conn.streams i).queue = []
  stream : (c.conn.streams i).recvWindow = w
  conn : c.conn.connRecvWindow = w

variable {accept : Octets → Option ℕ} {rest : Octets}

theorem Awaits.more {c : Client} {i : Slot} {sid : ℕ} {w : ℤ}
    (awaits : Awaits c i sid accept rest w) (payload : Octets) (fits : payload.length ≤ w)
    (more : Prefixed.progress 5 accept (rest ++ payload) = .more) :
    ∃ c', Awaits c' i sid accept (rest ++ payload) (w - payload.length) := by
  have sound := sound_of_live awaits.reachable awaits.live
  have inUse := (Conn.streamFind_spec awaits.found).1
  have front := awaits.at'.progress_eq_more
  have front' : Prefixed.progress 5 (c.conn.streams i).accepts (rest ++ payload) = .more := by
    rw [awaits.accepts]
    exact more
  have whole : (c.conn.streams i).takes ((c.conn.streams i).part ++ payload) = true := by
    have takes := awaits.takes
    rw [Stream.takes, Prefixed.clean_of_more front, (Prefixed.messages_of_more front).1] at takes
    rw [Stream.takes_of_alike (awaits.at'.alike payload), Stream.takes,
      Prefixed.clean_of_more front', (Prefixed.messages_of_more front').1]
    exact takes
  have fed := Conn.data_fed sound awaits.at' inUse awaits.going (Nat.le_refl payload.length) whole
  have left := (Prefixed.messages_of_more front').2
  have queue := fed.queue
  rw [awaits.queue, Stream.toQueue_of_more front', nil_append] at queue
  have processed : c.conn.processOneFrame ⟨.data, 0, sid, payload⟩ =
      (c.conn.fed i payload.length payload, true) := by
    have before := awaits.stream
    have before' := awaits.conn
    show c.conn.handleDataFrame 0 sid payload = _
    unfold Conn.handleDataFrame
    rw [awaits.found]
    dsimp only
    rw [if_neg awaits.going, if_neg (by omega), show Conn.unpad 0 payload = some payload from rfl]
    exact if_neg fun ends => absurd ends.1 (by decide)
  have step : clients.step c (.frame ⟨.data, 0, sid, payload⟩) =
      some { c with conn := c.conn.fed i payload.length payload, batch := true } := by
    show (if polling c.call ∧ (!c.conn.dead || c.batch) then some (pollFrame c _) else none) = _
    rw [if_pos ⟨by rw [awaits.call]; rfl, by rw [awaits.live.1]; rfl⟩, pollFrame, processed]
  have kept : (c.conn.fed i payload.length payload).kept = c.conn.kept :=
    (Conn.steady_kept _).streamFeedData _ _ _ rfl
  have none : ∀ {s : Stream}, s.queue = [] → s.queued = 0 := fun empty => by
    unfold Stream.queued
    rw [empty]
    rfl
  have books := fed.books
  rw [left] at books
  have stream := books.stream
  have conn := books.conn
  unfold Conn.streamBook at stream
  unfold Conn.connBook at conn
  rw [none queue, none awaits.queue, length_append, length_nil] at stream conn
  refine ⟨_, awaits.reachable.step step, ⟨?_, awaits.live.2⟩, awaits.call, ?_, ?_, ?_, ?_, ?_,
    queue, ?_, ?_⟩
  · exact (congrArg Prod.fst kept).trans awaits.live.1
  · refine (Conn.streamFind_congr (fun j => ?_) sid).trans awaits.found
    by_cases same : j = i
    · rw [same]
      exact ⟨books.inUse, books.id⟩
    · rw [show _ = _ from books.others j same]
      exact ⟨rfl, rfl⟩
  · rw [show _ = _ from books.state]
    exact awaits.going
  · exact fed.accepts.trans awaits.accepts
  · exact books.at'
  · have takes := fed.takes
    rwa [left] at takes
  · have before := awaits.stream
    show ((c.conn.fed i payload.length payload).streams i).recvWindow = _
    omega
  have before := awaits.conn
  show (c.conn.fed i payload.length payload).connRecvWindow = _
  omega

/-- Several frames, none of which completes the message. -/
theorem Awaits.frames {i : Slot} {sid : ℕ} (payloads : List Octets) {c : Client} {w : ℤ}
    (awaits : Awaits c i sid accept rest w) (fits : payloads.flatten.length ≤ w)
    (more : ∀ octets, octets <+: rest ++ payloads.flatten →
      Prefixed.progress 5 accept octets = .more) :
    ∃ c', Awaits c' i sid accept (rest ++ payloads.flatten) (w - payloads.flatten.length) := by
  induction payloads generalizing c rest w with
  | nil => exact ⟨c, by simpa using awaits⟩
  | cons payload payloads ih =>
    rw [flatten_cons, length_append] at fits
    rw [flatten_cons, ← append_assoc] at more
    obtain ⟨c', awaits'⟩ := awaits.more payload (by push_cast at fits; omega)
      (more _ (prefix_append ..))
    obtain ⟨c'', awaits''⟩ := ih awaits' (by push_cast at fits ⊢; omega) more
    refine ⟨c'', ?_⟩
    rw [flatten_cons, ← append_assoc, length_append]
    convert awaits'' using 1
    omega

end Client

/-- **A message can stall.** A subscription gets a message of 65531 octets in frames of at most
16384 octets, within the windows. The client waits in `h2c_stream_next` with an empty queue. When
all but one octet is received both windows are used up. -/
theorem partial_message_stalls :
    ∃ c, clients.Reachable c ∧ c.Live ∧ c.call = .next 0 ∧ (c.conn.streams 0).inUse = true ∧
      (c.conn.streams 0).state ≠ .done ∧ (c.conn.streams 0).queue = [] ∧
      (c.conn.streams 0).Partial ∧
      (c.conn.streams 0).accepts [0, 0, 0, 0xff, 0xfb] = some 65531 ∧
      (c.conn.streams 0).recvWindow = 0 ∧ c.conn.connRecvWindow = 0 := by
  have run : ((clients.exec (.connecting (ascii "k8s")) waitingStream).any fun c =>
      decide (c.Live ∧ c.call = .next 0 ∧ c.conn.streamFind 1 = some 0 ∧
        (c.conn.streams 0).state ≠ .done ∧
        (c.conn.streams 0).accepts [0, 0, 0, 0xff, 0xfb] = some 65531 ∧
        (c.conn.streams 0).rasmBody = false ∧ (c.conn.streams 0).rasmHdr = [] ∧
        (c.conn.streams 0).takes [] = true ∧ (c.conn.streams 0).queue = [] ∧
        (c.conn.streams 0).recvWindow = 65535 ∧ c.conn.connRecvWindow = 65535)) = true := by
    decide +kernel
  obtain ⟨c, reachable, facts⟩ := Machine.Reachable.of_any run ⟨_, rfl⟩
  obtain ⟨live, call, found, going, accepts, flag, header, takes, queue, stream, conn⟩ :=
    of_decide_eq_true facts
  have awaits : c.Awaits 0 1 (c.conn.streams 0).accepts [] 65535 :=
    ⟨reachable, live, call, found, going, rfl, .header flag header (by decide), takes,
      queue, stream,
      conn⟩
  let payloads : List Octets :=
    [[0, 0, 0, 0xff, 0xfb] ++ List.replicate 16379 0, List.replicate 16384 0,
      List.replicate 16384 0, List.replicate 16383 0]
  have octets : payloads.flatten = [0, 0, 0, 0xff, 0xfb] ++ List.replicate 65530 0 := by
    simp only [payloads, flatten_cons, flatten_nil, append_nil, append_assoc,
      replicate_append_replicate]
  have length : payloads.flatten.length = 65535 := by
    rw [octets, length_append, length_replicate]
    rfl
  obtain ⟨c', awaits'⟩ := awaits.frames payloads (by rw [length]; exact Int.le_refl _)
    fun part shorter => by
      rw [octets, nil_append] at shorter
      exact Prefixed.progress_of_prefix rfl accepts (by rw [length_replicate]; decide) shorter
  have body : (c'.conn.streams 0).rasmBody = true := by
    rcases awaits'.at' with ⟨-, -, short⟩ | ⟨inBody, -⟩
    · rw [nil_append, length] at short
      exact absurd short (by decide)
    · exact inBody.flag
  refine ⟨c', awaits'.reachable, awaits'.live, awaits'.call, (Conn.streamFind_spec awaits'.found).1,
    awaits'.going, awaits'.queue, .inl body, ?_, ?_, ?_⟩
  · rw [awaits'.accepts]
    exact accepts
  · rw [awaits'.stream, length]
    rfl
  · rw [awaits'.conn, length]
    rfl

end Strimserver.H2c
