import Strimserver.H2c.HeaderFraming
import Strimserver.H2c.LateFrames
import Strimserver.H2c.Reassembly

/-!
# What steps do to the receiving side

The results about the receiving side of a connection look at the slots, at the window
of the connection and at the credit that was written. `Conn.view` is that part of a
connection. Most of the code leaves it alone: requests are sent, settings and pings
are answered, credit for sending comes in.

`Conn.FrameMove` says once what a frame that is accepted does to the view, and
`Client.Move` what a step of a client does. Invariants are proved from these.
-/

namespace Strimserver.H2c

open Hpack Library Function Option Conn

/-! ## The receiving side -/

/-- A stream without its window for sending. -/
def Stream.received (s : Stream) : Stream := { s with sendWindow := 0 }

/-- The credit for the whole connection that a frame gives. -/
def Frame.increment (f : Frame) : ℕ :=
  match f.type, f.sid, f.payload with
  | .windowUpdate, 0, [w, x, y, z] => readBe32 w x y z
  | _, _, _ => 0

theorem Frame.increment_of_ne {f : Frame} (other : f.type ≠ .windowUpdate) : f.increment = 0 := by
  unfold increment
  split
  · contradiction
  · rfl

/-- The credit for the whole connection that frames give. -/
def granted (frames : List Frame) : ℕ := (frames.map Frame.increment).sum

/-- The receiving side of a connection. -/
structure View where
  streams : Slot → Stream
  window : ℤ
  granted : ℕ
  nextSid : ℕ

/-- A new value for a slot. -/
def View.set (v : View) (i : Slot) (s : Stream) : View :=
  { v with streams := Function.update v.streams i s }

@[simp] theorem View.set_streams (v : View) (i : Slot) (s : Stream) : (v.set i s).streams i = s :=
  update_self ..

variable {i : Slot}

theorem View.set_streams_of_ne (v : View) {j : Slot} (ne : j ≠ i) (s : Stream) :
    (v.set i s).streams j = v.streams j := update_of_ne ne ..

theorem View.set_set (v : View) (i : Slot) (s s' : Stream) : (v.set i s).set i s' = v.set i s' := by
  unfold View.set
  rw [update_idem]

namespace Conn

def view (c : Conn) : View :=
  ⟨fun i => (c.streams i).received, c.connRecvWindow, granted c.written, c.nextSid⟩

@[simp] theorem view_set (c : Conn) (i : Slot) (s : Stream) :
    (c.set i s).view = c.view.set i s.received := by
  unfold view set View.set
  congr 1
  funext j
  dsimp only
  by_cases same : j = i
  · subst same
    rw [update_self, update_self]
  · rw [update_of_ne same, update_of_ne same]

theorem received_of_view {c : Conn} {v : View} (view : c.view = v) (i : Slot) :
    (c.streams i).received = v.streams i := congrFun (congrArg View.streams view) i

/-- A new value for a slot that differs in its window for sending. -/
theorem view_set_of_received {c : Conn} {s : Stream} (same : s.received = (c.streams i).received) :
    (c.set i s).view = c.view := by
  rw [view_set, same, ← view_set, set_self]

/-! ## What leaves it alone -/

theorem granted_append (old : List Frame) (f : Frame) :
    granted (old ++ [f]) = granted old + f.increment := by
  unfold granted
  rw [List.map_append, List.sum_append, List.map_singleton, List.sum_singleton]

variable {f : Frame}

/-- What a frame does to the receiving side when it is written. -/
theorem frameWrite_granted (c : Conn) (f : Frame) : (c.frameWrite f).1.view =
      { c.view with granted := granted c.written +
          if (c.frameWrite f).2 = true then f.increment else 0 } := by
  unfold frameWrite
  split
  · rfl
  split
  · rfl
  · unfold view
    rw [granted_append]
    rfl
  unfold view
  rw [granted_append]
  rfl

/-- Writing a frame that gives no credit. -/
theorem frameWrite_view (c : Conn) (none : f.increment = 0) : (c.frameWrite f).1.view = c.view := by
  rw [frameWrite_granted, none, ite_self]
  rfl

@[simp] theorem frameWriteRst_view (c : Conn) (sid : ℕ) (code : H2Code) :
    (c.frameWriteRst sid code).view = c.view := frameWrite_view c rfl

theorem adjustable_view (c : Conn) : Adjustable fun c' => c'.view = c.view where
  enc _ view := view
  maxStreams _ view := view
  maxFrame _ _ view := view
  initial _ view := view
  conn _ view := view
  stream _ _ view := (view_set_of_received (by rfl)).trans view
  ready view := view
  ack view := (frameWrite_view _ rfl).trans view

theorem handlePing_view (c : Conn) (flags : UInt8) (payload : Octets) :
    (c.handlePing flags payload).1.view = c.view := by
  unfold handlePing
  split
  · rfl
  split
  · rfl
  · exact frameWrite_view c rfl

theorem completeStream_received (status : ℕ) (s : Stream) :
    (completeStream status s).received = completeStream status s.received := by
  unfold completeStream
  rw [show s.received.inUse = s.inUse from rfl, show s.received.state = s.state from rfl]
  split <;> rfl

variable {c c' : Conn}

/-! ## Data -/

/-- A DATA frame is taken off the windows. -/
def debit (c : Conn) (i : Slot) (n : ℕ) : Conn :=
  Conn.set { c with connRecvWindow := c.connRecvWindow - n } i
    { c.streams i with recvWindow := (c.streams i).recvWindow - n }

/-- The data of a frame is fed to its stream. -/
def fed (c : Conn) (i : Slot) (n : ℕ) (data : Octets) : Conn :=
  streamFeedData data.length (c.debit i n) i data

/-- The end of the stream in the middle of a message. -/
def endCheck (c : Conn) (i : Slot) (flags : UInt8) : Conn :=
  if has flags flagEndStream ∧ (c.streams i).rasmBody then c.streamAbort i .protocol .proto else c

/-! ## Frames -/

/-- What a header block did: the octets that were decoded, the fields, and the slot of
its stream. -/
structure Block (c : Conn) (f : Frame) (i : Slot) (fields : List Field) : Prop where
  type : f.type = .headers ∨ f.type = .continuation
  decoded : ∃ octets d, c.decoderInput f = some octets ∧
    hpackDecodeBlock c.dynDec octets maxFields = some (d, fields)
  found : c.streamFind (c.streamOf f) = some i

theorem Block.ne_data {fields : List Field} (block : c.Block f i fields) : f.type ≠ .data := by
  rcases block.type with type | type <;> rw [type] <;> exact nofun

/-- What a frame that is accepted does. -/
inductive FrameMove (c : Conn) (f : Frame) (c' : Conn) : Prop where
  /-- Nothing, for the receiving side. -/
  | still (other : f.type ≠ .data) (quiet : c.decoderInput f = none)
      (lost : f.type = .rstStream → c.streamFind f.sid = none) (view : c'.view = c.view)
  /-- Data of a stream that the client has given up. -/
  | drained (i : Slot) (type : f.type = .data) (found : c.streamFind f.sid = some i)
      (done : (c.streams i).state = .done) (error : (c.streams i).err.isSome = true) (conn : c' = c)
  /-- Data. -/
  | data (i : Slot) (octets : Octets) (type : f.type = .data) (found : c.streamFind f.sid = some i)
      (going : (c.streams i).state ≠ .done) (window : f.payload.length ≤ c.connRecvWindow)
      (window' : f.payload.length ≤ (c.streams i).recvWindow)
      (unpadded : unpad f.flags f.payload = some octets)
      (conn : c' = (c.fed i f.payload.length octets).endCheck i f.flags)
  /-- Headers of a stream that the client has given up. -/
  | ignored (i : Slot) (fields : List Field) (block : c.Block f i fields)
      (done : (c.streams i).state = .done) (error : (c.streams i).err.isSome = true)
      (view : c'.view = c.view)
  /-- Headers that end a stream. -/
  | concluded (i : Slot) (fields : List Field) (h : HeaderScan) (status : ℕ)
      (block : c.Block f i fields)
      (clean : (c.streams i).state = .done → (c.streams i).err = none)
      (scanned : scanFields fields = some h) (conclusion : h.conclusion = some status)
      (view : c'.view = (c.set i { c.streams i with
        state := .done, status, err := none, rasmBuf := [] }).view)
  /-- The headers of a response. -/
  | responded (i : Slot) (fields : List Field) (h : HeaderScan) (block : c.Block f i fields)
      (sent : (c.streams i).state = .sent) (scanned : scanFields fields = some h)
      (conclusion : h.conclusion = none)
      (view : c'.view = (c.set i { c.streams i with state := .headers, sawHeaders := true }).view)
  /-- The server resets a stream that goes on. -/
  | cancelled (i : Slot) (type : f.type = .rstStream) (found : c.streamFind f.sid = some i)
      (going : (c.streams i).state ≠ .done)
      (view : c'.view = (c.set i { c.streams i with
        state := .done, status := statusCancelled, err := none, rasmBuf := [] }).view)
  /-- The server resets a stream that is finished. -/
  | destroyed (i : Slot) (type : f.type = .rstStream) (found : c.streamFind f.sid = some i)
      (done : (c.streams i).state = .done) (conn : c' = c.streamDestroy i)
  /-- The server goes away. -/
  | goaway (type : f.type = .goaway) (dead : c'.dead = true)
      (view : c'.view = (c.completeAllStreams statusUnavailable).view)

theorem handleDataFrame_move (type : f.type = .data)
    (accepted : c.handleDataFrame f.flags f.sid f.payload = (c', true)) : c.FrameMove f c' := by
  unfold handleDataFrame at accepted
  split at accepted
  · cases accepted
  rename_i i found
  dsimp only at accepted
  split at accepted
  · rename_i done
    obtain ⟨rfl, error⟩ := Prod.mk.inj accepted
    exact .drained i type found done error rfl
  rename_i going
  split_ifs at accepted with windows
  · cases accepted
  obtain ⟨window, window'⟩ := not_or.mp windows
  split at accepted
  · cases accepted
  rename_i octets unpadded
  refine .data i octets type found going (Int.not_lt.mp window) (Int.not_lt.mp window') unpadded ?_
  unfold endCheck fed debit
  split_ifs at accepted with ends
  · rw [if_pos ends]
    exact (Prod.mk.inj accepted).1.symm
  rw [if_neg ends]
  exact (Prod.mk.inj accepted).1.symm

/-- What a header block that is accepted does. -/
theorem handleHeaderBlock_move {c'' : Conn} {octets : Octets} {flags : UInt8}
    (type : f.type = .headers ∨ f.type = .continuation)
    (input : c.decoderInput f = blockInput octets flags)
    (accepted : c.handleHeaderBlock (c.streamOf f) octets flags = (c', true))
    (same : c''.view = c'.view) : c.FrameMove f c'' := by
  unfold handleHeaderBlock at accepted
  unfold blockInput at input
  split at accepted
  · cases accepted
  rename_i off offset
  rw [offset, map_some] at input
  split at accepted
  · cases accepted
  rename_i d fields decoded
  dsimp only at accepted
  split at accepted
  · cases accepted
  rename_i i found
  have block : c.Block f i fields := ⟨type, ⟨_, d, input, decoded⟩, found⟩
  split at accepted
  · rename_i drained
    obtain ⟨rfl, -⟩ := Prod.mk.inj accepted
    exact .ignored i fields block drained.1 (isSome_iff_ne_none.mpr drained.2) same
  rename_i kept
  have clean : (c.streams i).state = .done → (c.streams i).err = none := fun done => by
    by_contra error
    exact kept ⟨done, error⟩
  split at accepted
  · cases accepted
  rename_i h scanned
  split at accepted
  · rename_i status conclusion
    obtain ⟨rfl, -⟩ := Prod.mk.inj accepted
    exact .concluded i fields h status block clean scanned conclusion same
  rename_i conclusion
  split_ifs at accepted with sent
  · cases accepted
  obtain ⟨rfl, -⟩ := Prod.mk.inj accepted
  exact .responded i fields h block (not_not.mp sent) scanned conclusion same

/-- What a frame of a header block does: it is refused, it is collected, or the block is
handled. -/
inductive HeaderMove (c : Conn) (f : Frame) : Conn × Bool → Prop where
  | refused : c.HeaderMove f (c, false)
  | collected (quiet : c.decoderInput f = none) (buffer : Octets) (sid : ℕ) (flags : UInt8)
      (pending : Bool) : c.HeaderMove f (c.collecting buffer sid flags pending, true)
  | handled (block : Octets) (flags : UInt8) (input : c.decoderInput f = blockInput block flags)
      (buffer : Octets) (sid : ℕ) (old : UInt8) (pending : Bool) :
      c.HeaderMove f ((c.handleHeaderBlock (c.streamOf f) block flags).1.collecting buffer sid old
        pending, (c.handleHeaderBlock (c.streamOf f) block flags).2)

theorem processOneFrame_header (type : f.type = .headers ∨ f.type = .continuation) :
    c.HeaderMove f (c.processOneFrame f) := by
  obtain ⟨kind, flags, sid, payload⟩ := f
  rcases type with type | type
  · subst type
    show c.HeaderMove _ (c.handleHeadersFrame flags sid payload)
    unfold handleHeadersFrame
    split
    · exact .refused
    rename_i quiet
    split
    · rename_i ends
      have own : c.handleHeaderBlock sid payload flags = _ := handleHeaderBlock_collecting c
        c.hdrBlock c.hdrBlockSid c.hdrBlockFlags c.hdrBlockPending sid payload flags
      exact .handled payload flags (by simp [decoderInput, quiet, ends]) ..
    rename_i more
    split
    · exact .refused
    · exact .collected (by simp [decoderInput, more]) ..
  subst type
  by_cases pending : c.hdrBlockPending = true
  · by_cases long : hdrBlockMax < c.hdrBlock.length + payload.length
    · rw [processOneFrame_long pending rfl long]
      exact .refused
    have fits := Nat.not_lt.mp long
    cases ends : has flags flagEndHeaders with
    | true =>
      rw [processOneFrame_last pending rfl ends fits]
      exact .handled _ _ (by simp [decoderInput, pending, ends, fits]) ..
    | false =>
      rw [processOneFrame_continues pending rfl ends fits]
      exact .collected (by simp [decoderInput, ends]) ..
  · show c.HeaderMove _ (c.handleContinuationFrame flags payload)
    rw [handleContinuationFrame, if_pos (by simp [pending])]
    exact .refused

theorem processOneFrame_header_move (type : f.type = .headers ∨ f.type = .continuation)
    (accepted : c.processOneFrame f = (c', true)) : c.FrameMove f c' := by
  have move := processOneFrame_header (c := c) type
  generalize c.processOneFrame f = result at accepted move
  cases move with
  | refused => cases accepted
  | collected quiet =>
    obtain ⟨rfl, -⟩ := Prod.mk.inj accepted
    refine .still ?_ quiet ?_ rfl <;> rcases type with type | type <;> rw [type] <;> exact nofun
  | handled block flags input =>
    obtain ⟨conn, ok⟩ := Prod.mk.inj accepted
    exact handleHeaderBlock_move type input (Prod.ext rfl ok) (by rw [← conn]; rfl)

theorem handleRstStream_move (type : f.type = .rstStream)
    (accepted : c.handleRstStream f.sid f.payload = (c', true)) : c.FrameMove f c' := by
  have other : f.type ≠ .data := by rw [type]; exact nofun
  have quiet : c.decoderInput f = none := by rw [decoderInput, type]
  unfold handleRstStream at accepted
  split at accepted
  · cases accepted
  split at accepted
  · rename_i lost
    obtain ⟨rfl, -⟩ := Prod.mk.inj accepted
    exact .still other quiet (fun _ => lost) rfl
  rename_i i found
  dsimp only at accepted
  split_ifs at accepted with done
  · obtain ⟨rfl, -⟩ := Prod.mk.inj accepted
    exact .destroyed i type found done rfl
  obtain ⟨rfl, -⟩ := Prod.mk.inj accepted
  exact .cancelled i type found done rfl

/-- **What a frame does** that is accepted. -/
theorem processOneFrame_move (accepted : c.processOneFrame f = (c', true)) : c.FrameMove f c' := by
  have fst : (c.processOneFrame f).1 = c' := congrArg Prod.fst accepted
  obtain ⟨type, flags, sid, payload⟩ := f
  cases type with
  | data => exact handleDataFrame_move rfl accepted
  | headers => exact processOneFrame_header_move (.inl rfl) accepted
  | continuation => exact processOneFrame_header_move (.inr rfl) accepted
  | rstStream => exact handleRstStream_move rfl accepted
  | priority =>
    obtain ⟨rfl, -⟩ := Prod.mk.inj accepted
    exact .still nofun rfl nofun rfl
  | settings =>
    exact .still nofun rfl nofun (fst ▸ (adjustable_view c).processOneFrame (.inl rfl) rfl)
  | pushPromise | unknown => cases accepted
  | ping => exact .still nofun rfl nofun (fst ▸ handlePing_view ..)
  | goaway =>
    change c.handleGoaway payload = (c', true) at accepted
    unfold handleGoaway at accepted
    split at accepted
    · cases accepted
    · obtain ⟨rfl, -⟩ := Prod.mk.inj accepted
      exact .goaway rfl rfl rfl
  | windowUpdate =>
    exact .still nofun rfl nofun (fst ▸ (adjustable_view c).processOneFrame (.inr rfl) rfl)

/-- **A frame that is an error** does nothing to the receiving side. -/
theorem processOneFrame_failed_view (failed : c.processOneFrame f = (c', false)) :
    c'.view = c.view := by
  by_cases header : f.type = .headers ∨ f.type = .continuation
  · have move := processOneFrame_header (c := c) header
    generalize c.processOneFrame f = result at failed move
    cases move with
    | refused => rw [← (Prod.mk.inj failed).1]
    | collected => cases failed
    | handled block flags =>
      obtain ⟨conn, bad⟩ := Prod.mk.inj failed
      rw [← conn]
      revert bad
      unfold handleHeaderBlock
      split
      · exact fun _ => rfl
      split
      · exact fun _ => rfl
      dsimp only
      split
      · exact fun _ => rfl
      split
      · exact nofun
      split
      · exact fun _ => rfl
      split
      · exact nofun
      split
      · exact fun _ => rfl
      · exact nofun
  rw [← show (c.processOneFrame f).1 = c' from congrArg Prod.fst failed]
  have bad : (c.processOneFrame f).2 = false := congrArg Prod.snd failed
  obtain ⟨type, flags, sid, payload⟩ := f
  revert bad
  cases type with
  | data =>
    unfold processOneFrame handleDataFrame
    dsimp only
    split
    · exact fun _ => rfl
    split
    · exact fun _ => rfl
    split
    · exact fun _ => rfl
    split
    · exact fun _ => rfl
    · split <;> exact nofun
  | headers => exact absurd (.inl rfl) header
  | continuation => exact absurd (.inr rfl) header
  | rstStream =>
    unfold processOneFrame handleRstStream
    dsimp only
    split
    · exact fun _ => rfl
    split
    · exact nofun
    · split <;> exact nofun
  | goaway =>
    unfold processOneFrame handleGoaway
    dsimp only
    split
    · exact fun _ => rfl
    · exact nofun
  | settings => exact fun _ => (adjustable_view c).processOneFrame (.inl rfl) rfl
  | ping => exact fun _ => handlePing_view ..
  | windowUpdate => exact fun _ => (adjustable_view c).processOneFrame (.inr rfl) rfl
  | priority | pushPromise | unknown => exact fun _ => rfl

/-! ## New streams -/

def openedStream (c : Conn) (type : StreamType) (resp : Option ℕ) : Stream :=
  { Stream.zero with
    inUse := true
    type := type
    id := c.nextSid
    state := .sent
    recvWindow := initWindow
    sendWindow := c.srvInitialWindow
    resp := resp.map fun _ => []
    respCap := resp.getD 0
    respLen := 0 }

/-- A slot can be given to a new stream: it is not in use, or all are and its stream is
done. -/
def Allocatable (c : Conn) (i : Slot) : Prop :=
  (c.streams i).inUse = false ∨ ((∀ j, (c.streams j).inUse = true) ∧ (c.streams i).state = .done)

theorem findSlot_none {test : Stream → Bool} (missing : c.findSlot test = none) (i : Slot) :
    test (c.streams i) = false := by
  exact Bool.eq_false_iff.mpr (List.find?_eq_none.mp missing i (List.mem_finRange i))

/-- What `stream_alloc` takes, and what it makes of it. -/
theorem streamAlloc_spec {type : StreamType} (found : c.streamAlloc type = some (i, c')) :
    c.Allocatable i ∧
      c' = { c.set i (c.openedStream type none) with nextSid := (c.nextSid + 2) % 2 ^ 32 } := by
  unfold streamAlloc at found
  split at found
  · rename_i free
    cases found
    obtain ⟨j, idle, eq⟩ := map_eq_some_iff.mp free
    cases eq
    have unused := findSlot_spec idle
    exact ⟨.inl (by simpa using unused), rfl⟩
  rename_i full
  have busy : ∀ j, (c.streams j).inUse = true := fun j => by
    have none := findSlot_none (map_eq_none_iff.mp full) j
    simpa using none
  split at found
  · rename_i d done
    obtain ⟨j, idle, eq⟩ := map_eq_some_iff.mp found
    cases eq
    have unused : ((c.streamDestroy d).streams i).inUse = false := by simpa using findSlot_spec idle
    obtain rfl : i = d := by
      by_contra ne
      rw [streamDestroy, set_streams_of_ne _ ne, busy i] at unused
      cases unused
    refine ⟨.inr ⟨busy, by simpa using findSlot_spec done⟩, ?_⟩
    unfold streamDestroy
    rw [set_set]
    rfl
  · cases found

end Conn

/-! ## Steps of a client -/

namespace Client

/-- A step starts a request: its type, and the capacity of the response. -/
def Starts (label : Label) (type : StreamType) (resp : Option ℕ) : Prop :=
  match label with
  | .unary _ _ cap => type = .unary ∧ resp = cap
  | .streamOpen _ _ => type = .subscribe ∧ resp = none
  | _ => False

variable {type : StreamType} {label : Label} {resp : Option ℕ}

theorem quiet_of_starts (starts : Starts label type resp) (f : Frame) : label ≠ .frame f := by
  rintro rfl
  exact starts

/-- The receiving side with a new stream in a slot. -/
def opened (c : Conn) (i : Slot) (s : Stream) : View :=
  { c.view.set i s with nextSid := (c.nextSid + 2) % 2 ^ 32 }

/-- What a step does to the receiving side. -/
inductive Move (old : Client) : Label → Client → Prop where
  | still {label : Label} {new : Client} (quiet : ∀ f, label ≠ .frame f)
      (view : new.conn.view = old.conn.view) : Move old label new
  | frame {f : Frame} {c : Conn} (processed : old.conn.processOneFrame f = (c, true)) :
      Move old (.frame f) { old with conn := c, batch := true }
  /-- The connection dies. -/
  | failed {label : Label} {new : Client} (dead : new.conn.dead = true)
      (view : new.conn.view = old.conn.view ∨
        new.conn.view = (old.conn.completeAllStreams statusUnavailable).view) :
      Move old label new
  | freed {label : Label} {new : Client} {i : Slot} {s : Stream} (frees : old.frees label = some i)
      (idle : s.inUse = false) (empty : s.queue = []) (id : s.id = (old.conn.streams i).id)
      (view : new.conn.view = old.conn.view.set i s) : Move old label new
  | started {label : Label} {new : Client} {type : StreamType} {resp : Option ℕ} {i : Slot}
      {c : Conn} (starts : Starts label type resp)
      (alloc : old.conn.streamAlloc type = some (i, c))
      (view : new.conn.view = opened old.conn i (old.conn.openedStream type resp).received) :
      Move old label new
  /-- A stream was opened, but its request could not be sent. -/
  | unsent {label : Label} {new : Client} {type : StreamType} {resp : Option ℕ} {i : Slot}
      {c : Conn} {s : Stream} (starts : Starts label type resp)
      (alloc : old.conn.streamAlloc type = some (i, c)) (idle : s.inUse = false)
      (empty : s.queue = []) (id : s.id = old.conn.nextSid)
      (view : new.conn.view = opened old.conn i s) : Move old label new
  | took {i : Slot} {m : Octets} {rest : List Octets} (call : old.call = .next i)
      (queue : (old.conn.streams i).queue = m :: rest) :
      Move old .check (takeMessage old i m rest)
  | closed {new : Client} (call : new.call = .closed) : Move old .close new

/-! ### Sending -/

theorem sends_view (c : Conn) (i : Slot) : Sends (fun c' => c'.view = c.view) i where
  enc _ view := view
  headers type view := (frameWrite_view _ (Frame.increment_of_ne (type ▸ nofun))).trans view
  chunk type _ view :=
    (frameWrite_view _ (Frame.increment_of_ne (type ▸ nofun))).trans
      ((view_set_of_received (by rfl)).trans view)

def destroyed (s : Stream) : Stream :=
  { s with rasmBuf := [], queue := [], qBytes := 0, inUse := false }

theorem streamDestroy_view (c : Conn) (i : Slot) :
    (c.streamDestroy i).view = c.view.set i (destroyed (c.streams i)).received := view_set ..

variable {old new : Client}

theorem Move.of_destroy (frees : old.frees label = some i)
    (view : new.conn.view = (old.conn.streamDestroy i).view) : Move old label new :=
  .freed (s := (destroyed (old.conn.streams i)).received) frees rfl rfl rfl
    (view.trans (streamDestroy_view ..))

theorem afterSend_view (old : Client) (i : Slot) (body : Octets) (frameMax : ℕ)
    (sending : Sending) :
    (afterSend old i body frameMax sending).conn.view = sending.conn.view ∨
      (afterSend old i body frameMax sending).conn.view = (sending.conn.streamDestroy i).view := by
  cases sending with
  | done =>
    unfold afterSend
    dsimp only
    split <;> exact .inl rfl
  | blocked => exact .inl rfl
  | failed => exact .inr rfl

/-- The receiving side with the stream of a new request. -/
theorem streamAlloc_view {c c' : Conn} (alloc : c.streamAlloc type = some (i, c'))
    (resp : Option ℕ) :
    (c'.set i { c'.streams i with
      resp := resp.map fun _ => [], respCap := resp.getD 0, respLen := 0 }).view =
      opened c i (c.openedStream type resp).received := by
  obtain ⟨-, conn⟩ := streamAlloc_spec alloc
  have slot : c'.streams i = c.openedStream type none := by
    rw [conn]
    exact update_self ..
  have before : c'.view = opened c i (c.openedStream type none).received := by
    rw [conn]
    exact congrArg (fun v : View => { v with nextSid := (c.nextSid + 2) % 2 ^ 32 })
      (view_set ..)
  rw [slot, view_set, before]
  exact congrArg (fun v : View => { v with nextSid := (c.nextSid + 2) % 2 ^ 32 }) (View.set_set ..)

theorem startRequest_move (starts : Starts label type resp) (path req : Octets) :
    Move old label (startRequest old type path req resp) := by
  have quiet := quiet_of_starts starts
  unfold startRequest
  dsimp only
  split
  · exact .still quiet rfl
  split
  · exact .still quiet rfl
  split
  · exact .still quiet rfl
  rename_i i c alloc
  have view := streamAlloc_view alloc resp
  generalize c.set i _ = c' at view ⊢
  have sent := (sends_view c' i).sendRequest path req rfl
  rcases afterSend_view old i (grpcBody req) c'.srvMaxFrame (sendRequest c' i path req)
    with going | excess
  · exact .started starts alloc (going.trans (sent.trans view))
  have opening := sent.trans view
  have same := congrArg Stream.id (received_of_view opening i)
  refine .unsent (s := (destroyed ((sendRequest _ i path req).conn.streams i)).received) starts
    alloc rfl rfl (same.trans ?_) (excess.trans ?_)
  · show ((old.conn.view.set i _).streams i).id = _
    rw [View.set_streams]
    rfl
  rw [streamDestroy_view, opening]
  exact congrArg (fun v : View => { v with nextSid := (old.conn.nextSid + 2) % 2 ^ 32 })
    (View.set_set ..)

variable {label : Label} {i : Slot}

theorem streamClose_view (inUse : (old.conn.streams i).inUse = true) :
    (streamClose old i).conn.view = old.conn.view.set i (destroyed { old.conn.streams i with
      state := .done, err := some .closed, status := 0 }).received := by
  have write : ∀ (b : Bool),
      (if b = true then old.conn.frameWriteRst (old.conn.streams i).id .cancel
      else old.conn).view = old.conn.view := fun b => by
    cases b
    · rfl
    · exact frameWriteRst_view ..
  unfold streamClose
  rw [if_pos inUse]
  rw [streamDestroy_view, set_streams, view_set, View.set_set, write]

theorem streamClose_of_idle (idle : (old.conn.streams i).inUse = false) :
    streamClose old i = old := by
  exact if_neg (by rw [idle]; decide)

theorem streamClose_move (i : Slot) : Move old (.streamClose i) (streamClose old i) := by
  cases inUse : (old.conn.streams i).inUse with
  | true =>
    exact .freed (s := (destroyed { old.conn.streams i with
      state := .done, err := some .closed, status := 0 }).received) (if_pos inUse) rfl rfl rfl
      (streamClose_view inUse)
  | false =>
    rw [streamClose_of_idle inUse]
    exact .still (fun f => nofun) rfl

theorem connFail_view (c : Conn) (code : H2cError) : (c.connFail code).view = c.view ∨
      (c.connFail code).view = (c.completeAllStreams statusUnavailable).view := by
  unfold Conn.connFail
  split
  · exact .inl rfl
  · exact .inr rfl

/-- **What a step does** to the receiving side. -/
theorem step_move (step : old.step label = some new) : Move old label new := by
  cases stepped step with
  | socket | streamNext | missed => exact .still (by rintro _ ⟨⟩) rfl
  | frame f =>
    unfold pollFrame
    split
    · rename_i c processed
      exact .frame processed
    rename_i c failed
    refine .failed (connFail_dead ..) ?_
    have view := processOneFrame_failed_view failed
    refine (connFail_view c .proto).imp (fun same => same.trans view) fun completed => ?_
    refine completed.trans ?_
    have streams : (fun i => (Conn.completeStream statusUnavailable (c.streams i)).received) =
        fun i => (Conn.completeStream statusUnavailable (old.conn.streams i)).received := by
      funext i
      rw [completeStream_received, completeStream_received, received_of_view view i]
      rfl
    have window := congrArg View.window view
    have credit := congrArg View.granted view
    have sid := congrArg View.nextSid view
    unfold Conn.completeAllStreams Conn.view at *
    dsimp only at *
    rw [streams, window, credit, sid]
  | readError => exact .failed (connFail_dead ..) (connFail_view ..)
  | refused loop | returned loop =>
    refine .still ?_ rfl
    rcases loop with rfl | rfl <;> rintro _ ⟨⟩
  | gaveUp frees => exact .of_destroy frees rfl
  | @cancelled i call =>
    refine .of_destroy (i := i) (by simp [frees, call]) ?_
    show (Conn.streamDestroy _ i).view = _
    rw [streamDestroy_view, streamDestroy_view, frameWriteRst_view, frameWriteRst_streams]
  | @resumed i body frameMax sent call =>
    have view := (sends_view old.conn i).sendLoop (body.length - sent) body frameMax sent rfl
    rcases afterSend_view old i body frameMax
      (sendLoop (body.length - sent) old.conn i body frameMax sent) with going | excess
    · exact .still (by rintro _ ⟨⟩) (going.trans view)
    refine .of_destroy (i := i) (by simp [frees, call]) (excess.trans ?_)
    have slot := congrArg destroyed (received_of_view view i)
    rw [streamDestroy_view, streamDestroy_view, view]
    exact congrArg (old.conn.view.set i) slot
  | took call queue => exact .took call queue
  | unary path req | streamOpen path req => exact startRequest_move (by exact ⟨rfl, rfl⟩) path req
  | streamClose i => exact streamClose_move i
  | close => exact .closed rfl

end Client

/-- The clients as a machine: the frames that arrive are any. -/
def clients : Machine Client Client.Label where
  initial c := ∃ ns, c = .connecting ns
  step := Client.step

end Strimserver.H2c
