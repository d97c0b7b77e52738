import Strimserver.Hpack.Decoder
import Strimserver.Hpack.Encoder

/-!
# Connections and their streams

The state of an HTTP/2 connection of `h2c.c` and the helpers that change it: the
eight stream slots, the writers of frames, and the ways in which a stream ends.

The windows are 32-bit numbers in two's complement. The frames that were written
are kept in a list, the oldest first. A write can fail at any time and succeed
later, as the socket does not block: `writable` is the number of frames that can
still be written, if there is a limit. Allocations succeed.

What nothing reads is left out: the texts of the last messages, what GOAWAY said,
`q_closed`, and the buffers whose only purpose is to be freed.
-/

namespace Strimserver.H2c

open Hpack

/-! ## Frames -/

/-- The types of frames. -/
inductive FrameType where
  | data
  | headers
  | priority
  | rstStream
  | settings
  | pushPromise
  | ping
  | goaway
  | windowUpdate
  | continuation
  | unknown (code : UInt8)
  deriving DecidableEq

/-- A frame of HTTP/2. -/
structure Frame where
  type : FrameType
  flags : UInt8
  sid : ℕ
  payload : Octets
  deriving DecidableEq

/-- `H2_FLAG_ACK`. -/
def flagAck : UInt8 := 0x1

/-- `H2_FLAG_END_STREAM`. -/
def flagEndStream : UInt8 := 0x1

/-- `H2_FLAG_END_HEADERS`. -/
def flagEndHeaders : UInt8 := 0x4

/-- `H2_FLAG_PADDED`. -/
def flagPadded : UInt8 := 0x8

/-- `H2_FLAG_PRIORITY`. -/
def flagPriority : UInt8 := 0x20

/-- A flag is set. -/
def has (flags flag : UInt8) : Bool := flags &&& flag ≠ 0

/-- The four octets of a 32-bit number, the highest first. -/
def be32 (n : ℕ) : Octets :=
  [UInt8.ofNat (n >>> 24), UInt8.ofNat (n >>> 16), UInt8.ofNat (n >>> 8), UInt8.ofNat n]

/-- The number that four octets stand for. -/
def readBe32 (a b c d : UInt8) : ℕ :=
  a.toNat <<< 24 ||| b.toNat <<< 16 ||| c.toNat <<< 8 ||| d.toNat

theorem readBe32_be32 {n : ℕ} (small : n < 2 ^ 32) :
    readBe32 (UInt8.ofNat (n >>> 24)) (UInt8.ofNat (n >>> 16)) (UInt8.ofNat (n >>> 8))
      (UInt8.ofNat n) = n := by
  have toNat : ∀ m : ℕ, (UInt8.ofNat m).toNat = m % 2 ^ 8 := fun _ => rfl
  rw [readBe32, toNat, toNat, toNat, toNat]
  apply Nat.eq_of_testBit_eq
  intro bit
  simp only [Nat.testBit_or, Nat.testBit_shiftLeft, Nat.testBit_mod_two_pow, Nat.testBit_shiftRight]
  -- The octet that has the bit, from the highest on.
  by_cases high : 32 ≤ bit
  · have zero : n.testBit bit = false :=
      Nat.testBit_lt_two_pow (lt_of_lt_of_le small (Nat.pow_le_pow_right (by decide) high))
    rw [zero]
    simp
    omega
  by_cases h24 : 24 ≤ bit
  · simp [h24, show bit - 24 < 8 by omega, show 24 + (bit - 24) = bit by omega,
      show ¬ bit - 16 < 8 by omega, show ¬ bit - 8 < 8 by omega, show ¬ bit < 8 by omega]
  by_cases h16 : 16 ≤ bit
  · simp [h24, h16, show bit - 16 < 8 by omega, show 16 + (bit - 16) = bit by omega,
      show ¬ bit - 8 < 8 by omega, show ¬ bit < 8 by omega]
  by_cases h8 : 8 ≤ bit
  · simp [h24, h16, h8, show bit - 8 < 8 by omega, show 8 + (bit - 8) = bit by omega,
      show ¬ bit < 8 by omega]
  · simp [h24, h16, h8, show bit < 8 by omega]

/-- A number as a signed 32-bit number. -/
def int32 (n : ℤ) : ℤ := n.bmod (2 ^ 32)

/-! ## Constants -/

/-- `H2_INIT_WINDOW`. -/
def initWindow : ℤ := 65535

/-- `H2C_HDR_BLOCK_MAX`. -/
def hdrBlockMax : ℕ := 64 * 1024

/-- `H2C_MAX_MSG`. -/
def maxMsg : ℕ := 16 * 1024 * 1024

/-- `H2C_QUEUE_MAX_BYTES`. -/
def queueMaxBytes : ℕ := 4 * 1024 * 1024

/-- The `H2_ERR_*` codes that are sent. -/
inductive H2Code where
  | protocol
  | internal
  | flowControl
  | frameSize
  | cancel

/-- The number of a code. -/
def H2Code.value : H2Code → ℕ
  | protocol => 1
  | internal => 2
  | flowControl => 3
  | frameSize => 6
  | cancel => 8

/-- The `H2C_ERR_*` codes. -/
inductive H2cError where
  | timeout
  | io
  | proto
  | goaway
  | noStream
  | tooBig
  | closed
  | streamEnd
  deriving DecidableEq

/-- `H2C_STATUS_CANCELLED`. -/
def statusCancelled : ℕ := 1

/-- `H2C_STATUS_UNIMPLEMENTED`. -/
def statusUnimplemented : ℕ := 12

/-- `H2C_STATUS_INTERNAL`. -/
def statusInternal : ℕ := 13

/-- `H2C_STATUS_UNAVAILABLE`. -/
def statusUnavailable : ℕ := 14

/-! ## The state -/

/-- `ST_UNARY` and `ST_SUBSCRIBE`. -/
inductive StreamType where
  | unary
  | subscribe
  deriving DecidableEq

/-- `enum stream_state`. -/
inductive StreamState where
  | sent
  | headers
  | done
  deriving DecidableEq

/-- `struct strim_h2c_stream`. -/
structure Stream where
  id : ℕ
  inUse : Bool
  type : StreamType
  state : StreamState
  sawHeaders : Bool
  status : ℕ
  err : Option H2cError
  recvWindow : ℤ
  sendWindow : ℤ
  /-- `rasm_state`: the body of a message is expected. -/
  rasmBody : Bool
  /-- The part of `rasm_hdr` that is filled. -/
  rasmHdr : Octets
  rasmMsglen : ℕ
  rasmGot : ℕ
  /-- The part of `rasm_buf` that is filled. -/
  rasmBuf : Octets
  queue : List Octets
  qBytes : ℕ
  /-- What was written to `resp`, unless that is null. -/
  resp : Option Octets
  (respCap respLen msgCount : ℕ)

/-- A slot that was never used. -/
def Stream.zero : Stream where
  id := 0
  inUse := false
  type := .unary
  state := .sent
  sawHeaders := false
  status := 0
  err := none
  recvWindow := 0
  sendWindow := 0
  rasmBody := false
  rasmHdr := []
  rasmMsglen := 0
  rasmGot := 0
  rasmBuf := []
  queue := []
  qBytes := 0
  resp := none
  respCap := 0
  respLen := 0
  msgCount := 0

/-- A place of a stream, below `H2C_MAX_STREAMS`. -/
abbrev Slot := Fin 8

instance neZero_slots : NeZero 8 := ⟨by decide⟩

/-- `struct strim_h2c`, with what was written. -/
structure Conn where
  ready : Bool
  dead : Bool
  deadCode : Option H2cError
  ns : Octets
  nextSid : ℕ
  streams : Slot → Stream
  connRecvWindow : ℤ
  connSendWindow : ℤ
  srvMaxFrame : ℕ
  srvMaxStreams : ℕ
  srvInitialWindow : ℤ
  enc : Encoder
  dynDec : HpackDyn
  hdrBlock : Octets
  hdrBlockSid : ℕ
  hdrBlockFlags : UInt8
  hdrBlockPending : Bool
  writable : Option ℕ
  written : List Frame

/-- The connection of `h2c_connect` before its first write. -/
def Conn.fresh (ns : Octets) : Conn where
  ready := false
  dead := false
  deadCode := none
  ns := ns
  nextSid := 1
  streams := fun _ => .zero
  connRecvWindow := initWindow
  connSendWindow := initWindow
  srvMaxFrame := 16384
  srvMaxStreams := 100
  srvInitialWindow := initWindow
  enc := .initial
  dynDec := dynReset
  hdrBlock := []
  hdrBlockSid := 0
  hdrBlockFlags := 0
  hdrBlockPending := false
  writable := none
  written := []

namespace Conn

/-- A new value for a slot. -/
def set (c : Conn) (i : Slot) (s : Stream) : Conn :=
  { c with streams := Function.update c.streams i s }

/-! ## Writing -/

/-- `frame_write`: the connection, and whether the frame was written. -/
def frameWrite (c : Conn) (f : Frame) : Conn × Bool :=
  if 0xffffff < f.payload.length then (c, false)
  else
    match c.writable with
    | some 0 => (c, false)
    | some (n + 1) => ({ c with writable := some n, written := c.written ++ [f] }, true)
    | none => ({ c with written := c.written ++ [f] }, true)

/-- `frame_write_window_update`, where the result is not looked at. -/
def frameWriteWindowUpdate (c : Conn) (sid inc : ℕ) : Conn :=
  (c.frameWrite ⟨.windowUpdate, 0, sid, be32 inc⟩).1

/-- `frame_write_rst`, where the result is not looked at. -/
def frameWriteRst (c : Conn) (sid : ℕ) (code : H2Code) : Conn :=
  (c.frameWrite ⟨.rstStream, 0, sid, be32 code.value⟩).1

/-! ## Streams -/

/-- The first slot that satisfies a test. -/
def findSlot (c : Conn) (test : Stream → Bool) : Option Slot :=
  (List.finRange 8).find? fun i => test (c.streams i)

/-- `stream_find`. -/
def streamFind (c : Conn) (sid : ℕ) : Option Slot := c.findSlot fun s => s.inUse && s.id == sid

/-- `stream_destroy`. -/
def streamDestroy (c : Conn) (i : Slot) : Conn :=
  c.set i { c.streams i with rasmBuf := [], queue := [], qBytes := 0, inUse := false }

/-- The first part of `stream_alloc`: a slot that is not in use. -/
def streamAllocFree (c : Conn) (type : StreamType) : Option (Slot × Conn) :=
  (c.findSlot fun s => !s.inUse).map fun i =>
    let s : Stream :=
      { Stream.zero with
        inUse := true
        type := type
        id := c.nextSid
        state := .sent
        recvWindow := initWindow
        sendWindow := c.srvInitialWindow }
    (i, { c.set i s with nextSid := (c.nextSid + 2) % 2 ^ 32 })

/-- `stream_alloc`: a slot that is not in use, or else the first that is done. -/
def streamAlloc (c : Conn) (type : StreamType) : Option (Slot × Conn) :=
  match c.streamAllocFree type with
  | some found => some found
  | none =>
    match c.findSlot fun s => s.state == .done with
    | some i => (c.streamDestroy i).streamAllocFree type
    | none => none

/-! ## Ends -/

/-- A stream that `complete_all_streams` meets. -/
def completeStream (status : ℕ) (s : Stream) : Stream :=
  if !s.inUse || s.state == .done then s
  else { s with state := .done, status, err := none, rasmBuf := [] }

/-- `complete_all_streams`. -/
def completeAllStreams (c : Conn) (status : ℕ) : Conn :=
  { c with streams := fun i => completeStream status (c.streams i) }

/-- `conn_fail`. -/
def connFail (c : Conn) (code : H2cError) : Conn :=
  if c.dead then c
  else { c with dead := true, deadCode := some code }.completeAllStreams statusUnavailable

/-- `stream_abort`. -/
def streamAbort (c : Conn) (i : Slot) (code : H2Code) (err : H2cError) : Conn :=
  let c := c.frameWriteRst (c.streams i).id code
  c.set i
    { c.streams i with state := .done, status := statusInternal, err := some err, rasmBuf := [] }

/-! ## What most functions keep -/

/-- The decoder, the header block that is being collected, and whether the
connection is dead. -/
def kept (c : Conn) : Bool × HpackDyn × Octets × ℕ × UInt8 × Bool :=
  (c.dead, c.dynDec, c.hdrBlock, c.hdrBlockSid, c.hdrBlockFlags, c.hdrBlockPending)

variable (c : Conn)

@[simp] theorem set_kept (i : Slot) (s : Stream) : (c.set i s).kept = c.kept := rfl

theorem set_streams_of_ne {i j : Slot} (ne : j ≠ i) (s : Stream) :
    (c.set i s).streams j = c.streams j :=
  Function.update_of_ne ne ..

@[simp] theorem frameWrite_kept (f : Frame) : (c.frameWrite f).1.kept = c.kept := by
  unfold frameWrite
  split
  · rfl
  · split <;> rfl

theorem frameWrite_streams (f : Frame) : (c.frameWrite f).1.streams = c.streams := by
  unfold frameWrite
  split
  · rfl
  · split <;> rfl

@[simp] theorem frameWriteRst_streams (sid : ℕ) (code : H2Code) :
    (c.frameWriteRst sid code).streams = c.streams := frameWrite_streams ..

@[simp] theorem frameWriteWindowUpdate_streams (sid inc : ℕ) :
    (c.frameWriteWindowUpdate sid inc).streams = c.streams := frameWrite_streams ..

@[simp] theorem frameWriteRst_kept (sid : ℕ) (code : H2Code) :
    (c.frameWriteRst sid code).kept = c.kept := frameWrite_kept ..

@[simp] theorem streamDestroy_kept (i : Slot) : (c.streamDestroy i).kept = c.kept := rfl

variable {i : Slot}

theorem streamAllocFree_kept {c c' : Conn} {type : StreamType}
    (found : c.streamAllocFree type = some (i, c')) : c'.kept = c.kept := by
  obtain ⟨_, -, eq⟩ := Option.map_eq_some_iff.mp found
  cases eq
  rfl

theorem streamAlloc_kept {c c' : Conn} {type : StreamType}
    (found : c.streamAlloc type = some (i, c')) : c'.kept = c.kept := by
  unfold streamAlloc at found
  split at found
  · rename_i free
    cases found
    exact streamAllocFree_kept free
  split at found
  · exact (streamAllocFree_kept found).trans (streamDestroy_kept ..)
  · cases found

theorem findSlot_spec {c : Conn} {test : Stream → Bool} (found : c.findSlot test = some i) :
    test (c.streams i) = true := by
  exact List.find?_some (p := fun i => test (c.streams i)) found

theorem streamFind_spec {c : Conn} {sid : ℕ} (found : c.streamFind sid = some i) :
    (c.streams i).inUse = true ∧ (c.streams i).id = sid := by
  simpa using findSlot_spec found

/-- A stream is found by its identifier and by whether it is in use. -/
theorem streamFind_congr {c c' : Conn} (same : ∀ j, (c'.streams j).inUse = (c.streams j).inUse ∧
    (c'.streams j).id = (c.streams j).id) (sid : ℕ) : c'.streamFind sid = c.streamFind sid := by
  unfold streamFind findSlot
  congr 1
  funext j
  dsimp only
  rw [(same j).1, (same j).2]

end Conn

end Strimserver.H2c
