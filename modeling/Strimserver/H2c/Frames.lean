import Strimserver.H2c.Connection

/-!
# Frames that arrive

`process_one_frame` of `h2c.c` with its handlers. A handler returns the connection
and whether it succeeded; a failure is a negative return value of the source. The
caller then ends the connection, so what a handler leaves behind on a failure in
the middle of a header block is not kept.
-/

namespace Strimserver.H2c

open Hpack

namespace Conn

/-! ## Settings, pings, windows -/

/-- The loop over the streams for a new initial window. -/
def shiftWindows (delta : ℤ) : List Slot → Conn → Conn × Bool
  | [], c => (c, true)
  | i :: rest, c =>
    let s := c.streams i
    if s.inUse then
      let c := c.set i { s with sendWindow := int32 (s.sendWindow + delta) }
      if 0x7fffffff < (c.streams i).sendWindow then (c, false)
      else shiftWindows delta rest c
    else shiftWindows delta rest c

/-- One setting of `handle_settings`. -/
def applySetting (c : Conn) (id val : ℕ) : Conn × Bool :=
  match id with
  | 0x1 => ({ c with enc := c.enc.setHeaderTableSize val }, true)
  | 0x3 => ({ c with srvMaxStreams := val }, true)
  | 0x4 =>
    let delta := int32 (int32 val - c.srvInitialWindow)
    shiftWindows delta (List.finRange 8) { c with srvInitialWindow := int32 val }
  | 0x5 =>
    if val < 16384 ∨ 16777215 < val then (c, false) else ({ c with srvMaxFrame := val }, true)
  | _ => (c, true)

/-- The loop of `handle_settings`. -/
def applySettings : Octets → Conn → Conn × Bool
  | a :: b :: w :: x :: y :: z :: rest, c =>
    match c.applySetting (a.toNat <<< 8 ||| b.toNat) (readBe32 w x y z) with
    | (c, false) => (c, false)
    | (c, true) => applySettings rest c
  | _, c => (c, true)

/-- `handle_settings`. -/
def handleSettings (c : Conn) (p : Octets) : Conn × Bool :=
  if p.length % 6 ≠ 0 then (c, false)
  else
    match applySettings p c with
    | (c, false) => (c, false)
    | (c, true) =>
      match c.frameWrite ⟨.settings, flagAck, 0, []⟩ with
      | (c, false) => (c, false)
      | (c, true) => ({ c with ready := true }, true)

/-- `handle_ping`. -/
def handlePing (c : Conn) (flags : UInt8) (payload : Octets) : Conn × Bool :=
  if payload.length ≠ 8 then (c, false)
  else if has flags flagAck then (c, true)
  else c.frameWrite ⟨.ping, flagAck, 0, payload⟩

/-- `handle_window_update`. -/
def handleWindowUpdate (c : Conn) (sid : ℕ) (payload : Octets) : Conn × Bool :=
  match payload with
  | [w, x, y, z] =>
    let inc := readBe32 w x y z
    if inc = 0 then (c, false)
    else if sid = 0 then
      let c := { c with connSendWindow := int32 (c.connSendWindow + int32 inc) }
      (c, !decide (0x7fffffff < c.connSendWindow))
    else
      match c.streamFind sid with
      | none => (c, true)
      | some i =>
        let s := c.streams i
        let c := c.set i { s with sendWindow := int32 (s.sendWindow + int32 inc) }
        (c, !decide (0x7fffffff < (c.streams i).sendWindow))
  | _ => (c, false)

/-- `handle_goaway`. -/
def handleGoaway (c : Conn) (payload : Octets) : Conn × Bool :=
  if payload.length < 8 then (c, false)
  else
    ({ c.completeAllStreams statusUnavailable with dead := true, deadCode := some .goaway }, true)

/-- `handle_rst_stream`. -/
def handleRstStream (c : Conn) (sid : ℕ) (payload : Octets) : Conn × Bool :=
  if payload.length ≠ 4 then (c, false)
  else
    match c.streamFind sid with
    | none => (c, true)
    | some i =>
      let s := c.streams i
      if s.state = .done then (c.streamDestroy i, true)
      else
        (c.set i { s with state := .done, status := statusCancelled, err := none, rasmBuf := [] },
          true)

/-! ## Header blocks -/

/-- `headers_block_offset`. The octets behind the offset are the block. -/
def headersBlockOffset (payload : Octets) (flags : UInt8) : Option ℕ :=
  let off :=
    if has flags flagPadded then
      match payload with
      | [] => none
      | pad :: _ => if payload.length < 1 + pad.toNat then none else some (1 + pad.toNat)
    else some 0
  if has flags flagPriority then
    off.bind fun n => if payload.length < n + 5 then none else some (n + 5)
  else off

/-- `parse_status_int`, with a failure for -1. -/
def parseStatusInt (value : Octets) : Option ℕ :=
  value.foldl (fun v b => v.bind fun v =>
    if b < 48 ∨ 57 < b then none
    else
      let v := v * 10 + (b.toNat - 48)
      if 999 < v then none else some v) (some 0)

/-- What `handle_header_block` learns from the fields. -/
structure HeaderScan where
  hasStatus : Bool
  statusValue : Option ℕ
  hasGrpcStatus : Bool
  grpcStatus : ℕ
  contentTypeOk : Bool
  encodingOk : Bool

/-- The values before the first field. -/
def HeaderScan.initial : HeaderScan := ⟨false, some 0, false, 0, false, true⟩

/-- A field in the loop of `handle_header_block`. -/
def HeaderScan.field (h : HeaderScan) (f : Field) : Option HeaderScan :=
  if f.name = ascii ":status" then
    some { h with hasStatus := true, statusValue := parseStatusInt f.value }
  else if f.name = ascii "grpc-status" then
    match parseStatusInt f.value with
    | none => none
    | some v => if 99 < v then none else some { h with hasGrpcStatus := true, grpcStatus := v }
  else if f.name = ascii "content-type" then
    some { h with contentTypeOk := decide (ascii "application/grpc" <+: f.value) }
  else if f.name = ascii "grpc-encoding" then
    some (if f.value = ascii "identity" then h else { h with encodingOk := false })
  else some h

/-- The loop of `handle_header_block`. -/
def scanFields (fields : List Field) : Option HeaderScan :=
  fields.foldl (fun h f => h.bind (·.field f)) (some .initial)

/-- The status with which a header block ends the stream, if it does. -/
def HeaderScan.conclusion (h : HeaderScan) : Option ℕ :=
  let end₀ := if h.hasGrpcStatus then some h.grpcStatus else none
  let end₁ :=
    if h.hasStatus && !decide (h.statusValue = some 200) && end₀.isNone then
      some (if h.statusValue = some 404 then statusUnimplemented else statusInternal)
    else end₀
  let end₂ := if end₁.isNone && !h.contentTypeOk then some statusInternal else end₁
  if !h.encodingOk then some statusInternal else end₂

/-- `handle_header_block`. -/
def handleHeaderBlock (c : Conn) (sid : ℕ) (block : Octets) (flags : UInt8) : Conn × Bool :=
  match headersBlockOffset block flags with
  | none => (c, false)
  | some off =>
    match hpackDecodeBlock c.dynDec (block.drop off) maxFields with
    | none => (c, false)
    | some (d, fields) =>
      let c := { c with dynDec := d }
      match c.streamFind sid with
      | none => (c, false)
      | some i =>
        let s := c.streams i
        -- Draining a stream that the client has aborted.
        if s.state = .done ∧ s.err ≠ none then (c, true)
        else
          match scanFields fields with
          | none => (c, false)
          | some h =>
            match h.conclusion with
            | some status =>
              (c.set i { s with state := .done, status, err := none, rasmBuf := [] },
                true)
            | none =>
              if s.state ≠ .sent then (c, false)
              else (c.set i { s with state := .headers, sawHeaders := true }, true)

/-- `handle_headers_frame`. -/
def handleHeadersFrame (c : Conn) (flags : UInt8) (sid : ℕ) (payload : Octets) : Conn × Bool :=
  if c.hdrBlockPending then (c, false)
  else if has flags flagEndHeaders then c.handleHeaderBlock sid payload flags
  else if hdrBlockMax < payload.length then (c, false)
  else
    ({ c with
        hdrBlock := payload
        hdrBlockSid := sid
        hdrBlockFlags := flags
        hdrBlockPending := true }, true)

/-- `handle_continuation_frame`. -/
def handleContinuationFrame (c : Conn) (flags : UInt8) (payload : Octets) : Conn × Bool :=
  if !c.hdrBlockPending then (c, false)
  else if hdrBlockMax < c.hdrBlock.length + payload.length then (c, false)
  else
    let c := { c with hdrBlock := c.hdrBlock ++ payload }
    if has flags flagEndHeaders then
      let done := c.handleHeaderBlock c.hdrBlockSid c.hdrBlock c.hdrBlockFlags
      ({ done.1 with hdrBlockPending := false }, done.2)
    else (c, true)

/-! ## Data -/

/-- `stream_credit_message`. -/
def streamCreditMessage (c : Conn) (i : Slot) (total : ℕ) : Conn :=
  let s := c.streams i
  if total = 0 then c
  else if 0x7fffffff - int32 total < s.recvWindow then c
  else if 0x7fffffff - int32 total < c.connRecvWindow then c
  else
    let c := c.set i { s with recvWindow := s.recvWindow + int32 total }
    let c := { c with connRecvWindow := c.connRecvWindow + int32 total }
    (c.frameWriteWindowUpdate s.id total).frameWriteWindowUpdate 0 total

/-- What a part of the loop of `stream_feed_data` ends with: a return, or the data
that is left. -/
inductive Feed where
  | stop (c : Conn)
  | next (c : Conn) (rest : Octets)

/-- The length of a message is known: its body is expected next, unless it is too
long. -/
def startMessage (c : Conn) (i : Slot) (msglen : ℕ) (rest : Octets) : Feed :=
  let s := { c.streams i with rasmMsglen := msglen }
  let c := c.set i s
  if maxMsg < msglen then .stop (c.streamAbort i .frameSize .tooBig)
  else
    let s := { s with rasmGot := 0 }
    match s.type with
    | .subscribe => .next (c.set i { s with rasmBuf := [], rasmBody := true }) rest
    | .unary =>
      if s.resp.isSome ∧ s.respCap < msglen then
        let c := c.frameWriteRst s.id .cancel
        .stop (c.set i { s with state := .done, err := some .tooBig, status := 0 })
      else .next (c.set i { s with rasmBody := true }) rest

/-- The first part of the loop: the five octets in front of a message. -/
def feedHeader (c : Conn) (i : Slot) (data : Octets) : Feed :=
  let s := c.streams i
  if s.rasmBody then .next c data
  else
    let need := 5 - s.rasmHdr.length
    let hdr := s.rasmHdr ++ data.take need
    let c := c.set i { s with rasmHdr := hdr }
    match hdr with
    | [compressed, w, x, y, z] =>
      if compressed ≠ 0 then .stop (c.streamAbort i .internal .proto)
      else c.startMessage i (readBe32 w x y z) (data.drop need)
    | _ => .stop c

/-- Octets written over a buffer. -/
def overwrite (buffer : Octets) (off : ℕ) (octets : Octets) : Octets :=
  buffer.take off ++ octets ++ buffer.drop (off + octets.length)

/-- Octets of a body are copied to their destination. -/
def copyBody (s : Stream) (octets : Octets) : Stream :=
  match s.type with
  | .subscribe => { s with rasmBuf := s.rasmBuf ++ octets, rasmGot := s.rasmGot + octets.length }
  | .unary =>
    { s with
      resp := s.resp.map (overwrite · s.rasmGot octets)
      rasmGot := s.rasmGot + octets.length }

/-- A message is complete. -/
def completeMessage (c : Conn) (i : Slot) (rest : Octets) : Feed :=
  let s := c.streams i
  match s.type with
  | .subscribe =>
    if queueMaxBytes < s.qBytes + s.rasmMsglen then .stop (c.streamAbort i .flowControl .proto)
    else
      .next (c.set i
        { s with
          queue := s.queue ++ [s.rasmBuf]
          qBytes := s.qBytes + s.rasmMsglen
          rasmBuf := []
          rasmBody := false
          rasmHdr := [] }) rest
  | .unary =>
    let s := { s with respLen := s.rasmGot, msgCount := s.msgCount + 1 }
    let c := c.set i s
    if 1 < s.msgCount then .stop (c.streamAbort i .protocol .proto)
    else
      let c := c.streamCreditMessage i (s.rasmGot + 5)
      .next (c.set i { c.streams i with rasmBody := false, rasmHdr := [] }) rest

/-- The second part of the loop: the body of a message. -/
def feedBody (c : Conn) (i : Slot) (data : Octets) : Feed :=
  let s := c.streams i
  if !s.rasmBody then .next c data
  else
    let need := s.rasmMsglen - s.rasmGot
    let s := copyBody s (data.take need)
    let c := c.set i s
    if s.rasmGot < s.rasmMsglen then .next c (data.drop need)
    else c.completeMessage i (data.drop need)

/-- `stream_feed_data`. Each round takes an octet, so the length is enough fuel. -/
def streamFeedData : ℕ → Conn → Slot → Octets → Conn
  | _, c, _, [] => c
  | 0, c, _, _ :: _ => c
  | fuel + 1, c, i, b :: data =>
    match c.feedHeader i (b :: data) with
    | .stop c => c
    | .next c rest =>
      match c.feedBody i rest with
      | .stop c => c
      | .next c rest => streamFeedData fuel c i rest

/-- The data of a DATA frame without its padding. -/
def unpad (flags : UInt8) (payload : Octets) : Option Octets :=
  if has flags flagPadded then
    match payload with
    | [] => none
    | pad :: data =>
      if data.length < pad.toNat then none else some (data.take (data.length - pad.toNat))
  else some payload

/-- `handle_data_frame`. -/
def handleDataFrame (c : Conn) (flags : UInt8) (sid : ℕ) (payload : Octets) : Conn × Bool :=
  match c.streamFind sid with
  | none => (c, false)
  | some i =>
    let s := c.streams i
    -- Draining a stream that the client has aborted.
    if s.state = .done then (c, s.err.isSome)
    else if c.connRecvWindow < payload.length ∨ s.recvWindow < payload.length then (c, false)
    else
      match unpad flags payload with
      | none => (c, false)
      | some data =>
        let c := { c with connRecvWindow := c.connRecvWindow - payload.length }
        let c := c.set i { s with recvWindow := s.recvWindow - payload.length }
        let c := streamFeedData data.length c i data
        if has flags flagEndStream ∧ (c.streams i).rasmBody then
          (c.streamAbort i .protocol .proto, true)
        else (c, true)

/-! ## Dispatch -/

/-- `process_one_frame`, for a frame that the reader has completed. -/
def processOneFrame (c : Conn) (f : Frame) : Conn × Bool :=
  match f.type with
  | .settings =>
    if f.sid ≠ 0 then (c, false)
    else if has f.flags flagAck then (c, f.payload.isEmpty)
    else c.handleSettings f.payload
  | .ping => c.handlePing f.flags f.payload
  | .windowUpdate => c.handleWindowUpdate f.sid f.payload
  | .data => c.handleDataFrame f.flags f.sid f.payload
  | .headers => c.handleHeadersFrame f.flags f.sid f.payload
  | .continuation => c.handleContinuationFrame f.flags f.payload
  | .rstStream => c.handleRstStream f.sid f.payload
  | .goaway => c.handleGoaway f.payload
  | .priority => (c, f.payload.length == 5)
  | .pushPromise => (c, false)
  | .unknown _ => (c, false)

/-! ## What the handling of data keeps -/

/-- The connection that a part of the loop ends with. -/
def Feed.conn : Feed → Conn
  | .stop c => c
  | .next c _ => c

/-- The part of a slot that data leaves alone while the stream goes on. -/
def standing (s : Stream) : ℕ × Bool × StreamState × Option H2cError × ℤ :=
  (s.id, s.inUse, s.state, s.err, s.sendWindow)

/-- A property of connections that data, pings and credit for the server keep, as they change
nothing else than this. -/
structure Steady (P : Conn → Prop) : Prop where
  write : ∀ {c : Conn} {f : Frame}, f.type = .windowUpdate ∨ f.type = .ping → P c →
    P (c.frameWrite f).1
  window : ∀ {c : Conn} (w : ℤ), P c → P { c with connRecvWindow := w }
  set : ∀ {c : Conn} {i : Slot} {s : Stream}, standing s = standing (c.streams i) →
    P c → P (c.set i s)
  /-- A stream is aborted. -/
  reset : ∀ {c : Conn} {i : Slot} {s : Stream} (code : H2Code), s.id = (c.streams i).id →
    s.inUse = (c.streams i).inUse → s.sendWindow = (c.streams i).sendWindow →
    s.state = .done → P c →
    P ((c.frameWriteRst (c.streams i).id code).set i s)

namespace Steady

variable {P : Conn → Prop} {c : Conn} (steady : Steady P)

include steady

theorem streamAbort (i : Slot) (code : H2Code) (err : H2cError) (holds : P c) :
    P (c.streamAbort i code err) := by
  have same := congrFun (frameWriteRst_streams c (c.streams i).id code) i
  have id := congrArg Stream.id same
  have inUse := congrArg Stream.inUse same
  have window := congrArg Stream.sendWindow same
  exact steady.reset code id inUse window rfl holds

theorem streamCreditMessage (i : Slot) (total : ℕ) (holds : P c) :
    P (c.streamCreditMessage i total) := by
  unfold Conn.streamCreditMessage
  dsimp only
  split
  · exact holds
  split
  · exact holds
  split
  · exact holds
  · exact steady.write (.inl rfl) (steady.write (.inl rfl) (steady.window _ (steady.set rfl holds)))

theorem startMessage (i : Slot) (msglen : ℕ) (rest : Octets) (holds : P c) :
    P (c.startMessage i msglen rest).conn := by
  have first := steady.set (i := i) (s := { c.streams i with rasmMsglen := msglen }) rfl holds
  have here : (c.set i { c.streams i with rasmMsglen := msglen }).streams i =
      { c.streams i with rasmMsglen := msglen } := Function.update_self ..
  unfold Conn.startMessage
  dsimp only
  split
  · exact steady.streamAbort i _ _ first
  split
  · exact steady.set (congrArg standing here).symm first
  split
  · have reset := fun s => steady.reset (i := i) (s := s) .cancel
      (c := c.set i { c.streams i with rasmMsglen := msglen })
    rw [here] at reset
    exact reset _ rfl rfl rfl rfl first
  · exact steady.set (congrArg standing here).symm first

theorem feedHeader (i : Slot) (data : Octets) (holds : P c) : P (c.feedHeader i data).conn := by
  unfold Conn.feedHeader
  dsimp only
  split
  · exact holds
  have filled := fun hdr => steady.set (i := i) (s := { c.streams i with rasmHdr := hdr }) rfl holds
  split
  · split
    · exact steady.streamAbort i _ _ (filled _)
    · exact steady.startMessage i _ _ (filled _)
  · exact filled _

theorem completeMessage (i : Slot) (rest : Octets) (holds : P c) :
    P (c.completeMessage i rest).conn := by
  unfold Conn.completeMessage
  dsimp only
  split
  · split
    · exact steady.streamAbort i _ _ holds
    · exact steady.set rfl holds
  have counted := steady.set (i := i) (s := { c.streams i with
    respLen := (c.streams i).rasmGot, msgCount := (c.streams i).msgCount + 1 }) rfl holds
  split
  · exact steady.streamAbort i _ _ counted
  · exact steady.set rfl (steady.streamCreditMessage i _ counted)

theorem feedBody (i : Slot) (data : Octets) (holds : P c) : P (c.feedBody i data).conn := by
  have copied : ∀ octets, standing (copyBody (c.streams i) octets) = standing (c.streams i) := by
    intro octets
    unfold copyBody
    split <;> rfl
  unfold Conn.feedBody
  dsimp only
  split
  · exact holds
  split
  · exact steady.set (copied _) holds
  · exact steady.completeMessage i _ (steady.set (copied _) holds)

theorem streamFeedData (fuel : ℕ) (i : Slot) (data : Octets) (holds : P c) :
    P (streamFeedData fuel c i data) := by
  induction fuel generalizing c data with
  | zero => cases data <;> exact holds
  | succ fuel ih =>
    rcases data with _ | ⟨b, data⟩
    · exact holds
    rw [Conn.streamFeedData]
    have header := steady.feedHeader i (b :: data) holds
    split
    · rename_i stopped
      rwa [stopped] at header
    rename_i c₁ rest next
    rw [next] at header
    have body := steady.feedBody i rest header
    split
    · rename_i stopped
      rwa [Feed.conn, stopped] at body
    rename_i next'
    rw [Feed.conn, next'] at body
    exact ih _ body

theorem handleDataFrame (flags : UInt8) (sid : ℕ) (payload : Octets) (holds : P c) :
    P (c.handleDataFrame flags sid payload).1 := by
  unfold Conn.handleDataFrame
  split
  · exact holds
  dsimp only
  split
  · exact holds
  split
  · exact holds
  split
  · exact holds
  have lowered := steady.window (c.connRecvWindow - payload.length) holds
  split
  · exact steady.streamAbort _ _ _ (steady.streamFeedData _ _ _ (steady.set (by rfl) lowered))
  · exact steady.streamFeedData _ _ _ (steady.set (by rfl) lowered)

theorem handlePing (flags : UInt8) (payload : Octets) (holds : P c) :
    P (c.handlePing flags payload).1 := by
  unfold Conn.handlePing
  split
  · exact holds
  split
  · exact holds
  · exact steady.write (.inr rfl) holds

end Steady

/-! ## What settings keep -/

/-- A property of connections that settings and credit of the server keep. -/
structure Adjustable (P : Conn → Prop) : Prop where
  enc : ∀ {c : Conn} (enc : Encoder), P c → P { c with enc }
  maxStreams : ∀ {c : Conn} (n : ℕ), P c → P { c with srvMaxStreams := n }
  maxFrame : ∀ {c : Conn} {n : ℕ}, 16384 ≤ n → n ≤ 16777215 → P c → P { c with srvMaxFrame := n }
  initial : ∀ {c : Conn} (w : ℤ), P c → P { c with srvInitialWindow := int32 w }
  conn : ∀ {c : Conn} (w : ℤ), P c → P { c with connSendWindow := int32 w }
  stream : ∀ {c : Conn} (i : Slot) (w : ℤ), P c →
    P (c.set i { c.streams i with sendWindow := int32 w })
  ready : ∀ {c : Conn}, P c → P { c with ready := true }
  ack : ∀ {c : Conn}, P c → P (c.frameWrite ⟨.settings, flagAck, 0, []⟩).1

namespace Adjustable

variable {P : Conn → Prop} {c : Conn} (adjustable : Adjustable P)

include adjustable

theorem shiftWindows (delta : ℤ) (slots : List Slot) (holds : P c) :
    P (shiftWindows delta slots c).1 := by
  induction slots generalizing c with
  | nil => exact holds
  | cons i slots ih =>
    have shifted := adjustable.stream i ((c.streams i).sendWindow + delta) holds
    unfold Conn.shiftWindows
    dsimp only
    split
    · split
      · exact shifted
      · exact ih shifted
    · exact ih holds

theorem applySetting (id val : ℕ) (holds : P c) : P (c.applySetting id val).1 := by
  unfold Conn.applySetting
  split
  · exact adjustable.enc _ holds
  · exact adjustable.maxStreams _ holds
  · exact adjustable.shiftWindows _ _ (adjustable.initial _ holds)
  · split
    · exact holds
    rename_i bounds
    obtain ⟨low, high⟩ := not_or.mp bounds
    exact adjustable.maxFrame (Nat.not_lt.mp low) (Nat.not_lt.mp high) holds
  · exact holds

theorem applySettings (p : Octets) (holds : P c) : P (applySettings p c).1 := by
  fun_induction Conn.applySettings p c with
  | case1 a b w x y z rest c c' failed =>
    have applied := adjustable.applySetting (a.toNat <<< 8 ||| b.toNat) (readBe32 w x y z) holds
    rwa [failed] at applied
  | case2 a b w x y z rest c c' done ih =>
    have applied := adjustable.applySetting (a.toNat <<< 8 ||| b.toNat) (readBe32 w x y z) holds
    rw [done] at applied
    exact ih applied
  | case3 => exact holds

theorem handleSettings (p : Octets) (holds : P c) : P (c.handleSettings p).1 := by
  unfold Conn.handleSettings
  split
  · exact holds
  have settings := adjustable.applySettings p holds
  split
  · rename_i failed
    rwa [failed] at settings
  rename_i applied
  rw [applied] at settings
  have acked := adjustable.ack settings
  split
  · rename_i failed
    rwa [failed] at acked
  rename_i written
  rw [written] at acked
  exact adjustable.ready acked

theorem handleWindowUpdate (sid : ℕ) (payload : Octets) (holds : P c) :
    P (c.handleWindowUpdate sid payload).1 := by
  unfold Conn.handleWindowUpdate
  split
  · dsimp only
    split
    · exact holds
    split
    · exact adjustable.conn _ holds
    split
    · exact holds
    · exact adjustable.stream _ _ holds
  · exact holds

theorem processOneFrame {f : Frame} (type : f.type = .settings ∨ f.type = .windowUpdate)
    (holds : P c) : P (c.processOneFrame f).1 := by
  unfold Conn.processOneFrame
  rcases type with type | type
  · rw [type]
    dsimp only
    split
    · exact holds
    split
    · exact holds
    · exact adjustable.handleSettings _ holds
  · rw [type]
    exact adjustable.handleWindowUpdate _ _ holds

end Adjustable

/-! ## The decoder and the header block -/

theorem steady_kept (c : Conn) : Steady fun c' => c'.kept = c.kept where
  write _ kept := (frameWrite_kept ..).trans kept
  window _ kept := kept
  set _ kept := kept
  reset _ _ _ _ _ kept := (frameWriteRst_kept ..).trans kept

theorem adjustable_kept (c : Conn) : Adjustable fun c' => c'.kept = c.kept where
  enc _ kept := kept
  maxStreams _ kept := kept
  maxFrame _ _ kept := kept
  initial _ kept := kept
  conn _ kept := kept
  stream _ _ kept := kept
  ready kept := kept
  ack kept := (frameWrite_kept ..).trans kept

theorem handleRstStream_kept (c : Conn) (sid : ℕ) (payload : Octets) :
    (c.handleRstStream sid payload).1.kept = c.kept := by
  unfold handleRstStream
  split
  · rfl
  split
  · rfl
  · dsimp only
    split <;> rfl

/-- A header block changes the decoder and one stream. -/
theorem handleHeaderBlock_kept (c : Conn) (sid : ℕ) (block : Octets) (flags : UInt8) :
    (c.handleHeaderBlock sid block flags).1.dead = c.dead ∧
      (c.handleHeaderBlock sid block flags).1.hdrBlockPending = c.hdrBlockPending := by
  unfold handleHeaderBlock
  split
  · exact ⟨rfl, rfl⟩
  split
  · exact ⟨rfl, rfl⟩
  dsimp only
  split
  · exact ⟨rfl, rfl⟩
  split
  · exact ⟨rfl, rfl⟩
  split
  · exact ⟨rfl, rfl⟩
  split
  · exact ⟨rfl, rfl⟩
  · split <;> exact ⟨rfl, rfl⟩

end Conn

end Strimserver.H2c
