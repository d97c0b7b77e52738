import Strimserver.H2c.Receiver
import Strimserver.H2c.SendWindows
import Strimserver.Library.Chunks

/-!
# The frames of a request

`send_request` cuts a request with its five octets in front into DATA frames. It takes the
largest payload that the server allows when it starts, puts each chunk into a buffer of
fixed size, waits until both windows cover the chunk, and writes it. While it waits, the
server can move the windows and the largest payload as it likes.

A run is recorded with the chunks that were put into the buffer and the frames that were
written, request by request.

**Main result** (`request_framing`): in every run in which the chunks of a request fit the
buffer, and the server does not lower the largest payload below a chunk that waits, the
frames of every request are a cut of the request, within all limits.
-/

namespace Strimserver.H2c

open Hpack Library List Option

/-- `H2C_DATA_BUF`. -/
def dataBuf : ℕ := 16384 + 5

/-- A DATA frame that was written, with the largest payload that the server allowed and the
windows behind it. -/
structure Write where
  frame : Frame
  limit : ℕ
  stream : ℤ
  conn : ℤ

/-- What the loop of `send_request` does: the sizes of the chunks that it puts into its
buffer, and the frames that it writes. -/
structure Trace where
  assembled : List ℕ
  writes : List Write

/-- The loop of `send_request` with what it does recorded, up to the point where it has to wait.
`sendLoop_trace` ties it to the loop. -/
def sendTrace : ℕ → Conn → Slot → (body : Octets) → (frameMax sent : ℕ) → Trace
  | 0, _, _, _, _, _ => ⟨[], []⟩
  | fuel + 1, c, i, body, frameMax, sent =>
    if body.length ≤ sent then ⟨[], []⟩
    else
      let chunk := chunkSize body frameMax sent
      if Covers c i chunk then
        let c := c.charge i chunk
        let f := chunkFrame (c.streams i).id body frameMax sent
        match c.frameWrite f with
        | (_, false) => ⟨[chunk], []⟩
        | (c, true) =>
          let rest := sendTrace fuel c i body frameMax (sent + chunk)
          ⟨chunk :: rest.assembled,
            ⟨f, c.srvMaxFrame, (c.streams i).sendWindow, c.connSendWindow⟩ :: rest.writes⟩
      else ⟨[chunk], []⟩

/-- A request with what was written for it. -/
structure Request where
  req : Octets
  assembled : List ℕ
  writes : List Write
  /-- `send_request` has returned 0. -/
  sent : Bool

/-- The connection at which `send_request` enters its loop: the headers are written. -/
def enterLoop (c : Conn) (i : Slot) (path : Octets) : Option Conn :=
  match buildRequestHeaders c.enc path c.ns reqHdrBlock with
  | (_, none) => none
  | (enc, some block) =>
    let c := { c with enc }
    match c.frameWrite ⟨.headers, flagEndHeaders, (c.streams i).id, block⟩ with
    | (_, false) => none
    | (c, true) => some c

namespace Client

/-- The connection at which a new request enters the loop, with its slot. -/
def loopEntry (old : Client) (type : StreamType) (path req : Octets) (resp : Option ℕ) :
    Option (Slot × Conn) :=
  let c := old.conn
  if c.dead then none
  else if maxMsg < req.length then none
  else
    match c.streamAlloc type with
    | none => none
    | some (i, c) =>
      let c := c.set i
        { c.streams i with resp := resp.map fun _ => [], respCap := resp.getD 0, respLen := 0 }
      (enterLoop c i path).map fun c => (i, c)

/-- The request that a step starts, with the slot and the connection of the loop. -/
def starting (old : Client) (label : Label) : Option (Octets × Slot × Conn) :=
  match old.call, label with
  | .idle, .unary path req resp => (old.loopEntry .unary path req resp).map fun e => (req, e)
  | .idle, .streamOpen path req => (old.loopEntry .subscribe path req none).map fun e => (req, e)
  | _, _ => none

/-- What a step adds to the request that waits. -/
def resuming (old : Client) (label : Label) : Option Trace :=
  match label, old.call with
  | .check, .sending i body frameMax sent =>
    if old.conn.dead = false ∧ (old.conn.streams i).state ≠ .done ∧
        credited old.conn i body frameMax sent = true then
      some (sendTrace (body.length - sent) old.conn i body frameMax sent)
    else none
  | _, _ => none

/-- `send_request` has returned 0, and the call waits for the response. -/
def awaits : Call → Bool
  | .unary _ => true
  | .opening _ => true
  | _ => false

/-- The requests behind a step, the newest first. -/
def addRequest (requests : List Request) (old : Client) (label : Label) (new : Client) :
    List Request :=
  match old.starting label with
  | some (req, i, c) =>
    let trace := sendTrace (req.length + 5) c i (grpcBody req) c.srvMaxFrame 0
    ⟨req, trace.assembled, trace.writes, awaits new.call⟩ :: requests
  | none =>
    match old.resuming label, requests with
    | some trace, q :: rest =>
      { q with
        assembled := q.assembled ++ trace.assembled
        writes := q.writes ++ trace.writes
        sent := awaits new.call } :: rest
    | _, requests => requests

/-- The chunks of a new request fit the buffer, and the next chunk of one that waits is
not larger than what the server allows now. -/
def framable (c : Client) : Label → Bool
  | .unary _ req _ => decide (min (req.length + 5) c.conn.srvMaxFrame ≤ dataBuf)
  | .streamOpen _ req => decide (min (req.length + 5) c.conn.srvMaxFrame ≤ dataBuf)
  | .check =>
    match c.call with
    | .sending _ body frameMax sent => decide (chunkSize body frameMax sent ≤ c.conn.srvMaxFrame)
    | _ => true
  | _ => true

end Client

/-- The clients, with the requests that they have sent. -/
def requesting : Machine (Machine.Recorded Client (List Request)) Client.Label :=
  clients.recording [] Client.addRequest

/-- The payload of a frame, and whether it ends the stream. -/
def Write.piece (w : Write) : Octets × Bool := (w.frame.payload, has w.frame.flags flagEndStream)

def Request.octets (q : Request) : Octets := (q.writes.map fun w => w.frame.payload).flatten

/-- The request kept to the limits. -/
structure Request.Framed (q : Request) : Prop where
  buffer : ∀ n ∈ q.assembled, n ≤ dataBuf
  frame : ∀ w ∈ q.writes, w.frame.type = .data ∧ w.frame.payload.length ≤ w.limit
  windows : ∀ w ∈ q.writes, 0 ≤ w.stream ∧ 0 ≤ w.conn
  octets : q.octets <+: 0 :: be32 q.req.length ++ q.req
  complete : q.sent = true → q.octets = 0 :: be32 q.req.length ++ q.req
  /-- END_STREAM is set on the frame that completes the request, and on no other. -/
  endStream : ∀ pre w post, q.writes = pre ++ w :: post →
    (has w.frame.flags flagEndStream = true ↔
      ((pre ++ [w]).map fun w => w.frame.payload).flatten = 0 :: be32 q.req.length ++ q.req)

/-! ## One run of the loop -/

theorem chunkAt_eq (body : Octets) (frameMax sent : ℕ) :
    (body.drop sent).take (chunkSize body frameMax sent) = chunkAt frameMax body sent := by
  unfold chunkSize chunkAt
  by_cases long : frameMax ≤ body.length - sent
  · rw [Nat.min_eq_right long]
  have short := Nat.le_of_not_le long
  rw [Nat.min_eq_left short, take_of_length_le (by rw [length_drop]),
    take_of_length_le (by rwa [length_drop])]

theorem length_chunkFrame (sid : ℕ) (body : Octets) (frameMax sent : ℕ) :
    (chunkFrame sid body frameMax sent).payload.length = chunkSize body frameMax sent := by
  show ((body.drop sent).take (chunkSize body frameMax sent)).length = _
  rw [chunkAt_eq, chunkAt, length_take, length_drop, chunkSize, Nat.min_comm]

/-- A later chunk is not larger. -/
theorem chunkSize_le (body : Octets) (frameMax : ℕ) {sent sent' : ℕ} (le : sent ≤ sent') :
    chunkSize body frameMax sent' ≤ chunkSize body frameMax sent := by
  unfold chunkSize
  omega

/-- What the loop does from a connection on, up to the point where it has to wait. -/
structure Traced (c : Conn) (body : Octets) (frameMax sent : ℕ) (t : Trace) : Prop where
  cut : Cut frameMax body sent (t.writes.map Write.piece)
  buffer : ∀ n ∈ t.assembled, n ≤ chunkSize body frameMax sent
  frame : ∀ w ∈ t.writes, w.frame.type = .data ∧
    w.frame.payload.length ≤ chunkSize body frameMax sent ∧ w.limit = c.srvMaxFrame
  windows : ∀ w ∈ t.writes, 0 ≤ w.stream ∧ 0 ≤ w.conn

theorem Traced.nothing (c : Conn) (body : Octets) (frameMax sent : ℕ) {sizes : List ℕ}
    (buffer : ∀ n ∈ sizes, n ≤ chunkSize body frameMax sent) :
    Traced c body frameMax sent ⟨sizes, []⟩ :=
  ⟨trivial, buffer, nofun, nofun⟩

variable {c c' : Conn} {body : Octets} {path : Octets} {i : Slot} {frameMax sent : ℕ} {t : Trace}

/-- A chunk that is written, and what the loop does behind it. -/
theorem Traced.cons {sid : ℕ} {stream conn : ℤ} (unsent : sent < body.length)
    (limit : c'.srvMaxFrame = c.srvMaxFrame) (windows : 0 ≤ stream ∧ 0 ≤ conn)
    (rest : Traced c' body frameMax (sent + chunkSize body frameMax sent) t) :
    Traced c body frameMax sent ⟨chunkSize body frameMax sent :: t.assembled,
        ⟨chunkFrame sid body frameMax sent, c'.srvMaxFrame, stream, conn⟩ :: t.writes⟩ where
  cut := by
    have length := length_chunkFrame sid body frameMax sent
    refine ⟨unsent, chunkAt_eq .., ?_, ?_⟩
    · rw [length, chunkFrame]
      dsimp only
      split_ifs with last
      · rw [decide_eq_true last]
        rfl
      · rw [decide_eq_false last]
        rfl
    · rw [length]
      exact rest.cut
  buffer := by
    refine forall_mem_cons.mpr ⟨Nat.le_refl _, fun n mem => ?_⟩
    exact (rest.buffer n mem).trans (chunkSize_le _ _ (Nat.le_add_right ..))
  frame := by
    refine forall_mem_cons.mpr ⟨⟨rfl, (length_chunkFrame ..).le, limit⟩, fun w mem => ?_⟩
    obtain ⟨type, size, same⟩ := rest.frame w mem
    exact ⟨type, size.trans (chunkSize_le _ _ (Nat.le_add_right ..)), same.trans limit⟩
  windows := forall_mem_cons.mpr ⟨windows, rest.windows⟩

theorem allowance_of_frameWrite {f : Frame} {written : Bool}
    (write : c.frameWrite f = (c', written)) : c'.allowance = c.allowance := by
  have same := c.frameWrite_allowance f
  rwa [write] at same

theorem Conn.charge_streams (c : Conn) (i : Slot) (chunk : ℕ) : (c.charge i chunk).streams i =
      { c.streams i with sendWindow := (c.streams i).sendWindow - chunk } :=
  Function.update_self ..

theorem sendTrace_traced (fuel : ℕ) (c : Conn) (i : Slot) (body : Octets) (frameMax sent : ℕ) :
    Traced c body frameMax sent (sendTrace fuel c i body frameMax sent) := by
  induction fuel generalizing c sent with
  | zero => exact .nothing _ _ _ _ nofun
  | succ fuel ih =>
    unfold sendTrace
    split_ifs with more
    · exact .nothing _ _ _ _ nofun
    have alone : ∀ n ∈ [chunkSize body frameMax sent], n ≤ chunkSize body frameMax sent := by simp
    dsimp only
    split_ifs with covers
    · split
      · exact .nothing _ _ _ _ alone
      rename_i c' written
      have same := allowance_of_frameWrite written
      have charged := c.charge_streams i (chunkSize body frameMax sent)
      have stream' := congrFun (congrArg Allowance.streams same) i
      have conn' := congrArg Allowance.conn same
      change (c'.streams i).sendWindow = (Conn.streams _ i).sendWindow at stream'
      change c'.connSendWindow = c.connSendWindow - _ at conn'
      refine .cons (Nat.not_le.mp more) (congrArg Allowance.maxFrame same) ⟨?_, ?_⟩ (ih c' _)
      · rw [stream', charged]
        have := covers.1
        dsimp only
        omega
      have := covers.2
      omega
    · exact .nothing _ _ _ _ alone

/-- How far the loop gets. -/
def Sending.Reaches (body : Octets) (total : ℕ) : Sending → Prop
  | .done _ => body.length ≤ total
  | .blocked _ sent => sent = total ∧ sent < body.length
  | .failed _ _ => True

theorem written_of_frameWrite {f : Frame} {written : Bool}
    (write : c.frameWrite f = (c', written)) :
    c'.written = c.written ++ if written then [f] else [] := by
  unfold Conn.frameWrite at write
  split at write
  · cases write
    exact (append_nil _).symm
  split at write <;> cases write
  · exact (append_nil _).symm
  · rfl
  · rfl

/-- The trace is that of the loop: its frames are what the loop writes, and the loop gets as far as
they say. -/
theorem sendLoop_trace {fuel : ℕ} (pos : 0 < frameMax) (enough : body.length - sent ≤ fuel) :
    (sendLoop fuel c i body frameMax sent).conn.written =
        c.written ++ (sendTrace fuel c i body frameMax sent).writes.map Write.frame ∧
      (sendLoop fuel c i body frameMax sent).Reaches body
        (sent + (joined
          ((sendTrace fuel c i body frameMax sent).writes.map Write.piece)).length) := by
  induction fuel generalizing c sent with
  | zero => exact ⟨(append_nil _).symm, show body.length ≤ sent + 0 by omega⟩
  | succ fuel ih =>
    by_cases unsent : sent < body.length
    · unfold sendTrace
      rw [if_neg (Nat.not_le.mpr unsent)]
      dsimp only
      by_cases covers : Covers c i (chunkSize body frameMax sent)
      · rw [sendLoop_of_covers fuel unsent covers, if_pos covers]
        have id : ((c.charge i (chunkSize body frameMax sent)).streams i).id = (c.streams i).id :=
          by rw [c.charge_streams]
        rw [id]
        cases write : (c.charge i (chunkSize body frameMax sent)).frameWrite
            (chunkFrame (c.streams i).id body frameMax sent) with
        | mk c' written =>
          have frames := written_of_frameWrite write
          cases written with
          | false => exact ⟨frames, trivial⟩
          | true =>
            have size : 0 < chunkSize body frameMax sent := by
              unfold chunkSize
              omega
            have less : body.length - (sent + chunkSize body frameMax sent) ≤ fuel := by omega
            obtain ⟨behind, rest⟩ := ih (c := c') less
            refine ⟨behind.trans ?_, ?_⟩
            · rw [frames, map_cons, append_assoc]
              rfl
            rw [map_cons, joined_cons, length_append, ← Nat.add_assoc]
            show Sending.Reaches body
              (sent + (chunkFrame (c.streams i).id body frameMax sent).payload.length + _) _
            rw [length_chunkFrame]
            exact rest
      · rw [sendLoop_of_blocked fuel unsent covers, if_neg covers]
        exact ⟨(append_nil _).symm, rfl, unsent⟩
    · have sent' := Nat.not_lt.mp unsent
      rw [sendLoop_of_sent _ c i frameMax sent', sendTrace, if_pos sent']
      exact ⟨(append_nil _).symm, sent'⟩

/-! ## Steps -/

/-- The headers of a request are written before the loop. -/
theorem enterLoop_some (enter : enterLoop c i path = some c') :
    ∃ enc block, buildRequestHeaders c.enc path c.ns reqHdrBlock = (enc, some block) ∧
      Conn.frameWrite { c with enc } ⟨.headers, flagEndHeaders, (c.streams i).id, block⟩ =
        (c', true) := by
  unfold enterLoop at enter
  split at enter
  · cases enter
  rename_i enc block built
  dsimp only at enter
  split at enter <;> cases enter
  rename_i written
  exact ⟨enc, block, built, written⟩

theorem sendRequest_of_enter (req : Octets) (enter : enterLoop c i path = some c') :
    sendRequest c i path req = sendLoop (req.length + 5) c' i (grpcBody req) c'.srvMaxFrame 0 ∧
      c'.srvMaxFrame = c.srvMaxFrame := by
  obtain ⟨enc, block, built, written⟩ := enterLoop_some enter
  unfold sendRequest
  rw [built]
  dsimp only
  rw [written]
  exact ⟨rfl, congrArg Allowance.maxFrame (allowance_of_frameWrite written)⟩

/-- A request fails before anything of it is written. -/
theorem sendRequest_of_none (req : Octets) (enter : enterLoop c i path = none) :
    ∃ enc err, sendRequest c i path req = .failed { c with enc } err := by
  unfold enterLoop at enter
  unfold sendRequest
  rcases built : buildRequestHeaders c.enc path c.ns reqHdrBlock with ⟨enc, _ | block⟩
  · exact ⟨enc, .proto, rfl⟩
  rw [built] at enter
  dsimp only at enter ⊢
  rcases write : Conn.frameWrite { c with enc }
    ⟨.headers, flagEndHeaders, (c.streams i).id, block⟩ with ⟨c', _ | _⟩
  · refine ⟨enc, .io, ?_⟩
    unfold Conn.frameWrite at write
    split at write
    · cases write
      rfl
    split at write <;> cases write
    rfl
  · rw [write] at enter
    cases enter

namespace Client

variable {old new : Client} {label : Label} {type : StreamType} {path req : Octets}
  {resp : Option ℕ} {i : Slot} {c : Conn}

/-- What a request has passed that enters the loop. -/
theorem loopEntry_some (entry : old.loopEntry type path req resp = some (i, c)) :
    old.conn.dead = false ∧ req.length ≤ maxMsg ∧ ∃ c₀, old.conn.streamAlloc type = some (i, c₀) ∧
      enterLoop (c₀.set i { c₀.streams i with
        resp := resp.map fun _ => [], respCap := resp.getD 0, respLen := 0 }) i path = some c := by
  unfold loopEntry at entry
  dsimp only at entry
  split at entry
  · cases entry
  rename_i live
  split at entry
  · cases entry
  rename_i short
  split at entry
  · cases entry
  rename_i j c₀ found
  obtain ⟨c', enter, eq⟩ := map_eq_some_iff.mp entry
  cases eq
  exact ⟨Bool.eq_false_iff.mpr live, Nat.not_lt.mp short, c₀, found, enter⟩

theorem startRequest_of_entry (entry : old.loopEntry type path req resp = some (i, c)) :
    startRequest old type path req resp = afterSend old i (grpcBody req) c.srvMaxFrame
        (sendLoop (req.length + 5) c i (grpcBody req) c.srvMaxFrame 0) ∧
      c.srvMaxFrame = old.conn.srvMaxFrame := by
  obtain ⟨live, short, c₀, found, enter⟩ := loopEntry_some entry
  obtain ⟨sending, limit⟩ := sendRequest_of_enter req enter
  obtain ⟨-, rfl⟩ := Conn.streamAlloc_spec found
  unfold startRequest
  dsimp only
  rw [live, if_neg Bool.false_ne_true, if_neg (Nat.not_lt.mpr short), found]
  dsimp only
  rw [sending, ← limit]
  exact ⟨rfl, limit⟩

/-- A request that does not enter the loop returns at once. If it has got a slot, it gives it back.
-/
theorem startRequest_of_none (entry : old.loopEntry type path req resp = none) :
    ∃ outcome c', startRequest old type path req resp = finish c' outcome old ∧
      (c' = old.conn ∨ old.conn.dead = false ∧ ∃ i c₀ enc,
        old.conn.streamAlloc type = some (i, c₀) ∧
        c' = Conn.streamDestroy { c₀.set i { c₀.streams i with
          resp := resp.map fun _ => [], respCap := resp.getD 0, respLen := 0 } with enc } i) := by
  unfold loopEntry at entry
  unfold startRequest
  dsimp only at entry ⊢
  split at entry
  · rename_i dead
    rw [if_pos dead]
    exact ⟨_, _, rfl, .inl rfl⟩
  rename_i live
  rw [if_neg live]
  split_ifs at entry with long
  · rw [if_pos long]
    exact ⟨_, _, rfl, .inl rfl⟩
  rw [if_neg long]
  rcases found : old.conn.streamAlloc type with _ | ⟨j, c₀⟩
  · exact ⟨_, _, rfl, .inl rfl⟩
  rw [found] at entry
  obtain ⟨enc, err, failed⟩ := sendRequest_of_none req (map_eq_none_iff.mp entry)
  dsimp only
  rw [failed]
  exact ⟨_, _, rfl, .inr ⟨Bool.eq_false_iff.mpr live, j, c₀, enc, rfl, rfl⟩⟩

theorem starting_some (start : old.starting label = some (req, i, c)) :
    old.call = .idle ∧ ∃ type path resp, old.loopEntry type path req resp = some (i, c) ∧
      old.step label = some (startRequest old type path req resp) ∧
      (label = .unary path req resp ∨ label = .streamOpen path req) := by
  unfold starting at start
  split at start
  · rename_i path req' resp idle
    obtain ⟨entry, found, eq⟩ := map_eq_some_iff.mp start
    cases eq
    refine ⟨idle, _, path, resp, found, ?_, .inl rfl⟩
    unfold Client.step
    rw [idle]
  · rename_i path req' idle
    obtain ⟨entry, found, eq⟩ := map_eq_some_iff.mp start
    cases eq
    refine ⟨idle, _, path, none, found, ?_, .inr rfl⟩
    unfold Client.step
    rw [idle]
  · cases start

section

variable (step : old.step label = some new)

include step

theorem starting_spec (start : old.starting label = some (req, i, c)) :
    new = afterSend old i (grpcBody req) c.srvMaxFrame
        (sendLoop (req.length + 5) c i (grpcBody req) c.srvMaxFrame 0) ∧
      c.srvMaxFrame = old.conn.srvMaxFrame ∧
      old.framable label = decide (min (req.length + 5) old.conn.srvMaxFrame ≤ dataBuf) := by
  obtain ⟨-, type, path, resp, found, stepped, label'⟩ := starting_some start
  obtain ⟨started, limit⟩ := startRequest_of_entry found
  cases step.symm.trans stepped
  refine ⟨started, limit, ?_⟩
  rcases label' with rfl | rfl <;> rfl

theorem resuming_spec (resume : old.resuming label = some t) :
    ∃ i body frameMax sent, old.call = .sending i body frameMax sent ∧
      t = sendTrace (body.length - sent) old.conn i body frameMax sent ∧
      new = afterSend old i body frameMax
        (sendLoop (body.length - sent) old.conn i body frameMax sent) ∧
      old.framable label = decide (chunkSize body frameMax sent ≤ old.conn.srvMaxFrame) := by
  unfold resuming at resume
  split at resume
  · rename_i i body frameMax sent call
    split at resume
    · rename_i goes
      obtain ⟨live, going, credit⟩ := goes
      cases resume
      refine ⟨i, body, frameMax, sent, call, rfl, ?_, ?_⟩
      · change old.check = some new at step
        unfold check at step
        rw [call] at step
        dsimp only at step
        rw [if_neg (by rw [live]; decide), if_neg going, if_pos credit] at step
        exact (Option.some.inj step).symm
      · unfold framable
        rw [call]
    · cases resume
  · cases resume

/-- A request that is not started leaves no call behind. -/
theorem call_of_unstarted (start : old.starting label = none) (idle : old.call = .idle)
    (label' : (∃ path req resp, label = .unary path req resp) ∨
      ∃ path req, label = .streamOpen path req) : new.call = .idle := by
  have unstarted {type : StreamType} {path req : Octets} {resp : Option ℕ}
      (entry : old.loopEntry type path req resp = none) :
      (startRequest old type path req resp).call = .idle := by
    obtain ⟨outcome, c', eq, -⟩ := startRequest_of_none entry
    rw [eq]
    rfl
  unfold starting at start
  unfold Client.step at step
  rcases label' with ⟨path, req, resp, rfl⟩ | ⟨path, req, rfl⟩ <;> rw [idle] at start step <;>
    cases step <;>
    exact unstarted (map_eq_none_iff.mp start)

/-- Any other step leaves a request that waits as it is, or ends it. -/
theorem sending_of_step (start : old.starting label = none) (resume : old.resuming label = none)
    (call : new.call = .sending i body frameMax sent) :
    old.call = .sending i body frameMax sent := by
  cases stepped step with
  | socket => exact call
  | frame =>
    unfold pollFrame at call
    split at call <;> exact call
  | readError => exact call
  | resumed waits live going credit =>
    unfold resuming at resume
    rw [waits] at resume
    dsimp only at resume
    rw [if_pos ⟨live, going, credit⟩] at resume
    cases resume
  | unary path req resp idle =>
    cases (call_of_unstarted step start idle (.inl ⟨_, _, _, rfl⟩)).symm.trans call
  | streamOpen path req idle =>
    cases (call_of_unstarted step start idle (.inr ⟨_, _, rfl⟩)).symm.trans call
  | streamClose j idle =>
    unfold streamClose at call
    dsimp only at call
    split at call <;> exact absurd (idle.symm.trans call) nofun
  | _ => cases call

end

end Client

/-! ## Requests -/

namespace Request

/-- The pieces of a request that were written. -/
def pieces (q : Request) : List (Octets × Bool) := q.writes.map Write.piece

/-- What holds of a request at any time, with the largest payload at its start. -/
structure Sound (q : Request) (frameMax : ℕ) : Prop where
  pos : 0 < frameMax
  fits : min (grpcBody q.req).length frameMax ≤ dataBuf
  buffer : ∀ n ∈ q.assembled, n ≤ dataBuf
  frame : ∀ w ∈ q.writes, w.frame.type = .data ∧ w.frame.payload.length ≤ w.limit
  windows : ∀ w ∈ q.writes, 0 ≤ w.stream ∧ 0 ≤ w.conn
  cut : Cut frameMax (grpcBody q.req) 0 q.pieces
  complete : q.sent = true → (grpcBody q.req).length ≤ (joined q.pieces).length

/-- A request that waits for credit, with some octets sent. -/
structure Waits (q : Request) (body : Octets) (frameMax sent : ℕ) : Prop where
  body_eq : body = grpcBody q.req
  sound : q.Sound frameMax
  sent_eq : sent = (joined q.pieces).length

theorem joined_pieces (writes : List Write) :
    joined (writes.map Write.piece) = (writes.map fun w => w.frame.payload).flatten := by
  rw [joined, List.map_map]
  rfl

variable {frameMax : ℕ}

theorem Sound.framed {q : Request} (sound : q.Sound frameMax) : q.Framed where
  buffer := sound.buffer
  frame := sound.frame
  windows := sound.windows
  octets := by
    have initial := sound.cut.joined_prefix
    rwa [drop_zero, pieces, joined_pieces] at initial
  complete := by
    intro sent
    have all := (sound.cut.joined_eq_iff).mpr
      (Nat.le_antisymm (by simpa using sound.cut.length_le (Nat.zero_le _)) (sound.complete sent))
    rwa [pieces, joined_pieces] at all
  endStream := by
    intro pre w post split
    have cut := sound.cut
    rw [pieces, split, map_append, map_cons] at cut
    have mark := cut.last_iff
    have upTo : pre.map Write.piece ++ [w.piece] = (pre ++ [w]).map Write.piece := by
      rw [map_append, map_singleton]
    rw [show (w.frame.payload, has w.frame.flags flagEndStream) = w.piece from rfl, upTo,
      joined_pieces] at mark
    exact mark

/-- A request after another run of the loop. -/
def extend (q : Request) (t : Trace) (sent : Bool) : Request :=
  { q with assembled := q.assembled ++ t.assembled, writes := q.writes ++ t.writes, sent }

theorem extend_pieces (q : Request) (t : Trace) (sent : Bool) :
    (q.extend t sent).pieces = q.pieces ++ t.writes.map Write.piece := map_append ..

/-- What a run of the loop adds to a request. -/
theorem Sound.extend {q : Request} {sent' : Bool} (sound : q.Sound frameMax)
    (traced : Traced c (grpcBody q.req) frameMax (joined q.pieces).length t)
    (limit : chunkSize (grpcBody q.req) frameMax (joined q.pieces).length ≤ c.srvMaxFrame)
    (complete : sent' = true → (grpcBody q.req).length ≤
      (joined q.pieces).length + (joined (t.writes.map Write.piece)).length) :
    (q.extend t sent').Sound frameMax where
  pos := sound.pos
  fits := sound.fits
  buffer := by
    intro n mem
    rcases mem_append.mp mem with before | now
    · exact sound.buffer n before
    refine (traced.buffer n now).trans (Nat.le_trans ?_ sound.fits)
    unfold chunkSize
    omega
  frame := by
    intro w mem
    rcases mem_append.mp mem with before | now
    · exact sound.frame w before
    · obtain ⟨type, size, same⟩ := traced.frame w now
      exact ⟨type, size.trans (limit.trans same.ge)⟩
  windows := by
    intro w mem
    rcases mem_append.mp mem with before | now
    · exact sound.windows w before
    · exact traced.windows w now
  cut := by
    rw [extend_pieces]
    refine sound.cut.append ?_
    rw [Nat.zero_add]
    exact traced.cut
  complete := by
    intro done
    rw [extend_pieces, joined_append, length_append]
    exact complete done

theorem Sound.empty {req : Octets} (pos : 0 < frameMax)
    (fits : min (grpcBody req).length frameMax ≤ dataBuf) : Sound ⟨req, [], [], false⟩ frameMax :=
  ⟨pos, fits, nofun, nofun, nofun, trivial, nofun⟩

end Request

theorem Client.afterSend_call (old : Client) (i : Slot) (body : Octets) (frameMax : ℕ)
    (sending : Sending) :
    (Client.awaits (afterSend old i body frameMax sending).call = true → ∃ c, sending = .done c) ∧
      ∀ j body' frameMax' sent, (afterSend old i body frameMax sending).call =
          .sending j body' frameMax' sent →
        j = i ∧ body' = body ∧ frameMax' = frameMax ∧ ∃ c, sending = .blocked c sent := by
  cases sending with
  | done c =>
    refine ⟨fun _ => ⟨c, rfl⟩, fun j body' frameMax' sent call => ?_⟩
    unfold afterSend at call
    dsimp only at call
    split at call <;> cases call
  | blocked c =>
    refine ⟨nofun, fun j body' frameMax' sent' call => ?_⟩
    cases call
    exact ⟨rfl, rfl, rfl, c, rfl⟩
  | failed => exact ⟨nofun, nofun⟩

/-- **A run of the loop** keeps a request sound, and a request that still waits has got as
far as its frames say. -/
theorem Request.Sound.loop {q : Request} (sound : q.Sound frameMax) (old : Client) (c : Conn)
    (i : Slot) {fuel : ℕ} (start : sent = (joined q.pieces).length)
    (enough : (grpcBody q.req).length - sent ≤ fuel)
    (limit : chunkSize (grpcBody q.req) frameMax sent ≤ c.srvMaxFrame) :
    let new := Client.afterSend old i (grpcBody q.req) frameMax
      (sendLoop fuel c i (grpcBody q.req) frameMax sent)
    let q' := q.extend (sendTrace fuel c i (grpcBody q.req) frameMax sent) (Client.awaits new.call)
    q'.Sound frameMax ∧ ∀ j body' frameMax' sent', new.call = .sending j body' frameMax' sent' →
      q'.Waits body' frameMax' sent' := by
  subst start
  have traced := sendTrace_traced fuel c i (grpcBody q.req) frameMax (joined q.pieces).length
  have reaches := (sendLoop_trace (c := c) (i := i) sound.pos enough).2
  obtain ⟨awaits, waits⟩ := Client.afterSend_call old i (grpcBody q.req) frameMax
    (sendLoop fuel c i (grpcBody q.req) frameMax (joined q.pieces).length)
  intro new q'
  have sound' : q'.Sound frameMax := by
    refine sound.extend traced limit fun done => ?_
    obtain ⟨c', eq⟩ := awaits done
    rw [eq] at reaches
    exact reaches
  refine ⟨sound', fun j body' frameMax' sent' call => ?_⟩
  obtain ⟨-, rfl, rfl, c', eq⟩ := waits j body' frameMax' sent' call
  rw [eq] at reaches
  refine ⟨rfl, sound', ?_⟩
  rw [Request.extend_pieces, joined_append, length_append]
  exact reaches.1

/-! ## Runs -/

/-- What holds of a run: every request is sound, and the one that waits is the newest. -/
structure Requested (c : Client) (requests : List Request) : Prop where
  sound : ∀ q ∈ requests, ∃ frameMax, q.Sound frameMax
  waits : ∀ i body frameMax sent, c.call = .sending i body frameMax sent →
    ∃ q rest, requests = q :: rest ∧ q.Waits body frameMax sent

theorem length_grpcBody (req : Octets) : (grpcBody req).length = req.length + 5 := by
  simp [grpcBody, be32]

/-- **A step** that meets the condition keeps the requests sound. -/
theorem Requested.step {old new : Client} {requests : List Request} {label : Client.Label}
    (requested : Requested old requests) (within : old.conn.allowance.Within)
    (framable : old.framable label = true) (step : old.step label = some new) :
    Requested new (Client.addRequest requests old label new) := by
  unfold Client.addRequest
  cases start : old.starting label with
  | some entry =>
    obtain ⟨req, i, c⟩ := entry
    obtain ⟨rfl, limit, condition⟩ := Client.starting_spec step start
    rw [condition, decide_eq_true_iff, ← limit, ← length_grpcBody] at framable
    have low := within.maxFrame.1
    change 16384 ≤ old.conn.srvMaxFrame at low
    have first : Request.Sound ⟨req, [], [], false⟩ c.srvMaxFrame := .empty (by omega) framable
    have enough : (grpcBody req).length - 0 ≤ req.length + 5 := by exact Nat.sub_le ..
    obtain ⟨sound, waits⟩ := first.loop old c i rfl enough (Nat.min_le_right ..)
    refine ⟨forall_mem_cons.mpr ⟨⟨_, sound⟩, requested.sound⟩, ?_⟩
    intro j body frameMax sent call
    exact ⟨_, _, rfl, waits j body frameMax sent call⟩
  | none =>
    cases resume : old.resuming label with
    | some =>
      obtain ⟨i, body, frameMax, sent, call, rfl, rfl, condition⟩ :=
        Client.resuming_spec step resume
      obtain ⟨q, rest, rfl, rfl, sound, sent_eq⟩ := requested.waits i body frameMax sent call
      rw [condition, decide_eq_true_iff] at framable
      obtain ⟨sound', waits⟩ := sound.loop old old.conn i sent_eq (Nat.le_refl _) framable
      refine ⟨forall_mem_cons.mpr ⟨⟨_, sound'⟩, fun q mem => ?_⟩, ?_⟩
      · exact requested.sound q (mem_cons_of_mem _ mem)
      · intro j body' frameMax' sent' call'
        exact ⟨_, _, rfl, waits j body' frameMax' sent' call'⟩
    | none =>
      refine ⟨requested.sound, fun i body frameMax sent call => ?_⟩
      exact requested.waits i body frameMax sent (Client.sending_of_step step start resume call)

/-- **Requests are framed within all limits** in every run in which the chunks of a request
fit the buffer and the server does not lower the largest payload below a chunk that waits. -/
theorem request_framing {r : Machine.Recorded Client (List Request)}
    (reachable : (requesting.restrict fun r label => r.state.framable label = true).Reachable r) :
    ∀ q ∈ r.record, q.Framed := by
  have requested : Requested r.state r.record := by
    refine reachable.recording_induct ?_ fun old requests label new before met step requested => ?_
    · rintro _ ⟨ns, rfl⟩
      exact ⟨nofun, nofun⟩
    · exact requested.step (Client.within_of_reachable before) met step
  intro q mem
  obtain ⟨frameMax, sound⟩ := requested.sound q mem
  exact sound.framed

/-- A unary call that is sent. -/
def smallRequest : List Client.Label :=
  [.frame ⟨.settings, 0, 0, []⟩, .check, .unary (ascii "/v/A") [1, 2, 3] none]

theorem request_framing_smallRequest :
    ∃ r, (requesting.restrict fun r label => r.state.framable label = true).Reachable r ∧
      ∃ q ∈ r.record, q.sent = true ∧ q.req = [1, 2, 3] ∧ q.Framed := by
  have run : ((requesting.restrict fun r label => r.state.framable label = true).exec
      ⟨.connecting (ascii "k8s"), []⟩ smallRequest).any (fun r =>
        r.record.any fun q => decide (q.sent = true ∧ q.req = [1, 2, 3])) = true := by
    decide +kernel
  obtain ⟨r, reachable, facts⟩ := Machine.Reachable.of_any run ⟨⟨_, rfl⟩, rfl⟩
  obtain ⟨q, mem, facts⟩ := any_eq_true.mp facts
  obtain ⟨sent, req⟩ := of_decide_eq_true facts
  exact ⟨r, reachable, q, mem, sent, req, request_framing reachable q mem⟩

/-! ## A buffer that is too small -/

/-- **The buffer overflows.** A server that allows the largest frames makes the client put
16390 octets of one chunk into a buffer of 16389. -/
theorem chunk_overflows_buffer :
    ∃ r, requesting.Reachable r ∧
      ∃ q ∈ r.record, q.req.length ≤ maxMsg ∧ ∃ n ∈ q.assembled, dataBuf < n := by
  have run : (requesting.exec ⟨.connecting (ascii "k8s"), []⟩
      [.frame ⟨.settings, 0, 0, [0, 5, 0, 0xff, 0xff, 0xff]⟩, .check]).any (fun r =>
        decide (r.state.call = .idle) &&
          (r.state.loopEntry .unary (ascii "/v/A") [] none).any fun e =>
            decide (e.2.srvMaxFrame = 16777215)) = true := by
    decide +kernel
  obtain ⟨r, before, facts⟩ := Machine.Reachable.of_any run ⟨⟨_, rfl⟩, rfl⟩
  obtain ⟨idle, facts⟩ := Bool.and_eq_true_iff.mp facts
  have idle := of_decide_eq_true idle
  obtain ⟨⟨i, c⟩, entry, limit⟩ := (any_eq_true _ _).mp facts
  have limit : c.srvMaxFrame = 16777215 := of_decide_eq_true limit
  let req : Octets := List.replicate 16385 0
  have length : req.length = 16385 := length_replicate
  have short : req.length ≤ maxMsg := by
    rw [length]
    decide
  let label : Client.Label := .unary (ascii "/v/A") req none
  have start : r.state.starting label = some (req, i, c) := by
    unfold Client.starting
    rw [idle]
    show (r.state.loopEntry .unary (ascii "/v/A") req none).map (fun e => (req, e)) = _
    unfold Client.loopEntry at entry ⊢
    dsimp only at entry ⊢
    rw [if_neg (by decide : ¬ maxMsg < ([] : Octets).length)] at entry
    rw [if_neg (Nat.not_lt.mpr short), entry]
    rfl
  let new := Client.startRequest r.state .unary (ascii "/v/A") req none
  have step :
      requesting.step r label = some ⟨new, Client.addRequest r.record r.state label new⟩ := by
    refine Machine.recording_step.mpr ⟨?_, rfl⟩
    show Client.step r.state label = some new
    unfold Client.step
    dsimp only
    rw [idle]
  refine ⟨_, before.step step, ?_⟩
  dsimp only
  unfold Client.addRequest
  rw [start]
  refine ⟨_, mem_cons_self, short, chunkSize (grpcBody req) c.srvMaxFrame 0, ?_, ?_⟩
  · -- The first chunk is put into the buffer whether there is credit or not.
    show _ ∈ (sendTrace (req.length + 4 + 1) c i (grpcBody req) c.srvMaxFrame 0).assembled
    unfold sendTrace
    rw [if_neg (by rw [length_grpcBody]; omega)]
    dsimp only
    split
    · split <;> simp
    · simp
  unfold chunkSize
  rw [length_grpcBody, length, limit]
  decide

end Strimserver.H2c
