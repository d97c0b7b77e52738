import Strimserver.H2c.Frames
import Strimserver.Library.Machine

/-!
# The calls of a client

The functions that a client calls block, and process frames while they wait. A
client is the connection with the call that is going on, which is at one of the
loops where frames are processed. One thread drives a connection, so there is one
call at a time.

A label is a call, a frame, the test at the head of a loop, the end of its time,
or something that the socket does. `conn_poll_once` processes several frames
before the loop goes on, also after a GOAWAY has ended the connection: `batch` says
that it has not returned.
-/

namespace Strimserver.H2c

open Hpack Library

/-! ## Sending a request -/

/-- What `send_request` has come to: all is sent, it waits for credit with some
octets sent, or it has failed. -/
inductive Sending where
  | done (c : Conn)
  | blocked (c : Conn) (sent : ℕ)
  | failed (c : Conn) (err : H2cError)

/-- The loop of `send_request` over the message with its five octets in front, up
to the point where it has to wait. -/
def sendLoop : ℕ → Conn → Slot → (body : Octets) → (frameMax sent : ℕ) → Sending
  | 0, c, _, _, _, _ => .done c
  | fuel + 1, c, i, body, frameMax, sent =>
    if body.length ≤ sent then .done c
    else
      let chunk := min (body.length - sent) frameMax
      let flags := if body.length ≤ sent + chunk then flagEndStream else 0
      let s := c.streams i
      if s.sendWindow < chunk ∨ c.connSendWindow < chunk then .blocked c sent
      else
        let c := c.set i { s with sendWindow := s.sendWindow - chunk }
        let c := { c with connSendWindow := c.connSendWindow - chunk }
        match c.frameWrite ⟨.data, flags, s.id, (body.drop sent).take chunk⟩ with
        | (c, false) => .failed c .io
        | (c, true) => sendLoop fuel c i body frameMax (sent + chunk)

/-- A message with the five octets in front of it. -/
def grpcBody (req : Octets) : Octets := 0 :: be32 req.length ++ req

/-- `send_request` up to the point where it has to wait. -/
def sendRequest (c : Conn) (i : Slot) (path req : Octets) : Sending :=
  match buildRequestHeaders c.enc path c.ns reqHdrBlock with
  | (enc, none) => .failed { c with enc } .proto
  | (enc, some block) =>
    let c := { c with enc }
    match c.frameWrite ⟨.headers, flagEndHeaders, (c.streams i).id, block⟩ with
    | (c, false) => .failed c .io
    | (c, true) => sendLoop (req.length + 5) c i (grpcBody req) c.srvMaxFrame 0

/-- The connection that `send_request` has come to. -/
def Sending.conn : Sending → Conn
  | .done c => c
  | .blocked c _ => c
  | .failed c _ => c

/-! ### Rounds of the loop -/

/-- The connection behind a chunk: the windows are debited. -/
def Conn.charge (c : Conn) (i : Slot) (chunk : ℕ) : Conn :=
  { c.set i { c.streams i with sendWindow := (c.streams i).sendWindow - chunk } with
    connSendWindow := c.connSendWindow - chunk }

/-- How many octets `send_request` puts into its next DATA frame. -/
def chunkSize (body : Octets) (frameMax sent : ℕ) : ℕ := min (body.length - sent) frameMax

/-- The next DATA frame of `send_request`. -/
def chunkFrame (sid : ℕ) (body : Octets) (frameMax sent : ℕ) : Frame where
  type := .data
  flags := if body.length ≤ sent + chunkSize body frameMax sent then flagEndStream else 0
  sid := sid
  payload := (body.drop sent).take (chunkSize body frameMax sent)

/-- There is credit for the next chunk. -/
def Covers (c : Conn) (i : Slot) (chunk : ℕ) : Prop :=
  chunk ≤ (c.streams i).sendWindow ∧ chunk ≤ c.connSendWindow

instance (c : Conn) (i : Slot) (chunk : ℕ) : Decidable (Covers c i chunk) :=
  inferInstanceAs (Decidable (_ ∧ _))

variable (fuel : ℕ) {body : Octets}

theorem sendLoop_of_sent (c : Conn) (i : Slot) (frameMax : ℕ) {sent : ℕ}
    (all : body.length ≤ sent) : sendLoop fuel c i body frameMax sent = .done c := by
  cases fuel with
  | zero => rfl
  | succ => exact if_pos all

variable {frameMax sent : ℕ} {c : Conn}

theorem sendLoop_of_blocked {i : Slot} (unsent : sent < body.length)
    (short : ¬ Covers c i (chunkSize body frameMax sent)) :
    sendLoop (fuel + 1) c i body frameMax sent = .blocked c sent := by
  unfold sendLoop
  rw [if_neg (Nat.not_le.mpr unsent)]
  refine if_pos ?_
  by_contra enough
  obtain ⟨stream, conn⟩ := not_or.mp enough
  exact short ⟨Int.not_lt.mp stream, Int.not_lt.mp conn⟩

/-- A round of the loop that sends a chunk. -/
theorem sendLoop_of_covers {i : Slot} (unsent : sent < body.length)
    (covers : Covers c i (chunkSize body frameMax sent)) :
    sendLoop (fuel + 1) c i body frameMax sent =
      match (c.charge i (chunkSize body frameMax sent)).frameWrite
        (chunkFrame (c.streams i).id body frameMax sent) with
      | (c, false) => .failed c .io
      | (c, true) => sendLoop fuel c i body frameMax (sent + chunkSize body frameMax sent) := by
  conv => lhs; unfold sendLoop
  rw [if_neg (Nat.not_le.mpr unsent)]
  refine if_neg ?_
  rintro (short | short)
  · exact Int.not_lt.mpr covers.1 short
  · exact Int.not_lt.mpr covers.2 short

/-- A property of connections that sending on a stream keeps. -/
structure Sends (P : Conn → Prop) (i : Slot) : Prop where
  enc : ∀ {c : Conn} (enc : Encoder), P c → P { c with enc }
  headers : ∀ {c : Conn} {f : Frame}, f.type = .headers → P c → P (c.frameWrite f).1
  chunk : ∀ {c : Conn} {n : ℕ} {f : Frame}, f.type = .data → Covers c i n → P c →
    P ((c.charge i n).frameWrite f).1

namespace Sends

variable {P : Conn → Prop} {c : Conn} {i : Slot}

theorem sendLoop (sends : Sends P i) (fuel : ℕ) (body : Octets) (frameMax sent : ℕ) (holds : P c) :
    P (sendLoop fuel c i body frameMax sent).conn := by
  induction fuel generalizing c sent with
  | zero => exact holds
  | succ fuel ih =>
    by_cases unsent : sent < body.length
    · by_cases covers : Covers c i (chunkSize body frameMax sent)
      · rw [sendLoop_of_covers fuel unsent covers]
        have written :=
          sends.chunk (f := chunkFrame (c.streams i).id body frameMax sent) rfl covers holds
        split
        · rename_i failed
          rwa [failed] at written
        rename_i next
        rw [next] at written
        exact ih _ written
      · rw [sendLoop_of_blocked fuel unsent covers]
        exact holds
    · rw [sendLoop_of_sent _ c i frameMax (Nat.not_lt.mp unsent)]
      exact holds

theorem sendRequest (sends : Sends P i) (path req : Octets) (holds : P c) :
    P (sendRequest c i path req).conn := by
  unfold H2c.sendRequest
  split
  · exact sends.enc _ holds
  rename_i enc block built
  have written := sends.headers (f := ⟨.headers, flagEndHeaders, (c.streams i).id, block⟩) rfl
    (sends.enc enc holds)
  dsimp only
  split
  · rename_i failed
    rwa [failed] at written
  rename_i next
  rw [next] at written
  exact sends.sendLoop _ _ _ _ written

end Sends

theorem sends_kept (c : Conn) (i : Slot) : Sends (fun c' => c'.kept = c.kept) i where
  enc _ kept := kept
  headers _ kept := (Conn.frameWrite_kept ..).trans kept
  chunk _ _ kept := (Conn.frameWrite_kept ..).trans kept

/-! ## Calls -/

/-- Where a call of the library waits. -/
inductive Call where
  /-- `h2c_connect` waits for the settings of the server. -/
  | connecting
  | idle
  /-- `send_request` waits for credit. -/
  | sending (i : Slot) (body : Octets) (frameMax sent : ℕ)
  /-- `h2c_unary` waits for the response. -/
  | unary (i : Slot)
  /-- `h2c_stream_open` in its grace window. -/
  | opening (i : Slot)
  | next (i : Slot)
  /-- The connection is closed. -/
  | closed

/-- What a call returns. -/
inductive Outcome where
  | connected
  | response (octets : Octets)
  | opened (i : Slot)
  | message (octets : Octets)
  | status (code : ℕ)
  | error (err : H2cError)

/-- The client: its connection, the call, and what calls have returned, the newest
first. -/
structure Client where
  conn : Conn
  call : Call
  batch : Bool
  returned : List Outcome

namespace Client

/-- The call returns. -/
def finish (c : Conn) (outcome : Outcome) (old : Client) : Client :=
  ⟨c, .idle, false, outcome :: old.returned⟩

/-- The error of a call on a dead connection, where only GOAWAY has its own. -/
def deadError (c : Conn) : H2cError := if c.deadCode = some .goaway then .goaway else .io

/-- The error of a call whose connection has died while it waited. -/
def pollError (c : Conn) : H2cError :=
  if c.deadCode = some .goaway then .goaway
  else if c.deadCode = some .proto then .proto
  else .io

/-- After `send_request`: the stream of a failed one is destroyed, and otherwise
the call goes on to wait. -/
def afterSend (old : Client) (i : Slot) (body : Octets) (frameMax : ℕ) : Sending → Client
  | .done c =>
    match (c.streams i).type with
    | .unary => ⟨c, .unary i, false, old.returned⟩
    | .subscribe => ⟨c, .opening i, false, old.returned⟩
  | .blocked c sent => ⟨c, .sending i body frameMax sent, false, old.returned⟩
  | .failed c err => finish (c.streamDestroy i) (.error err) old

/-- The start of `h2c_unary` and of `h2c_stream_open`. -/
def startRequest (old : Client) (type : StreamType) (path req : Octets) (resp : Option ℕ) :
    Client :=
  let c := old.conn
  if c.dead then finish c (.error (deadError c)) old
  else if maxMsg < req.length then finish c (.error .tooBig) old
  else
    match c.streamAlloc type with
    | none => finish c (.error .noStream) old
    | some (i, c) =>
      let c := c.set i
        { c.streams i with resp := resp.map fun _ => [], respCap := resp.getD 0, respLen := 0 }
      afterSend old i (grpcBody req) c.srvMaxFrame (sendRequest c i path req)

/-- The end of `h2c_unary`, for a stream that is done. -/
def endUnary (old : Client) (i : Slot) : Client :=
  let c := old.conn
  let s := c.streams i
  match s.err with
  | some err => finish (c.streamDestroy i) (.error err) old
  | none =>
    if s.status = 0 then
      finish (c.streamDestroy i) (.response ((s.resp.getD []).take s.respLen)) old
    else finish (c.streamDestroy i) (.status s.status) old

/-- The end of `h2c_stream_open`, behind its loop. -/
def endOpen (old : Client) (i : Slot) : Client :=
  let c := old.conn
  let s := c.streams i
  match s.err with
  | some err => finish (c.streamDestroy i) (.error err) old
  | none =>
    if s.state = .done ∧ s.sawHeaders = false then
      finish (c.streamDestroy i)
        (if s.status = 0 then .error .streamEnd else .status s.status) old
    else finish c (.opened i) old

/-- `h2c_stream_next` takes a message from the queue. -/
def takeMessage (old : Client) (i : Slot) (octets : Octets) (rest : List Octets) : Client :=
  let c := old.conn
  let s := c.streams i
  let c := c.set i { s with queue := rest, qBytes := s.qBytes - octets.length }
  finish (c.streamCreditMessage i (octets.length + 5)) (.message octets) old

/-- The head of the loop of `h2c_stream_next`: a message or the end, if there is
one. -/
def nextReady (old : Client) (i : Slot) : Option Client :=
  let s := old.conn.streams i
  match s.queue with
  | octets :: rest => some (takeMessage old i octets rest)
  | [] =>
    if s.state = .done then
      some (finish old.conn
        (match s.err with
          | some err => .error err
          | none => if s.status = 0 then .error .streamEnd else .status s.status) old)
    else none

/-- `h2c_stream_close`. -/
def streamClose (old : Client) (i : Slot) : Client :=
  let c := old.conn
  let s := c.streams i
  if s.inUse then
    let c := if !c.dead && s.state ≠ .done then c.frameWriteRst s.id .cancel else c
    let c := c.set i { s with state := .done, err := some .closed, status := 0 }
    { old with conn := c.streamDestroy i }
  else old

/-- The loop of `h2c_close`. -/
def closeStreams : List Slot → Conn → Conn
  | [], c => c
  | i :: rest, c =>
    let s := c.streams i
    let c := if s.inUse && s.state ≠ .done then c.frameWriteRst s.id .cancel else c
    closeStreams rest (c.streamDestroy i)

/-- The credit that `send_request` waits for is there. -/
def credited (c : Conn) (i : Slot) (body : Octets) (frameMax sent : ℕ) : Bool :=
  let chunk := min (body.length - sent) frameMax
  !(decide ((c.streams i).sendWindow < chunk) || decide (c.connSendWindow < chunk))

/-! ## Steps -/

/-- What can happen. -/
inductive Label where
  /-- `h2c_unary`, with the capacity of the response unless that is null. -/
  | unary (path req : Octets) (resp : Option ℕ)
  | streamOpen (path req : Octets)
  | streamNext (i : Slot)
  | streamClose (i : Slot)
  | close
  /-- A frame is processed. -/
  | frame (f : Frame)
  /-- The loop goes on. -/
  | check
  /-- The time of the loop is over. -/
  | expire
  /-- Reading fails, or the server has closed the socket. -/
  | readError
  /-- The number of frames that can be written changes. -/
  | socket (writable : Option ℕ)

/-- The call is at a loop that processes frames. -/
def polling : Call → Bool
  | .idle => false
  | .closed => false
  | _ => true

/-- A frame in `conn_poll_once`. -/
def pollFrame (old : Client) (f : Frame) : Client :=
  match old.conn.processOneFrame f with
  | (c, true) => { old with conn := c, batch := true }
  | (c, false) => { old with conn := c.connFail .proto, batch := false }

/-- The loop goes on, if something has changed for it. -/
def check (old : Client) : Option Client :=
  let c := old.conn
  match old.call with
  | .connecting =>
    if c.dead then some ⟨c, .closed, false, .error .io :: old.returned⟩
    else if c.ready then some (finish c .connected old)
    else none
  | .sending i body frameMax sent =>
    if c.dead then some (finish (c.streamDestroy i) (.error (deadError c)) old)
    else if (c.streams i).state = .done then
      some (finish (c.streamDestroy i) (.error .proto) old)
    else if credited c i body frameMax sent then
      some (afterSend old i body frameMax (sendLoop (body.length - sent) c i body frameMax sent))
    else none
  | .unary i =>
    if (c.streams i).state = .done then some (endUnary old i)
    else if c.dead then some (finish (c.streamDestroy i) (.error (pollError c)) old)
    else none
  | .opening i =>
    if (c.streams i).state ≠ .sent then some (endOpen old i)
    else if c.dead then some (finish (c.streamDestroy i) (.error (pollError c)) old)
    else none
  | .next i =>
    match nextReady old i with
    | some c => some c
    | none => if c.dead then some (finish c (.error (pollError c)) old) else none
  | .idle => none
  | .closed => none

/-- The time of the loop is over. -/
def expire (old : Client) : Option Client :=
  let c := old.conn
  match old.call with
  | .connecting =>
    if c.ready then none else some ⟨c, .closed, false, .error .timeout :: old.returned⟩
  | .sending i body frameMax sent =>
    if (c.streams i).state = .done ∨ credited c i body frameMax sent then none
    else some (finish (c.streamDestroy i) (.error .timeout) old)
  | .unary i =>
    if (c.streams i).state = .done then none
    else
      some (finish ((c.frameWriteRst (c.streams i).id .cancel).streamDestroy i)
        (.error .timeout) old)
  | .opening i => some (endOpen old i)
  | .next i =>
    match nextReady old i with
    | some _ => none
    | none => some (finish c (.error .timeout) old)
  | .idle => none
  | .closed => none

/-- A step of the client. -/
def step (old : Client) (label : Label) : Option Client :=
  let c := old.conn
  match label with
  | .socket writable => some { old with conn := { c with writable } }
  | .frame f => if polling old.call ∧ (!c.dead || old.batch) then some (pollFrame old f) else none
  | .readError =>
    if polling old.call ∧ (!c.dead || old.batch) then
      some { old with conn := c.connFail .io, batch := false }
    else none
  | .check => check old
  | .expire => if c.dead then none else expire old
  | label =>
    match old.call with
    | .idle =>
      match label with
      | .unary path req resp => some (startRequest old .unary path req resp)
      | .streamOpen path req => some (startRequest old .subscribe path req none)
      | .streamNext i =>
        if (c.streams i).inUse then some { old with call := .next i }
        else some (finish c (.error .closed) old)
      | .streamClose i => some (streamClose old i)
      | .close => some { old with conn := closeStreams (List.finRange 8) c, call := .closed }
      | _ => none
    | _ => none

/-- The settings that `h2c_connect` sends. -/
def connectSettings : Octets :=
  [0, 2, 0, 0, 0, 0, 0, 3, 0, 0, 0, 100, 0, 4, 0, 0, 0xff, 0xff, 0, 5, 0, 0, 0x40, 0, 0, 1, 0, 0,
    0x10, 0]

/-- `h2c_connect` at its loop. -/
def connecting (ns : Octets) : Client :=
  ⟨((Conn.fresh ns).frameWrite ⟨.settings, 0, 0, connectSettings⟩).1, .connecting, false, []⟩

/-! ## What a step does -/

/-- The slot that a step can free: that of a call that gives its stream up, or the one
that the consumer closes. -/
def frees (old : Client) (label : Label) : Option Slot :=
  match label with
  | .streamClose i => if (old.conn.streams i).inUse then some i else none
  | .check | .expire =>
    match old.call with
    | .sending i _ _ _ => some i
    | .unary i => some i
    | .opening i =>
      if (old.conn.streams i).err.isSome = true ∨ old.conn.dead = true ∨
          ((old.conn.streams i).state = .done ∧ (old.conn.streams i).sawHeaders = false) then
        some i
      else none
    | _ => none
  | _ => none

/-- What a step can return: a status that is not 0, and a response from a stream that is
done with status 0. -/
def Justified (old : Client) : Outcome → Prop
  | .status code => code ≠ 0
  | .response octets => ∃ i, old.call = .unary i ∧ (old.conn.streams i).state = .done ∧
      (old.conn.streams i).err = none ∧ (old.conn.streams i).status = 0 ∧
      octets = ((old.conn.streams i).resp.getD []).take (old.conn.streams i).respLen
  | _ => True

/-- What a step does, with the case in which it does it. -/
inductive Stepped (old : Client) : Label → Client → Prop where
  | socket (writable : Option ℕ) :
      Stepped old (.socket writable) { old with conn := { old.conn with writable } }
  | frame (f : Frame) : Stepped old (.frame f) (pollFrame old f)
  | readError : Stepped old .readError { old with conn := old.conn.connFail .io, batch := false }
  /-- `h2c_connect` gives up. -/
  | refused {label : Label} {err : H2cError} (loop : label = .check ∨ label = .expire)
      (call : old.call = .connecting) :
      Stepped old label ⟨old.conn, .closed, false, .error err :: old.returned⟩
  /-- A call returns, and its stream stays. -/
  | returned {label : Label} {outcome : Outcome} (loop : label = .check ∨ label = .expire)
      (empty : ∀ i, old.call = .next i → (old.conn.streams i).queue = [])
      (other : ∀ m, outcome ≠ .message m) (justified : old.Justified outcome) :
      Stepped old label (finish old.conn outcome old)
  /-- A call returns, and its stream is destroyed. -/
  | gaveUp {label : Label} {i : Slot} {outcome : Outcome} (frees : old.frees label = some i)
      (loop : label = .check ∨ label = .expire)
      (past : old.conn.dead = true ∨ (old.conn.streams i).state = .done ∨
        (old.conn.streams i).err.isSome = true ∨
        label = .expire ∧ ∃ body frameMax sent, old.call = .sending i body frameMax sent)
      (justified : old.Justified outcome) :
      Stepped old label (finish (old.conn.streamDestroy i) outcome old)
  /-- `h2c_unary` gives its stream up. -/
  | cancelled {i : Slot} (call : old.call = .unary i) :
      Stepped old .expire
        (finish ((old.conn.frameWriteRst (old.conn.streams i).id .cancel).streamDestroy i)
          (.error .timeout) old)
  /-- There is credit, and `send_request` goes on. -/
  | resumed {i : Slot} {body : Octets} {frameMax sent : ℕ}
      (call : old.call = .sending i body frameMax sent) (live : old.conn.dead = false)
      (going : (old.conn.streams i).state ≠ .done)
      (credit : credited old.conn i body frameMax sent = true) :
      Stepped old .check (afterSend old i body frameMax
        (sendLoop (body.length - sent) old.conn i body frameMax sent))
  | took {i : Slot} {m : Octets} {rest : List Octets} (call : old.call = .next i)
      (queue : (old.conn.streams i).queue = m :: rest) :
      Stepped old .check (takeMessage old i m rest)
  | unary (path req : Octets) (resp : Option ℕ) (idle : old.call = .idle) :
      Stepped old (.unary path req resp) (startRequest old .unary path req resp)
  | streamOpen (path req : Octets) (idle : old.call = .idle) :
      Stepped old (.streamOpen path req) (startRequest old .subscribe path req none)
  | streamNext (i : Slot) (idle : old.call = .idle) (inUse : (old.conn.streams i).inUse = true) :
      Stepped old (.streamNext i) { old with call := .next i }
  | missed (i : Slot) (idle : old.call = .idle) (unused : (old.conn.streams i).inUse = false) :
      Stepped old (.streamNext i) (finish old.conn (.error .closed) old)
  | streamClose (i : Slot) (idle : old.call = .idle) :
      Stepped old (.streamClose i) (Client.streamClose old i)
  | close (idle : old.call = .idle) :
      Stepped old .close
        { old with conn := closeStreams (List.finRange 8) old.conn, call := .closed }

variable {old new : Client} {label : Label} {i : Slot}

theorem endOpen_stepped (call : old.call = .opening i) (loop : label = .check ∨ label = .expire) :
    Stepped old label (endOpen old i) := by
  have frees (why : (old.conn.streams i).err.isSome = true ∨ old.conn.dead = true ∨
      ((old.conn.streams i).state = .done ∧ (old.conn.streams i).sawHeaders = false)) :
      old.frees label = some i := by
    rcases loop with rfl | rfl <;> unfold Client.frees <;> dsimp only <;> rw [call] <;>
      exact if_pos why
  unfold endOpen
  dsimp only
  split
  · rename_i err error
    have error : (old.conn.streams i).err.isSome = true := by rw [error]; rfl
    exact .gaveUp (frees (.inl error)) loop (.inr (.inr (.inl error))) trivial
  split
  · rename_i trailers
    refine .gaveUp (frees (.inr (.inr trailers))) loop (.inr (.inl trailers.1)) ?_
    split
    · trivial
    · rename_i failed
      exact failed
  · refine .returned loop (fun j next => ?_) (fun m => nofun) trivial
    cases call.symm.trans next

theorem nextReady_stepped (call : old.call = .next i) (ready : nextReady old i = some new) :
    Stepped old .check new := by
  unfold nextReady at ready
  dsimp only at ready
  split at ready
  · rename_i m rest queue
    cases ready
    exact .took call queue
  rename_i empty
  split at ready <;> cases ready
  refine .returned (.inl rfl) (fun j next => ?_) ?_ ?_
  · cases call.symm.trans next
    exact empty
  · split
    · exact fun m => nofun
    · split <;> exact fun m => nofun
  split
  · trivial
  split
  · trivial
  · rename_i failed
    exact failed

theorem returned_next {err : H2cError} (call : old.call = .next i) (waits : nextReady old i = none)
    (loop : label = .check ∨ label = .expire) :
    Stepped old label (finish old.conn (.error err) old) := by
  refine .returned loop (fun j next => ?_) (fun m => nofun) trivial
  cases call.symm.trans next
  unfold nextReady at waits
  dsimp only at waits
  split at waits
  · cases waits
  · assumption

theorem check_stepped (checked : check old = some new) : Stepped old .check new := by
  unfold check at checked
  dsimp only at checked
  split at checked
  · rename_i call
    split_ifs at checked <;> cases checked
    · exact .refused (.inl rfl) call
    · exact .returned (.inl rfl) (fun i next => by cases call.symm.trans next)
        (fun m => nofun) trivial
  · rename_i i body frameMax sent call
    have frees : old.frees .check = some i := by simp [frees, call]
    split_ifs at checked with dead done credit <;> cases checked
    · exact .gaveUp frees (.inl rfl) (.inl dead) trivial
    · exact .gaveUp frees (.inl rfl) (.inr (.inl done)) trivial
    · exact .resumed call (Bool.eq_false_iff.mpr dead) done credit
  · rename_i i call
    split_ifs at checked with done dead <;> cases checked
    · have frees : old.frees .check = some i := by simp [frees, call]
      unfold endUnary
      dsimp only
      split
      · exact .gaveUp frees (.inl rfl) (.inr (.inl done)) trivial
      rename_i clean
      split
      · rename_i zero
        exact .gaveUp frees (.inl rfl) (.inr (.inl done)) ⟨i, call, done, clean, zero, rfl⟩
      · rename_i failed
        exact .gaveUp frees (.inl rfl) (.inr (.inl done)) failed
    · exact .gaveUp (by simp [frees, call]) (.inl rfl) (.inl dead) trivial
  · rename_i i call
    split_ifs at checked with open' dead <;> cases checked
    · exact endOpen_stepped call (.inl rfl)
    · exact .gaveUp (by simp [frees, call, dead]) (.inl rfl) (.inl dead) trivial
  · rename_i i call
    split at checked
    · rename_i ready
      cases checked
      exact nextReady_stepped call ready
    rename_i waits
    split at checked <;> cases checked
    exact returned_next call waits (.inl rfl)
  · cases checked
  · cases checked

theorem expire_stepped (expired : expire old = some new) : Stepped old .expire new := by
  unfold expire at expired
  dsimp only at expired
  split at expired
  · rename_i call
    split at expired <;> cases expired
    exact .refused (.inr rfl) call
  · rename_i i body frameMax sent call
    split at expired <;> cases expired
    exact .gaveUp (by simp [frees, call]) (.inr rfl)
      (.inr (.inr (.inr ⟨rfl, body, frameMax, sent, call⟩))) trivial
  · rename_i i call
    split at expired <;> cases expired
    exact .cancelled call
  · rename_i i call
    cases expired
    exact endOpen_stepped call (.inr rfl)
  · rename_i i call
    split at expired <;> cases expired
    rename_i waits
    exact returned_next call waits (.inr rfl)
  · cases expired
  · cases expired

/-- **What a step does.** -/
theorem stepped (step : old.step label = some new) : Stepped old label new := by
  unfold Client.step at step
  dsimp only at step
  split at step
  · cases step
    exact .socket _
  · split at step <;> cases step
    exact .frame _
  · split at step <;> cases step
    exact .readError
  · exact check_stepped step
  · split at step
    · cases step
    · exact expire_stepped step
  split at step
  · rename_i idle
    split at step
    · cases step
      exact .unary _ _ _ idle
    · cases step
      exact .streamOpen _ _ idle
    · split_ifs at step with inUse <;> cases step
      · exact .streamNext _ idle inUse
      · exact .missed _ idle (Bool.eq_false_iff.mpr inUse)
    · cases step
      exact .streamClose _ idle
    · cases step
      exact .close idle
    · cases step
  · cases step

/-! ## What the steps keep -/

/-- A step that processes no frame: it keeps what `kept` names, or the connection
dies. -/
def Quiet (old new : Client) : Prop :=
  (new.conn.kept = old.conn.kept ∧ (new.batch = true → old.batch = true)) ∨
    (new.conn.dead = true ∧ new.batch = false)

theorem Quiet.refl (old : Client) : Quiet old old := .inl ⟨rfl, id⟩

theorem finish_quiet (outcome : Outcome) (kept : c.kept = old.conn.kept) :
    Quiet old (finish c outcome old) := .inl ⟨kept, nofun⟩

theorem afterSend_quiet (i : Slot) (body : Octets) (frameMax : ℕ) {sending : Sending}
    (kept : sending.conn.kept = old.conn.kept) :
    Quiet old (afterSend old i body frameMax sending) := by
  cases sending with
  | done =>
    unfold afterSend
    dsimp only
    split <;> exact .inl ⟨kept, nofun⟩
  | blocked => exact .inl ⟨kept, nofun⟩
  | failed => exact finish_quiet _ kept

theorem streamClose_quiet (old : Client) (i : Slot) : Quiet old (streamClose old i) := by
  unfold streamClose
  dsimp only
  split
  · refine .inl ⟨?_, id⟩
    split
    · exact Conn.frameWriteRst_kept ..
    · rfl
  · exact .refl old

theorem closeStreams_kept (slots : List Slot) (c : Conn) :
    (closeStreams slots c).kept = c.kept := by
  induction slots generalizing c with
  | nil => rfl
  | cons i slots ih =>
    unfold closeStreams
    rw [ih, Conn.streamDestroy_kept]
    split
    · exact Conn.frameWriteRst_kept ..
    · rfl

theorem connFail_dead (c : Conn) (code : H2cError) : (c.connFail code).dead = true := by
  unfold Conn.connFail
  split
  · assumption
  · rfl

/-- **A step without a frame is quiet.** -/
theorem step_quiet (step : old.step label = some new) (noFrame : ∀ f, label ≠ .frame f) :
    Quiet old new := by
  cases stepped step with
  | socket | streamNext => exact .inl ⟨rfl, id⟩
  | frame f => exact absurd rfl (noFrame f)
  | readError => exact .inr ⟨connFail_dead .., rfl⟩
  | refused => exact .inl ⟨rfl, nofun⟩
  | returned | gaveUp | missed => exact finish_quiet _ rfl
  | cancelled => exact finish_quiet _ (Conn.frameWriteRst_kept ..)
  | @resumed i => exact afterSend_quiet _ _ _ ((sends_kept _ i).sendLoop _ _ _ _ rfl)
  | took => exact finish_quiet _ ((Conn.steady_kept _).streamCreditMessage _ _ rfl)
  | unary | streamOpen =>
    unfold startRequest
    dsimp only
    split
    · exact finish_quiet _ rfl
    split
    · exact finish_quiet _ rfl
    split
    · exact finish_quiet _ rfl
    rename_i i c found
    have alloc := Conn.streamAlloc_kept found
    exact afterSend_quiet _ _ _ ((sends_kept _ i).sendRequest _ _ alloc)
  | streamClose => exact streamClose_quiet ..
  | close => exact .inl ⟨closeStreams_kept .., id⟩

end Client

end Strimserver.H2c
