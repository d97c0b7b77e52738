import Strimserver.H2c.HeaderContiguity
import Strimserver.H2c.Requests

/-!
# Progress of a request

`send_request` waits until both windows cover the whole of its next chunk. The server here
conforms to HTTP/2 and gives back exactly the credit for the octets that it has read, for
the connection and for the stream, in portions and at times of its choice. The socket takes
every frame, and no time runs out.

Every step lowers a rank, so every run is finite, and what matters is where a run ends: a
request that is not sent there is never sent.

**Main result** (`sending_progress`): a client that waits goes on whenever both windows are
positive just if they then cover the next chunk. And a request is sent completely in every
run against such a server just if both windows cover its first chunk at the start.
-/

namespace Strimserver.H2c

open Hpack Library Function List Option

/-! ## A server that gives credit back -/

/-- A WINDOW_UPDATE frame of the server. -/
inductive Credit where
  | conn (n : ℕ)
  | stream (n : ℕ)

def Credit.frame (sid : ℕ) : Credit → Frame
  | conn n => ⟨.windowUpdate, 0, 0, be32 n⟩
  | stream n => ⟨.windowUpdate, 0, sid, be32 n⟩

def Credit.connPart : Credit → ℕ
  | conn n => n
  | stream _ => 0

def Credit.streamPart : Credit → ℕ
  | conn _ => 0
  | stream n => n

/-- A client with its request, and the server. -/
structure Crediting where
  client : Client
  /-- How many frames the server has read. -/
  seen : ℕ
  /-- Octets that were read and not given back to the connection. -/
  owedConn : ℕ
  /-- Octets that were read and not given back to the stream. -/
  owedStream : ℕ
  inflight : List Credit

namespace Crediting

/-- What can happen. -/
inductive Label where
  /-- The server reads a frame. -/
  | read
  /-- The server gives credit back. -/
  | credit (credit : Credit)
  /-- The client processes a frame. -/
  | deliver
  /-- The loop of the client goes on. -/
  | check

def waiting : Call → Bool
  | .sending .. => true
  | _ => false

def step (sid : ℕ) (s : Crediting) : Label → Option Crediting
  | .read =>
    s.client.conn.written[s.seen]?.map fun f =>
      { s with
        seen := s.seen + 1
        owedConn := s.owedConn + f.payload.length
        owedStream := s.owedStream + f.payload.length }
  | .credit credit =>
    if 0 < credit.connPart + credit.streamPart ∧ credit.connPart ≤ s.owedConn ∧
        credit.streamPart ≤ s.owedStream then
      some { s with
        owedConn := s.owedConn - credit.connPart
        owedStream := s.owedStream - credit.streamPart
        inflight := s.inflight ++ [credit] }
    else none
  | .deliver =>
    match s.inflight with
    | [] => none
    | credit :: rest =>
      (s.client.step (.frame (credit.frame sid))).map fun client =>
        { s with client, inflight := rest }
  | .check =>
    if waiting s.client.call then (s.client.step .check).map fun client => { s with client }
    else none

end Crediting

/-- The runs of a request on a stream against a server that gives credit back. -/
def crediting (sid : ℕ) : Machine Crediting Crediting.Label where
  initial _ := True
  step := Crediting.step sid

/-! ## What the loop spends -/

/-- What a run of the loop does to the connection when the socket takes every frame. -/
structure Spent (c c' : Conn) (i : Slot) (n : ℕ) : Prop where
  conn : c'.connSendWindow = c.connSendWindow - n
  streams : c'.streams =
    Function.update c.streams i { c.streams i with sendWindow := (c.streams i).sendWindow - n }
  written : ∃ fs, c'.written = c.written ++ fs ∧ payloadLength fs = n ∧ fs.length ≤ n
  writable : c'.writable = c.writable
  dead : c'.dead = c.dead

theorem Spent.refl (c : Conn) (i : Slot) : Spent c c i 0 where
  conn := by simp
  streams := by simp
  written := ⟨[], by simp, rfl, Nat.le_refl _⟩
  writable := rfl
  dead := rfl

theorem payloadLength_append (fs gs : List Frame) :
    payloadLength (fs ++ gs) = payloadLength fs + payloadLength gs := by
  rw [payloadLength, map_append, sum_append]
  rfl

variable {i : Slot} {frameMax sent : ℕ} {c : Conn} {body : Octets}

theorem Spent.trans {c' c'' : Conn} {n m : ℕ} (first : Spent c c' i n) (second : Spent c' c'' i m) :
    Spent c c'' i (n + m) where
  conn := by
    rw [second.conn, first.conn]
    omega
  streams := by
    rw [second.streams, first.streams, update_idem, update_self]
    refine congrArg (Function.update c.streams i) ?_
    show Stream.mk .. = Stream.mk ..
    congr 1
    push_cast
    omega
  written := by
    obtain ⟨fs, written, octets, count⟩ := first.written
    obtain ⟨gs, written', octets', count'⟩ := second.written
    refine ⟨fs ++ gs, by rw [written', written, append_assoc], ?_, ?_⟩
    · rw [payloadLength_append, octets, octets']
    · rw [length_append]
      omega
  writable := second.writable.trans first.writable
  dead := second.dead.trans first.dead

/-- A chunk that is written when the socket takes every frame. -/
theorem spent_chunk {f : Frame} (free : c.writable = none) (size : 0 < f.payload.length)
    (short : f.payload.length ≤ 0xffffff) :
    ∃ c', (c.charge i f.payload.length).frameWrite f = (c', true) ∧
      Spent c c' i f.payload.length := by
  refine ⟨{ c.charge i f.payload.length with writable := none, written := c.written ++ [f] },
    ?_, ?_⟩
  · unfold Conn.frameWrite
    rw [if_neg (Nat.not_lt.mpr short), show (c.charge i f.payload.length).writable = none from free]
    rfl
  · exact ⟨rfl, rfl, ⟨[f], rfl, Nat.add_zero _, size⟩, free.symm, rfl⟩

/-- Where the loop stops, from a connection on. -/
structure Stops (c : Conn) (i : Slot) (body : Octets) (frameMax sent : ℕ) (result : Sending) :
    Prop where
  intro ::
  spent : ∃ c' sent', Spent c c' i (sent' - sent) ∧ sent ≤ sent' ∧
    (sent < body.length → Covers c i (chunkSize body frameMax sent) → sent < sent') ∧
    ((result = .done c' ∧ sent' = body.length) ∨
      (result = .blocked c' sent' ∧ sent' < body.length ∧
        ¬ Covers c' i (chunkSize body frameMax sent')))

theorem sendLoop_stops (fuel : ℕ) (i : Slot)
    (free : c.writable = none) (pos : 0 < frameMax) (small : frameMax ≤ 0xffffff)
    (enough : body.length - sent ≤ fuel) (start : sent ≤ body.length) :
    Stops c i body frameMax sent (sendLoop fuel c i body frameMax sent) := by
  induction fuel generalizing c sent with
  | zero =>
    have all : sent = body.length := by omega
    refine ⟨c, sent, ?_, Nat.le_refl _, fun unsent => by omega, .inl ⟨rfl, all⟩⟩
    rw [Nat.sub_self]
    exact .refl c i
  | succ fuel ih =>
    by_cases unsent : sent < body.length
    · by_cases covers : Covers c i (chunkSize body frameMax sent)
      · have length := length_chunkFrame (c.streams i).id body frameMax sent
        have size : 0 < chunkSize body frameMax sent ∧ chunkSize body frameMax sent ≤ frameMax ∧
            sent + chunkSize body frameMax sent ≤ body.length := by
          unfold chunkSize
          omega
        obtain ⟨c', written, spent⟩ := spent_chunk (i := i)
          (f := chunkFrame (c.streams i).id body frameMax sent) free (by omega) (by omega)
        rw [length] at written spent
        rw [sendLoop_of_covers fuel unsent covers, written]
        have less : body.length - (sent + chunkSize body frameMax sent) ≤ fuel := by omega
        obtain ⟨c'', sent', spent', le, -, result⟩ := ih (spent.writable.trans free) less size.2.2
        refine ⟨c'', sent', ?_, by omega, fun _ _ => by omega, result⟩
        have total := spent.trans spent'
        rwa [show chunkSize body frameMax sent + (sent' - (sent + chunkSize body frameMax sent)) =
          sent' - sent by omega] at total
      rw [sendLoop_of_blocked fuel unsent covers]
      refine ⟨c, sent, ?_, Nat.le_refl _, fun _ covers' => absurd covers' covers,
        .inr ⟨rfl, unsent, covers⟩⟩
      rw [Nat.sub_self]
      exact .refl c i
    rw [sendLoop_of_sent _ c i frameMax (Nat.not_lt.mp unsent)]
    refine ⟨c, sent, ?_, Nat.le_refl _, fun unsent' => absurd unsent' unsent,
      .inl ⟨rfl, by omega⟩⟩
    rw [Nat.sub_self]
    exact .refl c i

/-! ## The invariant of a run -/

/-- A request, with the windows at its start. -/
structure Setup where
  slot : Slot
  sid : ℕ
  body : Octets
  frameMax : ℕ
  connWindow : ℤ
  streamWindow : ℤ

/-- The stream is not the connection, the numbers are what the code admits, and the windows
are of 32 bits. -/
structure Setup.Valid (r : Setup) : Prop where
  sid : r.sid ≠ 0
  frameMax : 0 < r.frameMax ∧ r.frameMax ≤ 0xffffff
  body : r.body.length < 2 ^ 31
  connWindow : r.connWindow ≤ maxWindow
  streamWindow : r.streamWindow ≤ maxWindow

/-- Both windows at the start cover the first chunk. -/
def Setup.Covered (r : Setup) : Prop :=
  (min r.body.length r.frameMax : ℕ) ≤ r.streamWindow ∧
    (min r.body.length r.frameMax : ℕ) ≤ r.connWindow

namespace Crediting

/-- Frames that the server has not read. -/
def unread (s : Crediting) : List Frame := s.client.conn.written.drop s.seen

def flightConn (s : Crediting) : ℕ := (s.inflight.map Credit.connPart).sum

def flightStream (s : Crediting) : ℕ := (s.inflight.map Credit.streamPart).sum

/-- How much of the request was sent. -/
def sentOf (body : Octets) : Call → ℕ
  | .sending _ _ _ sent => sent
  | _ => body.length

/-- The request waits for credit or is sent, and every octet that was sent is still
unread, owed, in flight or back in the windows. -/
structure Inv (r : Setup) (s : Crediting) : Prop where
  live : s.client.conn.dead = false
  within : s.client.conn.allowance.Within
  writable : s.client.conn.writable = none
  found : s.client.conn.streamFind r.sid = some r.slot
  going : (s.client.conn.streams r.slot).state ≠ .done
  call : (∃ sent, s.client.call = .sending r.slot r.body r.frameMax sent ∧ sent < r.body.length) ∨
    Client.awaits s.client.call = true
  conn : s.client.conn.connSendWindow +
    (payloadLength s.unread + s.owedConn + s.flightConn : ℕ) = r.connWindow
  stream : (s.client.conn.streams r.slot).sendWindow +
    (payloadLength s.unread + s.owedStream + s.flightStream : ℕ) = r.streamWindow
  spentConn : payloadLength s.unread + s.owedConn + s.flightConn ≤ sentOf r.body s.client.call
  spentStream : payloadLength s.unread + s.owedStream + s.flightStream ≤ sentOf r.body s.client.call
  sent : sentOf r.body s.client.call ≤ r.body.length
  credit : ∀ credit ∈ s.inflight, 0 < credit.connPart + credit.streamPart
  seen : s.seen ≤ s.client.conn.written.length

/-- The rank of a state: an octet that is unsent weighs more than one that is unread, and
that more than one that is owed twice. -/
def rank (body : Octets) (s : Crediting) : ℕ :=
  6 * (body.length - sentOf body s.client.call) + 4 * payloadLength s.unread + s.unread.length +
    2 * s.owedConn + 2 * s.owedStream + s.inflight.length

variable {r : Setup} {s s' : Crediting}

theorem polling_of_inv (inv : Inv r s) : Client.polling s.client.call = true := by
  rcases inv.call with ⟨sent, call, -⟩ | awaits
  · rw [call]
    rfl
  cases call : s.client.call with
  | unary | opening | connecting | sending | next => rfl
  | idle | closed => rw [call] at awaits; cases awaits

theorem read_inv (inv : Inv r s) (step : s.step r.sid .read = some s') :
    Inv r s' ∧ s'.rank r.body < s.rank r.body := by
  obtain ⟨f, next, rfl⟩ := map_eq_some_iff.mp step
  obtain ⟨bound, rfl⟩ := List.getElem?_eq_some_iff.mp next
  have split :
      s.unread = s.client.conn.written[s.seen] :: s.client.conn.written.drop (s.seen + 1) :=
    drop_eq_getElem_cons bound
  have octets : payloadLength s.unread = s.client.conn.written[s.seen].payload.length +
      payloadLength (s.client.conn.written.drop (s.seen + 1)) := by
    rw [split]
    rfl
  have count : s.unread.length = (s.client.conn.written.drop (s.seen + 1)).length + 1 := by
    rw [split]
    rfl
  obtain ⟨live, within, writable, found, going, call, conn, stream, spentConn, spentStream, sent,
    credit, -⟩ := inv
  refine ⟨⟨live, within, writable, found, going, call, ?_, ?_, ?_, ?_, sent, credit, bound⟩, ?_⟩
  all_goals
    simp only [rank, unread, flightConn,
      flightStream] at octets count conn stream spentConn spentStream ⊢
    omega

theorem credit_inv (inv : Inv r s) {credit : Credit}
    (step : s.step r.sid (.credit credit) = some s') :
    Inv r s' ∧ s'.rank r.body < s.rank r.body := by
  unfold Crediting.step at step
  dsimp only at step
  split at step <;> cases step
  rename_i admitted
  obtain ⟨live, within, writable, found, going, call, conn, stream, spentConn, spentStream, sent,
    positive, seen⟩ := inv
  refine ⟨⟨live, within, writable, found, going, call, ?_, ?_, ?_, ?_, sent, ?_, seen⟩, ?_⟩
  case refine_5 =>
    intro c mem
    rcases mem_append.mp mem with before | now
    · exact positive c before
    · obtain rfl := mem_singleton.mp now
      exact admitted.1
  all_goals
    simp only [rank, unread, flightConn, flightStream, map_append, sum_append, map_cons, map_nil,
      sum_cons, sum_nil, length_append, length_cons,
      length_nil] at conn stream spentConn spentStream ⊢
    omega

/-! ### The client -/

/-- A window that gets credit which is known to fit. -/
theorem int32_credit {window : ℤ} {n : ℕ} (fits : Fits window) (bound : window + n ≤ maxWindow)
    (small : n < 2 ^ 31) : int32 (window + int32 n) = window + n := by
  have moved := (Conn.moved_eq_iff fits (Nat.lt_trans small (by decide))).mpr
    ⟨small, by rwa [Nat.mod_eq_of_lt small]⟩
  rwa [Nat.mod_eq_of_lt small] at moved

/-- What a WINDOW_UPDATE of the server does to the connection. -/
def credited (c : Conn) (i : Slot) (credit : Credit) : Conn :=
  { c.set i { c.streams i with sendWindow := (c.streams i).sendWindow + credit.streamPart } with
    connSendWindow := c.connSendWindow + credit.connPart }

theorem processOneFrame_credit (within : c.allowance.Within) {sid : ℕ} (stream : sid ≠ 0)
    (found : c.streamFind sid = some i) {credit : Credit}
    (positive : 0 < credit.connPart + credit.streamPart)
    (connBound : c.connSendWindow + credit.connPart ≤ maxWindow)
    (streamBound : (c.streams i).sendWindow + credit.streamPart ≤ maxWindow)
    (small : credit.connPart < 2 ^ 31 ∧ credit.streamPart < 2 ^ 31) :
    c.processOneFrame (credit.frame sid) = (credited c i credit, true) := by
  cases credit with
  | conn n =>
    have value := readBe32_be32 (n := n) (Nat.lt_trans small.1 (by decide : 2 ^ 31 < 2 ^ 32))
    have pos : 0 < n := positive
    show c.handleWindowUpdate 0 (be32 n) = _
    rw [be32, Conn.handleWindowUpdate_conn c (by rw [value]; exact pos.ne'), value,
      int32_credit (n := n) (show Fits c.connSendWindow from within.conn) connBound small.1]
    unfold credited
    have same : c.set i { c.streams i with
        sendWindow := (c.streams i).sendWindow + (Credit.conn n).streamPart } = c := by
      have idle : (c.streams i).sendWindow + ((Credit.conn n).streamPart : ℕ) =
          (c.streams i).sendWindow := add_zero _
      rw [idle]
      exact congrArg (fun streams => { c with streams }) (update_eq_self i c.streams)
    rw [same]
    rfl
  | stream n =>
    have value := readBe32_be32 (n := n) (Nat.lt_trans small.2 (by decide : 2 ^ 31 < 2 ^ 32))
    have pos : 0 < n := by simpa [Credit.connPart, Credit.streamPart] using positive
    show c.handleWindowUpdate sid (be32 n) = _
    rw [be32, Conn.handleWindowUpdate_stream stream found (by rw [value]; exact pos.ne'), value,
      int32_credit (n := n) (show Fits (c.streams i).sendWindow from within.streams i)
        streamBound small.2]
    unfold credited
    have idle : c.connSendWindow + ((Credit.stream n).connPart : ℕ) = c.connSendWindow := add_zero _
    rw [idle]
    rfl

theorem update_same (streams : Slot → Stream) (i : Slot) (window : ℤ) (j : Slot) :
    (Function.update streams i { streams i with sendWindow := window } j).inUse =
      (streams j).inUse ∧
      (Function.update streams i { streams i with sendWindow := window } j).id =
        (streams j).id := by
  by_cases here : j = i
  · subst here
    rw [update_self]
    exact ⟨rfl, rfl⟩
  · rw [update_of_ne here]
    exact ⟨rfl, rfl⟩

theorem deliver_inv (valid : r.Valid) (inv : Inv r s) (step : s.step r.sid .deliver = some s') :
    Inv r s' ∧ s'.rank r.body < s.rank r.body := by
  have polling := polling_of_inv inv
  unfold Crediting.step at step
  dsimp only at step
  split at step
  · cases step
  rename_i credit rest inflight
  obtain ⟨client, delivered, rfl⟩ := map_eq_some_iff.mp step
  obtain ⟨live, within, writable, found, going, call, conn, stream, spentConn, spentStream, sent,
    positive, seen⟩ := inv
  have small := valid.body
  have bounds := And.intro valid.connWindow valid.streamWindow
  have flightConn : s.flightConn = credit.connPart + (rest.map Credit.connPart).sum := by
    rw [Crediting.flightConn, inflight]
    rfl
  have flightStream : s.flightStream = credit.streamPart + (rest.map Credit.streamPart).sum := by
    rw [Crediting.flightStream, inflight]
    rfl
  have processed := processOneFrame_credit within valid.sid found
    (positive credit (inflight ▸ mem_cons_self)) (by omega) (by omega)
    ⟨by omega, by omega⟩
  obtain rfl : { s.client with conn := credited s.client.conn r.slot credit, batch := true } =
      client := by
    change (if _ then some (s.client.pollFrame (credit.frame r.sid)) else none) =
      some client at delivered
    rw [if_pos ⟨polling, by rw [live]; rfl⟩] at delivered
    have polled := Option.some.inj delivered
    unfold Client.pollFrame at polled
    rw [processed] at polled
    exact polled
  have window : ((credited s.client.conn r.slot credit).streams r.slot) =
      { s.client.conn.streams r.slot with
        sendWindow := (s.client.conn.streams r.slot).sendWindow + credit.streamPart } :=
    update_self ..
  refine ⟨⟨live, ?_, writable, ?_, ?_, call, ?_, ?_, ?_, ?_, sent, ?_, seen⟩, ?_⟩
  · have accepted := Conn.processOneFrame_within (credit.frame r.sid) within
    rwa [processed] at accepted
  · rw [← found]
    exact Conn.streamFind_congr (update_same s.client.conn.streams r.slot _) r.sid
  · rw [window]
    exact going
  · show s.client.conn.connSendWindow + (credit.connPart : ℤ) +
      (payloadLength s.unread + s.owedConn + (rest.map Credit.connPart).sum : ℕ) = r.connWindow
    omega
  · rw [window]
    show (s.client.conn.streams r.slot).sendWindow + (credit.streamPart : ℤ) +
      (payloadLength s.unread + s.owedStream + (rest.map Credit.streamPart).sum : ℕ) =
        r.streamWindow
    omega
  · show payloadLength s.unread + s.owedConn + (rest.map Credit.connPart).sum ≤
      sentOf r.body s.client.call
    omega
  · show payloadLength s.unread + s.owedStream + (rest.map Credit.streamPart).sum ≤
      sentOf r.body s.client.call
    omega
  · intro c mem
    exact positive c (inflight ▸ mem_cons_of_mem _ mem)
  show _ + s.unread.length + 2 * s.owedConn + 2 * s.owedStream + rest.length < _
  rw [rank, inflight, length_cons]
  exact Nat.lt_succ_self _

/-- The loop of the client goes on just if both windows cover its next chunk. -/
theorem credited_iff (c : Conn) (i : Slot) (body : Octets) (frameMax sent : ℕ) :
    Client.credited c i body frameMax sent = true ↔ Covers c i (chunkSize body frameMax sent) := by
  unfold Client.credited Covers chunkSize
  simp

theorem check_of_covers {c : Client} (call : c.call = .sending i body frameMax sent)
    (live : c.conn.dead = false) (going : (c.conn.streams i).state ≠ .done) :
    c.step .check =
      if Covers c.conn i (chunkSize body frameMax sent) then
        some (Client.afterSend c i body frameMax
          (sendLoop (body.length - sent) c.conn i body frameMax sent))
      else none := by
  show Client.check c = _
  unfold Client.check
  rw [call]
  dsimp only
  rw [if_neg (by rw [live]; decide), if_neg going]
  by_cases covers : Covers c.conn i (chunkSize body frameMax sent)
  · rw [if_pos covers, if_pos ((credited_iff ..).mpr covers)]
  · rw [if_neg covers, if_neg (mt (credited_iff ..).mp covers)]

/-- **A run of the loop** keeps the invariant, and does not raise the rank. -/
theorem loop_inv (valid : r.Valid) (inv : Inv r s) {fuel sent₀ : ℕ}
    (call : s.client.call = .sending r.slot r.body r.frameMax sent₀)
    (unsent : sent₀ < r.body.length)
    (enough : r.body.length - sent₀ ≤ fuel) {old client : Client}
    (after : Client.afterSend old r.slot r.body r.frameMax
      (sendLoop fuel s.client.conn r.slot r.body r.frameMax sent₀) = client)
    (within : client.conn.allowance.Within) :
    Inv r { s with client } ∧ Crediting.rank r.body { s with client } ≤ s.rank r.body ∧
      (Covers s.client.conn r.slot (chunkSize r.body r.frameMax sent₀) →
        Crediting.rank r.body { s with client } < s.rank r.body) := by
  obtain ⟨live, -, writable, found, going, -, conn, stream, spentConn, spentStream, -, positive,
    seen⟩ := inv
  obtain ⟨c', sent', spent, le, progress, stopped⟩ :=
    sendLoop_stops fuel r.slot writable valid.frameMax.1 valid.frameMax.2 enough unsent.le
  obtain ⟨le', conn', sentOf', state⟩ : sent' ≤ r.body.length ∧ client.conn = c' ∧
      sentOf r.body client.call = sent' ∧
      ((∃ sent, client.call = .sending r.slot r.body r.frameMax sent ∧ sent < r.body.length) ∨
        Client.awaits client.call = true) := by
    rw [← after]
    rcases stopped with ⟨result, rfl⟩ | ⟨result, short, -⟩ <;> rw [result]
    · refine ⟨Nat.le_refl _, ?_⟩
      unfold Client.afterSend
      dsimp only
      split <;> exact ⟨rfl, rfl, .inr rfl⟩
    · exact ⟨short.le, rfl, rfl, .inl ⟨sent', rfl, short⟩⟩
  have before : sentOf r.body s.client.call = sent₀ := by
    rw [call]
    rfl
  obtain ⟨fs, written, octets, count⟩ := spent.written
  have unread' : Crediting.unread { s with client } = s.unread ++ fs := by
    show client.conn.written.drop s.seen = _
    rw [conn', written, drop_append_of_le_length seen]
    rfl
  have octets' : payloadLength (Crediting.unread { s with client }) =
      payloadLength s.unread + (sent' - sent₀) := by
    rw [unread', payloadLength_append, octets]
  have rank' : Crediting.rank r.body { s with client } + (sent' - sent₀) ≤ s.rank r.body := by
    show 6 * (r.body.length - sentOf r.body client.call) + 4 * payloadLength _ +
      (Crediting.unread { s with client }).length + 2 * s.owedConn + 2 * s.owedStream +
      s.inflight.length + _ ≤ s.rank r.body
    rw [rank, before, sentOf', octets', unread', length_append]
    omega
  refine ⟨⟨?_, within, ?_, ?_, ?_, ?_, ?_, ?_, ?_, ?_, ?_, positive,
    ?_⟩, by omega, fun covers => ?_⟩
  · rw [conn', spent.dead, live]
  · rw [conn', spent.writable, writable]
  · rw [← found, conn']
    refine Conn.streamFind_congr (fun j => ?_) r.sid
    rw [spent.streams]
    exact update_same s.client.conn.streams r.slot _ j
  · rw [conn', spent.streams, update_self]
    exact going
  · exact state
  · show client.conn.connSendWindow + (payloadLength _ + s.owedConn + s.flightConn : ℕ) = _
    rw [conn', spent.conn, octets']
    omega
  · show (client.conn.streams r.slot).sendWindow +
      (payloadLength _ + s.owedStream + s.flightStream : ℕ) = _
    rw [conn', spent.streams, update_self, octets']
    dsimp only
    omega
  · show payloadLength _ + s.owedConn + s.flightConn ≤ sentOf r.body client.call
    omega
  · show payloadLength _ + s.owedStream + s.flightStream ≤ sentOf r.body client.call
    omega
  · rw [sentOf']
    exact le'
  · show s.seen ≤ client.conn.written.length
    rw [conn', written, length_append]
    omega
  · have more := progress unsent covers
    omega

theorem check_inv (valid : r.Valid) (inv : Inv r s) (step : s.step r.sid .check = some s') :
    Inv r s' ∧ s'.rank r.body < s.rank r.body := by
  obtain ⟨waits, step⟩ := ite_none_right_eq_some.mp step
  obtain ⟨client, checked, rfl⟩ := map_eq_some_iff.mp step
  obtain ⟨sent, call, unsent⟩ := inv.call.resolve_right fun awaits => by
    cases call : s.client.call with
    | sending => rw [call] at awaits; cases awaits
    | unary | opening | connecting | next | idle | closed => rw [call] at waits; cases waits
  have within := Client.step_within checked inv.within
  rw [check_of_covers call inv.live inv.going] at checked
  obtain ⟨covers, after⟩ := ite_none_right_eq_some.mp checked
  obtain ⟨kept, -, less⟩ :=
    loop_inv valid inv call unsent (Nat.le_refl _) (Option.some.inj after) within
  exact ⟨kept, less covers⟩

/-- **Every step** keeps the invariant and lowers the rank. -/
theorem step_inv (valid : r.Valid) (inv : Inv r s) {label : Label}
    (step : s.step r.sid label = some s') : Inv r s' ∧ s'.rank r.body < s.rank r.body := by
  cases label with
  | read => exact read_inv inv step
  | credit => exact credit_inv inv step
  | deliver => exact deliver_inv valid inv step
  | check => exact check_inv valid inv step

/-- **Where a run ends.** All credit has come back, so the request is sent if the windows at
the start cover its chunks. -/
theorem stuck_awaits (inv : Inv r s) (covered : r.Covered)
    (stuck : (crediting r.sid).Stuck s) : Client.awaits s.client.call = true := by
  refine inv.call.resolve_left ?_
  rintro ⟨sent, call, unsent⟩
  have unread : s.unread = [] := by
    have none' : s.client.conn.written[s.seen]? = none := by
      have still : s.step r.sid .read = none := stuck .read
      exact map_eq_none_iff.mp still
    exact drop_eq_nil_of_le (List.getElem?_eq_none_iff.mp none')
  have paid : ∀ credit : Credit, credit.connPart ≤ s.owedConn → credit.streamPart ≤ s.owedStream →
      credit.connPart + credit.streamPart = 0 := by
    intro credit conn stream
    by_contra owed
    have still : s.step r.sid (.credit credit) = none := stuck (.credit credit)
    unfold Crediting.step at still
    dsimp only at still
    rw [if_pos ⟨Nat.pos_of_ne_zero owed, conn, stream⟩] at still
    cases still
  have owedConn : s.owedConn = 0 := paid (.conn s.owedConn) (Nat.le_refl _) (Nat.zero_le _)
  have owedStream : s.owedStream = 0 :=
    (Nat.zero_add _).symm.trans (paid (.stream s.owedStream) (Nat.zero_le _) (Nat.le_refl _))
  have inflight : s.inflight = [] := by
    cases inflight : s.inflight with
    | nil => rfl
    | cons =>
      have still : s.step r.sid .deliver = none := stuck .deliver
      unfold Crediting.step at still
      rw [inflight] at still
      have none' := map_eq_none_iff.mp still
      change (if _ then some _ else none) = none at none'
      rw [if_pos ⟨polling_of_inv inv, by rw [inv.live]; rfl⟩] at none'
      cases none'
  have conn := inv.conn
  have stream := inv.stream
  rw [flightConn, unread, owedConn, inflight] at conn
  rw [flightStream, unread, owedStream, inflight] at stream
  have chunk : chunkSize r.body r.frameMax sent ≤ min r.body.length r.frameMax := by
    unfold chunkSize
    omega
  have still : s.step r.sid .check = none := stuck .check
  unfold Crediting.step at still
  rw [if_pos (by rw [call]; rfl), check_of_covers call inv.live inv.going, if_pos] at still
  · cases still
  constructor
  · have room := covered.1
    change (s.client.conn.streams r.slot).sendWindow + ((0 + 0 + 0 : ℕ) : ℤ) = _ at stream
    omega
  have room := covered.2
  change s.client.conn.connSendWindow + ((0 + 0 + 0 : ℕ) : ℤ) = _ at conn
  omega

/-- Where nothing is under way, a client that cannot go on is at an end. -/
theorem stuck_of_check {c : Client} (sid : ℕ) (still : c.step .check = none) :
    (crediting sid).Stuck ⟨c, c.conn.written.length, 0, 0, []⟩ := by
  intro label
  show Crediting.step sid _ label = none
  cases label with
  | read =>
    unfold Crediting.step
    rw [List.getElem?_eq_none (Nat.le_refl _)]
    rfl
  | credit credit =>
    unfold Crediting.step
    dsimp only
    rw [if_neg]
    rintro ⟨positive, conn, stream⟩
    omega
  | deliver => rfl
  | check =>
    unfold Crediting.step
    rw [still]
    exact ite_self _

end Crediting

/-! ## Requests from their start -/

theorem enterLoop_spec {c' : Conn} {path : Octets} (enter : enterLoop c i path = some c') :
    c'.streams = c.streams ∧ c'.dead = c.dead ∧ c'.allowance = c.allowance := by
  obtain ⟨enc, block, -, written⟩ := enterLoop_some enter
  have streams :=
    Conn.frameWrite_streams { c with enc } ⟨.headers, flagEndHeaders, (c.streams i).id, block⟩
  have kept :=
    Conn.frameWrite_kept { c with enc } ⟨.headers, flagEndHeaders, (c.streams i).id, block⟩
  rw [written] at streams kept
  have allowance := allowance_of_frameWrite written
  exact ⟨streams, congrArg Prod.fst kept, allowance⟩

namespace Client

variable {old : Client} {type : StreamType} {path req : Octets} {resp : Option ℕ}
  {i : Slot} {c : Conn}

section

variable (entry : old.loopEntry type path req resp = some (i, c))

include entry

/-- The connection at which a request enters the loop. -/
theorem loopEntry_spec :
    old.conn.dead = false ∧ req.length ≤ maxMsg ∧ c.dead = false ∧
      c.streams i = old.conn.openedStream type resp ∧
      (old.conn.allowance.Within → c.allowance.Within) := by
  obtain ⟨live, short, c₀, found, enter⟩ := loopEntry_some entry
  obtain ⟨streams, dead, allowance⟩ := enterLoop_spec enter
  obtain ⟨-, rfl⟩ := Conn.streamAlloc_spec found
  refine ⟨live, short, dead.trans live, ?_, fun within => ?_⟩
  · rw [streams, Conn.set_streams]
    have opened : (Conn.streams { old.conn.set i (old.conn.openedStream type none) with
        nextSid := (old.conn.nextSid + 2) % 2 ^ 32 } i) = old.conn.openedStream type none :=
      update_self ..
    rw [opened]
    rfl
  · refine Conn.within_of_eq (allowance.trans (Conn.set_allowance _ ?_))
      (Conn.streamAlloc_within within found)
    rfl

/-- The setup of a request that enters the loop. -/
def setup (req : Octets) (i : Slot) (c : Conn) : Setup :=
  ⟨i, (c.streams i).id, grpcBody req, c.srvMaxFrame, c.connSendWindow, (c.streams i).sendWindow⟩

/-- A request that was just started, and a server that has read all before it. -/
def launch (old : Client) (type : StreamType) (path req : Octets) (resp : Option ℕ) (c : Conn) :
    Crediting :=
  ⟨startRequest old type path req resp, c.written.length, 0, 0, []⟩

theorem setup_valid (reachable : clients.Reachable old) (idle : old.call = .idle) :
    (setup req i c).Valid := by
  obtain ⟨live, short, -, opened, within⟩ := loopEntry_spec entry
  have within := within (within_of_reachable reachable)
  have sound := sound_of_live reachable ⟨live, by rw [idle]; nofun⟩
  refine ⟨?_, ⟨?_, within.maxFrame.2⟩, ?_, within.conn.2, (within.streams i).2⟩
  · show (c.streams i).id ≠ 0
    have odd := sound.nextSid
    change old.conn.nextSid % 2 = 1 at odd
    rw [opened]
    show old.conn.nextSid ≠ 0
    omega
  · exact Nat.lt_of_lt_of_le (by decide) within.maxFrame.1
  show (grpcBody req).length < 2 ^ 31
  rw [length_grpcBody]
  rw [maxMsg_eq] at short
  omega

/-- **The start of a run** meets the invariant. -/
theorem launch_inv (reachable : clients.Reachable old) (idle : old.call = .idle)
    (free : c.writable = none) (alone : c.streamFind (c.streams i).id = some i) :
    (old.launch type path req resp c).Inv (setup req i c) ∧
      (old.launch type path req resp c).rank (grpcBody req) ≤ 6 * (req.length + 5) := by
  have valid := setup_valid entry reachable idle
  obtain ⟨-, -, dead, opened, within⟩ := loopEntry_spec entry
  have reached := within_of_reachable reachable
  obtain ⟨started, -⟩ := startRequest_of_entry entry
  have length := length_grpcBody req
  -- The client at the loop, before it has sent anything of the body.
  have start : Crediting.Inv (setup req i c) ⟨{ old with
      conn := c, call := .sending i (grpcBody req) c.srvMaxFrame 0 }, c.written.length,
        0, 0, []⟩ := by
    have none : payloadLength (c.written.drop c.written.length) = 0 := by
      rw [drop_length]
      rfl
    refine ⟨dead, within reached, free, alone, ?_,
      .inl ⟨0, rfl, show 0 < (grpcBody req).length by omega⟩,
      ?_, ?_, none.le, none.le, Nat.zero_le _, nofun, Nat.le_refl _⟩
    · show (c.streams i).state ≠ .done
      rw [opened]
      nofun
    · show c.connSendWindow + ((payloadLength (c.written.drop _) + 0 + 0 : ℕ) : ℤ) = _
      rw [none]
      exact add_zero _
    · show (c.streams i).sendWindow + ((payloadLength (c.written.drop _) + 0 + 0 : ℕ) : ℤ) = _
      rw [none]
      exact add_zero _
  obtain ⟨inv, rank, -⟩ :=
    Crediting.loop_inv valid start rfl (show 0 < (grpcBody req).length by omega)
    (show (grpcBody req).length - 0 ≤ req.length + 5 by omega) started.symm
    (startRequest_within reached type path req resp)
  refine ⟨inv, rank.trans ?_⟩
  show 6 * ((grpcBody req).length - 0) + 4 * payloadLength (c.written.drop c.written.length) +
    (c.written.drop c.written.length).length + 2 * 0 + 2 * 0 + 0 ≤ _
  rw [drop_length, length]
  exact Nat.le_refl _

end

end Client

/-- **Progress.** A client that waits goes on whenever both windows are positive just if they then
cover its next chunk. Every run of a request against a server that gives back exactly the credit for
what it has read is finite, and ends with the request sent completely just if both windows cover its
first chunk at the start. -/
theorem sending_progress {old : Client} {type : StreamType} {path req : Octets} {resp : Option ℕ}
    {i : Slot} {c : Conn} (reachable : clients.Reachable old) (idle : old.call = .idle)
    (entry : old.loopEntry type path req resp = some (i, c)) (free : c.writable = none)
    (alone : c.streamFind (c.streams i).id = some i) :
    (∀ (w : Client) (j : Slot) (body : Octets) (frameMax sent : ℕ), clients.Reachable w →
      w.call = .sending j body frameMax sent → w.conn.dead = false →
      (w.conn.streams j).state ≠ .done →
        ((0 < (w.conn.streams j).sendWindow → 0 < w.conn.connSendWindow → w.step .check ≠ none) ↔
          (0 < (w.conn.streams j).sendWindow → 0 < w.conn.connSendWindow →
            Covers w.conn j (chunkSize body frameMax sent)))) ∧
    (∀ ls t, (crediting (c.streams i).id).exec (old.launch type path req resp c) ls = some t →
      ls.length ≤ 6 * (req.length + 5)) ∧
    ((∀ t, (crediting (c.streams i).id).Leads (old.launch type path req resp c) t →
        (crediting (c.streams i).id).Stuck t → Client.awaits t.client.call = true) ↔
      ((min (req.length + 5) c.srvMaxFrame : ℕ) : ℤ) ≤ (c.streams i).sendWindow ∧
        ((min (req.length + 5) c.srvMaxFrame : ℕ) : ℤ) ≤ c.connSendWindow) := by
  have valid := Client.setup_valid entry reachable idle
  obtain ⟨inv, rank⟩ := Client.launch_inv entry reachable idle free alone
  have length := length_grpcBody req
  refine ⟨?_, ?_, ?_⟩
  · intro w j body frameMax sent _ call live going
    rw [Crediting.check_of_covers call live going]
    by_cases covers : Covers w.conn j (chunkSize body frameMax sent)
    · rw [if_pos covers]
      exact iff_of_true (fun _ _ => nofun) fun _ _ => covers
    rw [if_neg covers]
    exact ⟨fun goes stream conn => absurd rfl (goes stream conn),
      fun goes stream conn => absurd (goes stream conn) covers⟩
  · intro ls t run
    refine (Machine.length_le_rank (I := Crediting.Inv (Client.setup req i c)) ?_ run inv).trans
      rank
    exact fun a l b step inv => Crediting.step_inv valid inv step
  rw [← length]
  constructor
  · intro sent
    by_contra uncovered
    have blocked : ¬ Covers c i (chunkSize (grpcBody req) c.srvMaxFrame 0) := uncovered
    obtain ⟨started, -⟩ := Client.startRequest_of_entry entry
    rw [sendLoop_of_blocked (req.length + 4) (by omega) blocked] at started
    obtain ⟨-, -, dead, opened, -⟩ := Client.loopEntry_spec entry
    have call : (old.startRequest type path req resp).call =
        .sending i (grpcBody req) c.srvMaxFrame 0 := by
      rw [started]
      rfl
    have conn : (old.startRequest type path req resp).conn = c := by
      rw [started]
      rfl
    have stuck : (crediting (c.streams i).id).Stuck (old.launch type path req resp c) := by
      have still : (old.startRequest type path req resp).step .check = none := by
        rw [Crediting.check_of_covers call (by rw [conn, dead]) (by rw [conn, opened]; nofun), conn,
          if_neg blocked]
      have quiet := Crediting.stuck_of_check (c.streams i).id still
      rwa [conn] at quiet
    have awaits := sent _ (.refl _) stuck
    change Client.awaits (old.startRequest type path req resp).call = true at awaits
    rw [call] at awaits
    cases awaits
  intro covered t leads stuck
  have inv' : t.Inv (Client.setup req i c) :=
    leads.induct (P := fun t => Crediting.Inv (Client.setup req i c) t) inv
      fun a l b step inv => (Crediting.step_inv valid inv step).1
  exact Crediting.stuck_awaits inv' covered stuck

def connected (initialWindow : UInt8) : List Client.Label :=
  [.frame ⟨.settings, 0, 0, [0, 4, 0, 0, 0, initialWindow]⟩, .check]

theorem sending_progress_connected :
    ∃ old i c, clients.Reachable old ∧
      old.loopEntry .unary (ascii "/v/A") [1, 2, 3] none = some (i, c) ∧
      ∀ t,
        (crediting (c.streams i).id).Leads (old.launch .unary (ascii "/v/A") [1, 2, 3] none c) t →
        (crediting (c.streams i).id).Stuck t → Client.awaits t.client.call = true := by
  have run : (clients.exec (.connecting (ascii "k8s")) (connected 100)).any (fun old =>
      decide (old.call = .idle) &&
        (old.loopEntry .unary (ascii "/v/A") [1, 2, 3] none).any fun e =>
          decide (e.2.writable = none ∧ e.2.streamFind (e.2.streams e.1).id = some e.1 ∧
            ((min 8 e.2.srvMaxFrame : ℕ) : ℤ) ≤ (e.2.streams e.1).sendWindow ∧
            ((min 8 e.2.srvMaxFrame : ℕ) : ℤ) ≤ e.2.connSendWindow)) = true := by
    decide +kernel
  obtain ⟨old, reachable, facts⟩ := Machine.Reachable.of_any run ⟨_, rfl⟩
  obtain ⟨idle, facts⟩ := Bool.and_eq_true_iff.mp facts
  obtain ⟨⟨i, c⟩, entry, facts⟩ := (any_eq_true _ _).mp facts
  obtain ⟨free, alone, covered⟩ := of_decide_eq_true facts
  exact ⟨old, i, c, reachable, entry,
    (sending_progress reachable (of_decide_eq_true idle) entry free alone).2.2.mpr covered⟩

/-- **A request stalls.** With an initial window of five octets, a request of eight waits with both
windows positive, nothing is under way, and nothing can happen. -/
theorem request_stalls :
    ∃ c, clients.Reachable c ∧ Crediting.waiting c.call = true ∧
      (c.conn.streams 0).sendWindow = 5 ∧ c.conn.connSendWindow = 65535 ∧ c.step .check = none ∧
      ∀ sid, (crediting sid).Stuck ⟨c, c.conn.written.length, 0, 0, []⟩ := by
  have run : (clients.exec (.connecting (ascii "k8s"))
      (connected 5 ++ [.unary (ascii "/v/A") [1, 2, 3] none])).any (fun c =>
        decide (Crediting.waiting c.call = true ∧ (c.conn.streams 0).sendWindow = 5 ∧
          c.conn.connSendWindow = 65535) && (c.step .check).isNone) = true := by
    decide +kernel
  obtain ⟨c, reachable, facts⟩ := Machine.Reachable.of_any run ⟨_, rfl⟩
  obtain ⟨facts, still⟩ := Bool.and_eq_true_iff.mp facts
  obtain ⟨waits, stream, conn⟩ := of_decide_eq_true facts
  have still := isNone_iff_eq_none.mp still
  exact ⟨c, reachable, waits, stream, conn, still, fun sid => Crediting.stuck_of_check sid still⟩

end Strimserver.H2c
