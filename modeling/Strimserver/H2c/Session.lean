import Strimserver.H2c.Client

/-!
# A client and its server

A server that follows HTTP/2, and the two channels between it and the client. The
server reads what the client has written, and learns of requests, of streams that
were reset and of credit. It sends frames on the streams that it has not ended,
within the credit that it knows of, and keeps a header block together. What it has
sent is in flight until the client processes it, so the client can be done with a
stream long before the last frame of it arrives.

The server here can do at least what a real one can: which header lists it sends
is up to it.
-/

namespace Strimserver.H2c

open Hpack Library

/-! ## The server -/

/-- A stream as the server sees it. -/
inductive Phase where
  | idle
  /-- The request has come. -/
  | requested
  /-- Headers were sent. -/
  | responding
  | closed
  deriving DecidableEq

/-- What a server knows of a connection. -/
structure Server where
  /-- How many frames of the client it has read. -/
  seen : ℕ
  phase : ℕ → Phase
  /-- The stream of a header block that has not ended. -/
  block : Option ℕ
  /-- That block ends the stream. -/
  blockEnds : Bool
  connCredit : ℤ
  credit : ℕ → ℤ

namespace Server

/-- The server of a new connection. -/
def initial : Server := ⟨0, fun _ => .idle, none, false, initWindow, fun _ => initWindow⟩

/-- The server reads a frame. -/
def receive (srv : Server) (f : Frame) : Server :=
  let srv := { srv with seen := srv.seen + 1 }
  match f.type with
  | .headers => { srv with phase := Function.update srv.phase f.sid .requested }
  | .rstStream => { srv with phase := Function.update srv.phase f.sid .closed }
  | .windowUpdate =>
    match f.payload with
    | [w, x, y, z] =>
      if f.sid = 0 then { srv with connCredit := srv.connCredit + readBe32 w x y z }
      else
        { srv with
          credit := Function.update srv.credit f.sid (srv.credit f.sid + readBe32 w x y z) }
    | _ => srv
  | _ => srv

/-- The largest payload that the client has announced. -/
def frameMax : ℕ := 16384

/-- The server may send on a stream. -/
def sendable (srv : Server) (sid : ℕ) : Bool :=
  srv.phase sid == .requested || srv.phase sid == .responding

/-- The server may send a frame. -/
def admits (srv : Server) (f : Frame) : Bool :=
  decide (f.payload.length ≤ frameMax) &&
    match srv.block with
    | some sid => f.type == .continuation && f.sid == sid
    | none =>
      match f.type with
      | .headers => srv.sendable f.sid
      | .data =>
        srv.phase f.sid == .responding && (Conn.unpad f.flags f.payload).isSome &&
          decide ((f.payload.length : ℤ) ≤ srv.connCredit) &&
          decide ((f.payload.length : ℤ) ≤ srv.credit f.sid)
      | .rstStream => srv.sendable f.sid && f.payload.length == 4
      | .continuation => false
      | .pushPromise => false
      | .unknown _ => false
      | _ => true

/-- A stream after headers that end it or not. -/
def respond (srv : Server) (sid : ℕ) (ends : Bool) : Server :=
  { srv with phase := Function.update srv.phase sid (if ends then .closed else .responding) }

def send (srv : Server) (f : Frame) : Server :=
  match f.type with
  | .headers =>
    if has f.flags flagEndHeaders then srv.respond f.sid (has f.flags flagEndStream)
    else { srv with block := some f.sid, blockEnds := has f.flags flagEndStream }
  | .continuation =>
    if has f.flags flagEndHeaders then
      { srv.respond f.sid srv.blockEnds with block := none, blockEnds := false }
    else srv
  | .data =>
    { srv with
      connCredit := srv.connCredit - f.payload.length
      credit := Function.update srv.credit f.sid (srv.credit f.sid - f.payload.length)
      phase :=
        if has f.flags flagEndStream then Function.update srv.phase f.sid .closed
        else srv.phase }
  | .rstStream => { srv with phase := Function.update srv.phase f.sid .closed }
  | _ => srv

end Server

/-! ## The session -/

/-- The two parties, and the frames of the server that are in flight. -/
structure Session where
  client : Client
  server : Server
  inflight : List Frame

namespace Session

/-- What can happen. -/
inductive Label where
  /-- A step of the client that processes no frame. -/
  | client (label : Client.Label)
  /-- The client processes the first frame in flight. -/
  | deliver
  /-- The server reads a frame. -/
  | receive
  /-- The server sends a frame. -/
  | send (f : Frame)

/-- A step of the session. -/
def step (s : Session) : Label → Option Session
  | .client (.frame _) => none
  | .client label => (s.client.step label).map fun client => { s with client }
  | .deliver =>
    match s.inflight with
    | [] => none
    | f :: rest => (s.client.step (.frame f)).map fun client => { s with client, inflight := rest }
  | .receive =>
    s.client.conn.written[s.server.seen]?.map fun f => { s with server := s.server.receive f }
  | .send f =>
    if s.server.admits f then
      some { s with server := s.server.send f, inflight := s.inflight ++ [f] }
    else none

/-- A session at the start of `h2c_connect`. -/
def start (ns : Octets) : Session := ⟨.connecting ns, .initial, []⟩

end Session

def sessions : Machine Session Session.Label where
  initial s := ∃ ns, s = .start ns
  step := Session.step

/-! ## Header blocks stay together -/

/-- The header block that is open behind a frame. -/
def blockBehind (f : Frame) : Option ℕ :=
  if (f.type = .headers ∨ f.type = .continuation) ∧ has f.flags flagEndHeaders = false then
    some f.sid
  else none

/-- A frame can stand behind a header block that is open, or behind none. -/
def MayFollow : Option ℕ → Frame → Prop
  | none, f => f.type ≠ .continuation
  | some sid, f => f.type = .continuation ∧ f.sid = sid

/-- Frames that keep header blocks together, from one open block to another. -/
def Contiguous (block : Option ℕ) : List Frame → Option ℕ → Prop
  | [], block' => block = block'
  | f :: fs, block' => MayFollow block f ∧ Contiguous (blockBehind f) fs block'

variable {f : Frame}

theorem Contiguous.append {block block' : Option ℕ} {fs : List Frame}
    (contiguous : Contiguous block fs block') (next : MayFollow block' f) :
    Contiguous block (fs ++ [f]) (blockBehind f) := by
  induction fs generalizing block with
  | nil =>
    obtain rfl : block = block' := contiguous
    exact ⟨next, rfl⟩
  | cons g fs ih => exact ⟨contiguous.1, ih contiguous.2⟩

/-- The server keeps its header blocks together. -/
theorem Server.send_block {srv : Server} (admitted : srv.admits f = true) :
    MayFollow srv.block f ∧ (srv.send f).block = blockBehind f := by
  obtain ⟨seen, phase, block, blockEnds, connCredit, credit⟩ := srv
  obtain ⟨type, flags, sid, payload⟩ := f
  have rule := (Bool.and_eq_true_iff.mp admitted).2
  rcases block with _ | open'
  · refine ⟨?_, ?_⟩
    · rintro rfl
      cases rule
    cases type with
    | headers =>
      unfold Server.send blockBehind
      dsimp only
      split
      · rename_i ends
        simp [Server.respond, ends]
      · rename_i more
        simp [more]
    | continuation | pushPromise | unknown => cases rule
    | data | priority | rstStream | settings | ping | goaway | windowUpdate => rfl
  obtain ⟨rfl, rfl⟩ : type = .continuation ∧ sid = open' := by simpa using rule
  refine ⟨⟨rfl, rfl⟩, ?_⟩
  unfold Server.send blockBehind
  dsimp only
  split
  · rename_i ends
    simp [ends]
  · rename_i more
    simp [more]

theorem Server.receive_block (srv : Server) (f : Frame) : (srv.receive f).block = srv.block := by
  unfold Server.receive
  split
  · rfl
  · rfl
  · split
    · split <;> rfl
    · rfl
  · rfl

/-- The header block that a client collects. -/
def Conn.block (c : Conn) : Option ℕ := if c.hdrBlockPending then some c.hdrBlockSid else none

theorem Conn.block_of_kept {c c' : Conn} (kept : c'.kept = c.kept) : c'.block = c.block := by
  obtain ⟨-, -, -, sid, -, pending⟩ : _ ∧ _ ∧ _ ∧ _ ∧ _ ∧ _ := by
    simpa only [Conn.kept, Prod.mk.injEq] using kept
  rw [Conn.block, Conn.block, sid, pending]

/-- A client that accepts frames collects the header blocks that the server sends. -/
theorem Conn.processOneFrame_block {c : Conn} (next : MayFollow c.block f)
    (accepted : (c.processOneFrame f).2 = true) :
    (c.processOneFrame f).1.block = blockBehind f := by
  obtain ⟨type, flags, sid, payload⟩ := f
  unfold Conn.block at next
  split_ifs at next with pending
  · obtain ⟨rfl, rfl⟩ : type = .continuation ∧ sid = c.hdrBlockSid := next
    change (c.handleContinuationFrame flags payload).2 = true at accepted
    change (c.handleContinuationFrame flags payload).1.block = _
    unfold Conn.handleContinuationFrame blockBehind at *
    rw [if_neg (by rw [pending]; decide)] at accepted ⊢
    split
    · rename_i long
      rw [if_pos long] at accepted
      cases accepted
    split
    · rename_i ends
      simp [Conn.block, ends]
    · rename_i more
      simp [Conn.block, pending, more]
  have none' : c.block = none := if_neg pending
  have other : ∀ c' : Conn, c'.kept = c.kept → c'.block = none := fun c' kept =>
    (Conn.block_of_kept kept).trans none'
  cases type with
  | headers =>
    change (c.handleHeadersFrame flags sid payload).2 = true at accepted
    change (c.handleHeadersFrame flags sid payload).1.block = _
    unfold Conn.handleHeadersFrame blockBehind at *
    rw [if_neg pending] at accepted ⊢
    split
    · rename_i ends
      obtain ⟨-, same⟩ := c.handleHeaderBlock_kept sid payload flags
      simp [Conn.block, same, pending, ends]
    rename_i more
    rw [if_neg more] at accepted
    split
    · rename_i long
      rw [if_pos long] at accepted
      cases accepted
    · simp [Conn.block, more]
  | continuation => exact absurd rfl next
  | data => exact other _ ((Conn.steady_kept c).handleDataFrame _ _ _ rfl)
  | priority | pushPromise | unknown => exact none'
  | rstStream => exact other _ (Conn.handleRstStream_kept ..)
  | settings => exact other _ ((Conn.adjustable_kept c).processOneFrame (.inl rfl) rfl)
  | ping => exact other _ ((Conn.steady_kept c).handlePing _ _ rfl)
  | goaway =>
    unfold Conn.processOneFrame Conn.handleGoaway
    dsimp only
    split
    · exact none'
    · exact none'
  | windowUpdate => exact other _ ((Conn.adjustable_kept c).processOneFrame (.inr rfl) rfl)

/-! ## The invariant -/

/-- The client can still process frames. -/
def Client.Alive (c : Client) : Prop := c.conn.dead = false ∨ c.batch = true

/-- What is in flight is well formed, and keeps header blocks together from where
the client is to where the server is. -/
structure Session.Wire (s : Session) : Prop where
  shape : ∀ f ∈ s.inflight,
    f.payload.length ≤ Server.frameMax ∧ (f.type = .rstStream → f.payload.length = 4)
  contiguous : s.client.Alive →
    Contiguous s.client.conn.block s.inflight s.server.block

theorem Session.Wire.start (ns : Octets) : (Session.start ns).Wire := ⟨nofun, fun _ => rfl⟩

/-- What a client that processes a frame had to be. -/
theorem Client.step_frame {c c' : Client} (step : c.step (.frame f) = some c') :
    c.Alive ∧ c' = c.pollFrame f := by
  unfold Client.step at step
  dsimp only at step
  split at step <;> cases step
  rename_i able
  exact ⟨by simpa [Client.Alive] using able.2, rfl⟩

namespace Session

variable {s s' : Session}

theorem Wire.client (wire : s.Wire) {client : Client} (quiet : Client.Quiet s.client client) :
    Wire { s with client } := by
  refine ⟨wire.shape, fun alive => ?_⟩
  rcases quiet with ⟨kept, batch⟩ | ⟨dead, stopped⟩
  · have dead : client.conn.dead = s.client.conn.dead := congrArg Prod.fst kept
    have before : s.client.Alive := alive.imp (fun living => dead ▸ living) batch
    rw [Conn.block_of_kept kept]
    exact wire.contiguous before
  rcases alive with living | going
  · rw [dead] at living
    cases living
  · rw [stopped] at going
    cases going

theorem Wire.deliver (wire : s.Wire) {rest : List Frame} (inflight : s.inflight = f :: rest)
    {client : Client} (step : s.client.step (.frame f) = some client) :
    Wire { s with client, inflight := rest } := by
  obtain ⟨alive, rfl⟩ := Client.step_frame step
  have contiguous := wire.contiguous alive
  rw [inflight] at contiguous
  refine ⟨fun g mem => wire.shape g (by rw [inflight]; exact List.mem_cons_of_mem f mem),
    fun still => ?_⟩
  unfold Client.pollFrame at still ⊢
  split at still
  · rename_i c processed
    have accepted : (s.client.conn.processOneFrame f).2 = true := by rw [processed]
    have block := Conn.processOneFrame_block contiguous.1 accepted
    rw [processed] at block
    rw [block]
    exact contiguous.2
  rcases still with living | going
  · rw [show _ = true from Client.connFail_dead _ _] at living
    cases living
  · cases going

theorem step_deliver (step : s.step .deliver = some s') :
    ∃ f rest client, s.inflight = f :: rest ∧ s.client.step (.frame f) = some client ∧
      s' = { s with client, inflight := rest } := by
  rw [Session.step] at step
  split at step
  · cases step
  rename_i f rest inflight
  obtain ⟨client, moved, rfl⟩ := Option.map_eq_some_iff.mp step
  exact ⟨f, rest, client, inflight, moved, rfl⟩

/-- **Header blocks stay together** in every session. -/
theorem wire_of_reachable (reachable : sessions.Reachable s) : s.Wire := by
  refine reachable.induct (fun s₀ start => ?_) fun a label b _ step wire => ?_
  · obtain ⟨ns, rfl⟩ := start
    exact .start ns
  cases label with
  | client =>
    rename_i label
    by_cases frame : ∃ f, label = .frame f
    · obtain ⟨f, rfl⟩ := frame
      cases step
    have plain : a.step (.client label) =
        (a.client.step label).map fun client => { a with client } := by
      cases label with
      | frame f => exact absurd ⟨f, rfl⟩ frame
      | _ => rfl
    obtain ⟨client, moved, rfl⟩ := Option.map_eq_some_iff.mp (plain.symm.trans step)
    exact wire.client (Client.step_quiet moved fun f eq => frame ⟨f, eq⟩)
  | deliver =>
    obtain ⟨f, rest, client, inflight, moved, rfl⟩ := step_deliver step
    exact wire.deliver inflight moved
  | receive =>
    obtain ⟨f, -, rfl⟩ := Option.map_eq_some_iff.mp step
    refine ⟨wire.shape, fun alive => ?_⟩
    rw [Server.receive_block]
    exact wire.contiguous alive
  | send f =>
    change Session.step a (.send f) = some b at step
    unfold Session.step at step
    dsimp only at step
    split at step <;> cases step
    rename_i admitted
    obtain ⟨next, block⟩ := Server.send_block admitted
    refine ⟨fun g mem => ?_, fun alive => ?_⟩
    · rcases List.mem_append.mp mem with old | new
      · exact wire.shape g old
      cases List.mem_singleton.mp new
      obtain ⟨short, rule⟩ := Bool.and_eq_true_iff.mp admitted
      refine ⟨of_decide_eq_true short, fun reset => ?_⟩
      rw [reset] at rule
      rcases block : a.server.block with _ | sid
      · rw [block] at rule
        exact beq_iff_eq.mp (Bool.and_eq_true_iff.mp rule).2
      · rw [block] at rule
        cases rule
    rw [block]
    exact (wire.contiguous alive).append next

end Session

end Strimserver.H2c
