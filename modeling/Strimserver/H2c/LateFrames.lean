import Strimserver.H2c.Session

/-!
# Frames of streams that are finished

When the client is done with a stream, frames of it can still be in flight. Most
handlers ignore a stream that they do not find. DATA frames and header blocks do
not: they are ignored only while the slot of the stream is in use and has an error
of the client. When the slot was released, as every call does that gives up a
stream, or when the server's own headers ended the stream, the frame ends the
connection, and every other stream with it.

The main theorem is about the sessions in which no such frame arrives: there a
late frame is processed without an error, and changes nothing for the others.
-/

namespace Strimserver.H2c

open Hpack Library Option

namespace Conn

/-! ## Late frames -/

/-- The client is done with a stream: no slot has it and goes on with it. -/
def finished (c : Conn) (sid : ℕ) : Bool :=
  (List.finRange 8).all fun i =>
    !((c.streams i).inUse && (c.streams i).id == sid && (c.streams i).state != .done)

/-- The stream that a frame is about. A continuation is taken to be about the block
that is collected. -/
def streamOf (c : Conn) (f : Frame) : ℕ := if f.type = .continuation then c.hdrBlockSid else f.sid

/-- A frame of a stream that the client is done with. -/
def late (c : Conn) (f : Frame) : Bool :=
  (f.type == .headers || f.type == .data || f.type == .rstStream || f.type == .continuation) &&
    c.finished (c.streamOf f)

/-- The slot of a stream is in use, and has an error of the client. -/
def draining (c : Conn) (sid : ℕ) : Bool := (c.streamFind sid).any fun i => (c.streams i).err.isSome

/-- A header list that ends a stream. -/
def concludes (fields : List Field) : Bool := (scanFields fields).any fun h => h.conclusion.isSome

/-- The condition on a header block: it can be decoded, the slot of its stream is
in use, and has an error of the client or the header list ends the stream once
more. -/
def blockAgrees (c : Conn) (sid : ℕ) (block : Octets) (flags : UInt8) : Bool :=
  (headersBlockOffset block flags).any fun off =>
    (hpackDecodeBlock c.dynDec (block.drop off) maxFields).any fun decoded =>
      (c.streamFind sid).any fun i => (c.streams i).err.isSome || concludes decoded.2

def lateAgrees (c : Conn) (f : Frame) : Bool :=
  match f.type with
  | .data => c.draining f.sid
  | .headers => !has f.flags flagEndHeaders || c.blockAgrees f.sid f.payload f.flags
  | .continuation =>
    decide (c.hdrBlock.length + f.payload.length ≤ hdrBlockMax) &&
      (!has f.flags flagEndHeaders ||
        c.blockAgrees c.hdrBlockSid (c.hdrBlock ++ f.payload) c.hdrBlockFlags)
  | _ => true

/-! ## Processing them -/

/-- The connection is not dead for it, and streams that go on are as before. -/
structure Harmless (c c' : Conn) : Prop where
  dead : c'.dead = c.dead
  others : ∀ i, (c.streams i).inUse = true → (c.streams i).state ≠ .done →
    c'.streams i = c.streams i

variable {c : Conn} {sid : ℕ} {i : Slot}

theorem Harmless.refl (c : Conn) : c.Harmless c := ⟨rfl, fun _ _ _ => rfl⟩

theorem finished_done (finished : c.finished sid = true) (found : c.streamFind sid = some i) :
    (c.streams i).state = .done := by
  obtain ⟨inUse, id⟩ := streamFind_spec found
  have rule := List.all_eq_true.mp finished i (List.mem_finRange i)
  simpa [inUse, id] using rule

/-- A change of a slot that is done is harmless. -/
theorem Harmless.set (done : (c.streams i).state = .done) {c' : Conn} (s : Stream)
    (dead : c'.dead = c.dead) (streams : c'.streams = c.streams) : c.Harmless (c'.set i s) := by
  refine ⟨dead, fun j _ going => ?_⟩
  have ne : j ≠ i := by
    rintro rfl
    exact going done
  rw [set_streams_of_ne _ ne, streams]

/-- **A header block of a finished stream.** -/
theorem handleHeaderBlock_late (finished : c.finished sid = true) (block : Octets) (flags : UInt8) :
    (c.handleHeaderBlock sid block flags).2 = c.blockAgrees sid block flags ∧
      c.Harmless (c.handleHeaderBlock sid block flags).1 := by
  unfold handleHeaderBlock blockAgrees
  rcases headersBlockOffset block flags with _ | off
  · exact ⟨rfl, .refl c⟩
  dsimp only [any_some]
  rcases hpackDecodeBlock c.dynDec (block.drop off) maxFields with _ | ⟨d, fields⟩
  · exact ⟨rfl, .refl c⟩
  have decoder : c.Harmless { c with dynDec := d } := ⟨rfl, fun _ _ _ => rfl⟩
  have same : Conn.streamFind { c with dynDec := d } sid = c.streamFind sid := rfl
  dsimp only [any_some]
  rw [same]
  rcases found : c.streamFind sid with _ | i
  · exact ⟨rfl, decoder⟩
  have done := finished_done finished found
  dsimp only [any_some]
  rcases (c.streams i).err with _ | error
  · rw [if_neg fun drained => drained.2 rfl, isSome_none, Bool.false_or, concludes]
    rcases scanFields fields with _ | h
    · exact ⟨rfl, decoder⟩
    dsimp only [any_some]
    rcases h.conclusion with _ | status
    · have late : (c.streams i).state ≠ .sent := by rw [done]; exact nofun
      rw [if_pos late]
      exact ⟨rfl, decoder⟩
    · exact ⟨rfl, .set done _ rfl rfl⟩
  · rw [if_pos ⟨done, nofun⟩]
    exact ⟨rfl, decoder⟩

/-- **A late frame** of a server that keeps its header blocks together is processed
without an error if and only if it meets the condition, and then it is harmless. -/
theorem processOneFrame_late {f : Frame} (late : c.late f = true) (next : MayFollow c.block f)
    (shape : f.payload.length ≤ Server.frameMax ∧ (f.type = .rstStream → f.payload.length = 4)) :
    (c.processOneFrame f).2 = c.lateAgrees f ∧ c.Harmless (c.processOneFrame f).1 := by
  obtain ⟨type, flags, sid, payload⟩ := f
  obtain ⟨kind, finished⟩ := Bool.and_eq_true_iff.mp late
  cases type with
  | data =>
    have data : c.processOneFrame ⟨.data, flags, sid, payload⟩ = (c, c.draining sid) := by
      show c.handleDataFrame flags sid payload = _
      unfold handleDataFrame draining
      cases found : c.streamFind sid with
      | none => rfl
      | some i => exact if_pos (finished_done finished found)
    rw [data]
    exact ⟨rfl, .refl c⟩
  | headers =>
    have quiet : ¬ c.hdrBlockPending = true := by
      intro pending
      rw [Conn.block, if_pos pending] at next
      cases next.1
    show (c.handleHeadersFrame flags sid payload).2 =
        (!has flags flagEndHeaders || c.blockAgrees sid payload flags) ∧
      c.Harmless (c.handleHeadersFrame flags sid payload).1
    rw [handleHeadersFrame, if_neg quiet]
    by_cases ends : has flags flagEndHeaders = true
    · rw [if_pos ends, ends]
      exact handleHeaderBlock_late finished payload flags
    have room : ¬ hdrBlockMax < payload.length := Nat.not_lt.mpr (shape.1.trans (by decide))
    rw [if_neg ends, if_neg room, Bool.eq_false_iff.mpr ends]
    exact ⟨rfl, rfl, fun _ _ _ => rfl⟩
  | continuation =>
    have pending : c.hdrBlockPending = true := by
      by_contra quiet
      rw [Conn.block, if_neg quiet] at next
      exact next rfl
    show (c.handleContinuationFrame flags payload).2 = (decide _ && (!_ || _)) ∧
      c.Harmless (c.handleContinuationFrame flags payload).1
    unfold handleContinuationFrame
    rw [if_neg (by rw [pending]; decide)]
    by_cases long : hdrBlockMax < c.hdrBlock.length + payload.length
    · rw [if_pos long, decide_eq_false (Nat.not_le.mpr long)]
      exact ⟨rfl, .refl c⟩
    rw [if_neg long, decide_eq_true (Nat.not_lt.mp long), Bool.true_and]
    by_cases ends : has flags flagEndHeaders = true
    · rw [if_pos ends, ends]
      have collected : Conn.finished { c with hdrBlock := c.hdrBlock ++ payload }
          c.hdrBlockSid = true := finished
      obtain ⟨result, harmless⟩ := handleHeaderBlock_late collected (c.hdrBlock ++ payload)
        c.hdrBlockFlags
      exact ⟨result, harmless.dead, harmless.others⟩
    · rw [if_neg ends, Bool.eq_false_iff.mpr ends]
      exact ⟨rfl, rfl, fun _ _ _ => rfl⟩
  | rstStream =>
    show (c.handleRstStream sid payload).2 = true ∧ c.Harmless (c.handleRstStream sid payload).1
    rw [handleRstStream, if_neg (not_not.mpr (shape.2 rfl))]
    split
    · exact ⟨rfl, .refl c⟩
    rename_i i found
    have done : (c.streams i).state = .done := finished_done finished found
    rw [if_pos done]
    exact ⟨rfl, .set done _ rfl rfl⟩
  | priority | settings | pushPromise | ping | goaway | windowUpdate | unknown => cases kind

end Conn

/-! ## Sessions -/

namespace Session

/-- The condition on a step: a late frame that is delivered meets its condition. -/
def agrees (s : Session) : Label → Bool
  | .deliver => s.inflight.head?.all fun f => !s.client.conn.late f || s.client.conn.lateAgrees f
  | _ => true

end Session

/-- The sessions whose steps all meet the condition. -/
def agreeingSessions : Machine Session Session.Label :=
  sessions.restrict fun s label => s.agrees label = true

/-- **A finished stream does not kill the connection** in a session whose steps all meet the
condition: every late frame is processed without an error, the connection is as dead or alive as
before, and every stream that goes on is unchanged. -/
theorem late_frames_harmless {s s' : Session} {f : Frame} {rest : List Frame}
    (reachable : agreeingSessions.Reachable s) (step : agreeingSessions.step s .deliver = some s')
    (first : s.inflight = f :: rest) (late : s.client.conn.late f = true) :
    (s.client.conn.processOneFrame f).2 = true ∧ s.client.conn.Harmless s'.client.conn := by
  obtain ⟨agree, step⟩ := Machine.restrict_step.mp step
  have meets : s.client.conn.lateAgrees f = true := by
    simpa [Session.agrees, first, late] using agree
  have wire := Session.wire_of_reachable reachable.of_restrict
  obtain ⟨g, rest', client, inflight, moved, rfl⟩ := Session.step_deliver step
  obtain ⟨rfl, rfl⟩ : f = g ∧ rest = rest' := by
    rw [first] at inflight
    exact ⟨List.head_eq_of_cons_eq inflight, List.tail_eq_of_cons_eq inflight⟩
  obtain ⟨alive, rfl⟩ := Client.step_frame moved
  have contiguous := wire.contiguous alive
  rw [first] at contiguous
  obtain ⟨result, harmless⟩ := Conn.processOneFrame_late late contiguous.1
    (wire.shape f (by rw [first]; exact List.mem_cons_self))
  rw [meets] at result
  refine ⟨result, ?_⟩
  rcases processed : s.client.conn.processOneFrame f with ⟨c, accepted⟩
  rw [processed] at result harmless
  obtain rfl : accepted = true := result
  rw [Client.pollFrame, processed]
  exact harmless

/-- A subscription that the client aborts, as its first message says that it is
compressed, with more data in flight. -/
def abortedStream : List Session.Label :=
  [.send ⟨.settings, 0, 0, []⟩, .deliver, .client .check,
    .client (.streamOpen (ascii "/v/A") []), .receive, .receive, .receive, .receive,
    .send ⟨.headers, flagEndHeaders, 1,
      0x88 :: 0x0f :: 0x10 :: 16 :: ascii "application/grpc"⟩,
    .deliver, .client .check, .client (.streamNext 0),
    .send ⟨.data, 0, 1, [1, 0, 0, 0, 0]⟩, .send ⟨.data, 0, 1, [0]⟩, .deliver]

theorem late_frames_harmless_abortedStream :
    ∃ s s', agreeingSessions.Reachable s ∧ s.inflight = [⟨.data, 0, 1, [0]⟩] ∧
      s.client.conn.late ⟨.data, 0, 1, [0]⟩ = true ∧
      agreeingSessions.step s .deliver = some s' ∧
      (s.client.conn.processOneFrame ⟨.data, 0, 1, [0]⟩).2 = true ∧
      s.client.conn.Harmless s'.client.conn := by
  have run : ((agreeingSessions.exec (.start (ascii "k8s")) abortedStream).any fun s =>
      decide (s.inflight = [⟨.data, 0, 1, [0]⟩]) &&
        s.client.conn.late ⟨.data, 0, 1, [0]⟩ &&
        (agreeingSessions.step s .deliver).isSome) = true := by decide +kernel
  obtain ⟨s, reachable, facts⟩ := Machine.Reachable.of_any run ⟨_, rfl⟩
  rw [Bool.and_eq_true, Bool.and_eq_true, decide_eq_true_eq] at facts
  obtain ⟨⟨first, late⟩, enabled⟩ := facts
  obtain ⟨s', step⟩ := isSome_iff_exists.mp enabled
  obtain ⟨result, harmless⟩ := late_frames_harmless reachable step first late
  exact ⟨s, s', reachable, first, late, step, result, harmless⟩

/-- A unary call whose response is in flight when its time is over, and a second
one. -/
def lateResponse : List Session.Label :=
  [.send ⟨.settings, 0, 0, []⟩, .deliver, .client .check,
    .client (.unary (ascii "/v/A") [] none), .receive, .receive, .receive, .receive,
    .send ⟨.headers, flagEndHeaders, 1, [0x88]⟩, .client .expire,
    .client (.unary (ascii "/v/A") [] none)]

/-- **A finished stream can kill the connection.** The headers of the first call arrive while the
second waits: they are an error, the connection is dead, and the second call ends with UNAVAILABLE.
-/
theorem late_headers_kill_connection :
    ∃ s s' f, sessions.Reachable s ∧ s.inflight = [f] ∧ s.client.conn.late f = true ∧
      sessions.step s .deliver = some s' ∧ (s.client.conn.processOneFrame f).2 = false ∧
      s.client.conn.dead = false ∧ s'.client.conn.dead = true ∧
      ((s.client.conn.streams 0).inUse = true ∧ (s.client.conn.streams 0).id = 3 ∧
        (s.client.conn.streams 0).state = .sent) ∧
      ((s'.client.conn.streams 0).id = 3 ∧ (s'.client.conn.streams 0).state = .done ∧
        (s'.client.conn.streams 0).status = statusUnavailable) := by
  have run : ((sessions.exec (.start (ascii "k8s")) lateResponse).any fun s =>
      (sessions.step s .deliver).any fun s' =>
        decide (s.inflight = [⟨.headers, flagEndHeaders, 1, [0x88]⟩] ∧
          s.client.conn.late ⟨.headers, flagEndHeaders, 1, [0x88]⟩ = true ∧
          (s.client.conn.processOneFrame ⟨.headers, flagEndHeaders, 1, [0x88]⟩).2 = false ∧
          s.client.conn.dead = false ∧ s'.client.conn.dead = true ∧
          ((s.client.conn.streams 0).inUse = true ∧ (s.client.conn.streams 0).id = 3 ∧
            (s.client.conn.streams 0).state = .sent) ∧
          ((s'.client.conn.streams 0).id = 3 ∧ (s'.client.conn.streams 0).state = .done ∧
            (s'.client.conn.streams 0).status = statusUnavailable))) = true := by
    decide +kernel
  obtain ⟨s, reachable, facts⟩ := Machine.Reachable.of_any run ⟨_, rfl⟩
  obtain ⟨s', step, facts⟩ := (any_eq_true _ _).mp facts
  obtain ⟨first, late, failed, alive, dead, before, after⟩ := of_decide_eq_true facts
  exact ⟨s, s', _, reachable, first, late, step, failed, alive, dead, before, after⟩

end Strimserver.H2c
