import Strimserver.H2c.Frames
import Strimserver.Library.Prefixed

/-!
# The reassembly of messages

`stream_feed_data` cuts the data of a stream into messages, each behind five octets
with its length. Between two DATA frames a slot keeps the part of a message that it
has. `Stream.At` says which octets these are.

The loop takes the data in pieces: what is missing of the five octets, and what is
missing of the body. `Conn.octet` is a round of the loop for one octet, and
`streamFeedData_octets` says that the loop does what these rounds do one after another.
`Conn.Round` is what an octet does to a slot with a part of a message, and
`streamFeedData_rule` the rule for the whole loop: what the octets keep holds at its
end.
-/

namespace Strimserver.H2c

open Hpack Library Function List

/-! ## The part of a message that a slot has -/

namespace Stream

/-- The length that the five octets in front of a message tell, unless the message is
refused for them. -/
def accepts (s : Stream) : Octets → Option ℕ
  | [compressed, w, x, y, z] =>
    let length := readBe32 w x y z
    if compressed ≠ 0 ∨ maxMsg < length ∨
        (s.type = .unary ∧ s.resp.isSome ∧ s.respCap < length) then none
    else some length
  | _ => none

def withReassembly (s t : Stream) : Stream :=
  { s with
    rasmBody := t.rasmBody
    rasmHdr := t.rasmHdr
    rasmMsglen := t.rasmMsglen
    rasmGot := t.rasmGot
    rasmBuf := t.rasmBuf
    resp := t.resp }

/-- The slot is in the body of a message and has these octets of it. -/
structure InBody (s : Stream) (rest : Octets) : Prop where
  flag : s.rasmBody = true
  header : s.rasmHdr = rest.take 5
  length : s.accepts s.rasmHdr = some s.rasmMsglen
  got : rest.length = 5 + s.rasmGot
  fits : s.rasmGot ≤ s.rasmMsglen
  buffer : s.type = .subscribe → s.rasmBuf = rest.drop 5
  resp : s.type = .unary → ∀ buf ∈ s.resp, buf.take s.rasmGot = rest.drop 5

/-- The slot has these octets of a message that is not complete. -/
inductive At (s : Stream) (rest : Octets) : Prop where
  | header (flag : s.rasmBody = false) (octets : s.rasmHdr = rest) (short : rest.length < 5)
  | body (inBody : s.InBody rest) (short : s.rasmGot < s.rasmMsglen)

def reassembly (s : Stream) : StreamType × Bool × Octets × ℕ × ℕ × Octets × Option Octets × ℕ :=
  (s.type, s.rasmBody, s.rasmHdr, s.rasmMsglen, s.rasmGot, s.rasmBuf, s.resp, s.respCap)

/-- No message of the octets is refused, a call gets at most one response, and the
queue has room for all of them. -/
def takes (s : Stream) (octets : Octets) : Bool :=
  Prefixed.clean 5 s.accepts octets &&
    match s.type with
    | .unary => decide (s.msgCount + (Prefixed.messages 5 s.accepts octets).length ≤ 1)
    | .subscribe =>
      decide (s.qBytes + ((Prefixed.messages 5 s.accepts octets).map List.length).sum ≤
        queueMaxBytes)

/-- The slot of a stream that the client gives up in the middle of the data. -/
structure Quit (s s' : Stream) : Prop where
  id : s'.id = s.id
  inUse : s'.inUse = s.inUse
  type : s'.type = s.type
  state : s'.state = .done
  err : s'.err.isSome = true
  recvWindow : s'.recvWindow = s.recvWindow
  queue : s'.queue = s.queue

/-- A slot without its receive window. -/
def windowless (s : Stream) : Stream := { s with recvWindow := 0 }

/-- The slot is in the middle of a message, or in front of one. -/
def Midway (s : Stream) : Prop :=
  if s.rasmBody then s.rasmGot < s.rasmMsglen else s.rasmHdr.length < 5

instance (s : Stream) : Decidable s.Midway := inferInstanceAs (Decidable (ite _ _ _))

variable {s : Stream}

theorem midway_of_body (flag : s.rasmBody = true) (short : s.rasmGot < s.rasmMsglen) :
    s.Midway := by
  unfold Midway
  rwa [if_pos flag]

theorem accepts_congr {t : Stream} (type : t.type = s.type) (some : t.resp.isSome = s.resp.isSome)
    (cap : t.respCap = s.respCap) : t.accepts = s.accepts := by
  funext header
  unfold accepts
  rw [type, some, cap]

theorem accepts_withReassembly {t : Stream} (same : t.resp.isSome = s.resp.isSome) :
    (s.withReassembly t).accepts = s.accepts := accepts_congr rfl same rfl

variable {rest : Octets}

theorem At.congr {t : Stream} (at' : s.At rest) (same : t.reassembly = s.reassembly) :
    t.At rest := by
  simp only [reassembly, Prod.mk.injEq] at same
  obtain ⟨type, body, hdr, msglen, got, buf, resp, cap⟩ := same
  have accepts := accepts_congr type (congrArg Option.isSome resp) cap
  rcases at' with ⟨flag, header, short⟩
    | ⟨⟨flag, header, length, long, fits, buffer, copied⟩, short⟩
  · exact .header (body.trans flag) (hdr.trans header) short
  rw [← body] at flag
  rw [← hdr] at header length
  rw [← msglen, ← accepts] at length
  rw [← got] at long fits short copied
  rw [← msglen] at fits short
  rw [← type, ← buf] at buffer
  rw [← type, ← resp] at copied
  exact .body ⟨flag, header, length, long, fits, buffer, copied⟩ short

/-- What a slot has of a message is not a message. -/
theorem At.progress_eq_more (at' : s.At rest) : Prefixed.progress 5 s.accepts rest = .more := by
  unfold Prefixed.progress
  cases at' with
  | header flag octets short => exact if_pos short
  | body inBody short =>
    have long := inBody.got
    rw [if_neg (by omega), ← inBody.header, inBody.length]
    exact if_pos (by omega)

theorem takes_of_message {octets m more : Octets}
    (front : Prefixed.progress 5 s.accepts octets = .message m more) :
    s.takes octets = true ↔ Prefixed.clean 5 s.accepts more = true ∧
      (s.type = .unary → s.msgCount + (1 + (Prefixed.messages 5 s.accepts more).length) ≤ 1) ∧
      (s.type = .subscribe → s.qBytes + (m.length +
        ((Prefixed.messages 5 s.accepts more).map List.length).sum) ≤ queueMaxBytes) := by
  obtain ⟨messages, -⟩ := Prefixed.messages_of_message (by decide) front
  unfold takes
  rw [Prefixed.clean_of_message (by decide) front, messages, Bool.and_eq_true]
  rcases type : s.type with _ | _
  · simp [Nat.add_comm 1]
  · simp

theorem takes_of_refused {header : Octets} (five : header.length = 5)
    (none : s.accepts header = none) (left : Octets) : s.takes (header ++ left) = false := by
  unfold takes
  rw [Prefixed.clean_of_refused (Prefixed.progress_of_refused five none left), Bool.false_and]

theorem At.midway (at' : s.At rest) : s.Midway := by
  cases at' with
  | header flag octets short =>
    rw [Midway, if_neg (by rw [flag]; decide), octets]
    exact short
  | body inBody short => exact midway_of_body inBody.flag short

end Stream

namespace Conn

/-! ## How the updates compose -/

variable (c : Conn) (i : Slot) (s : Stream)

@[simp] theorem set_streams : (c.set i s).streams i = s := update_self ..

@[simp] theorem set_set (s' : Stream) : (c.set i s).set i s' = c.set i s' := by
  unfold set
  rw [update_idem]

theorem set_frameWrite (f : Frame) :
    (c.set i s).frameWrite f = ((c.frameWrite f).1.set i s, (c.frameWrite f).2) := by
  unfold frameWrite
  split
  · rfl
  · dsimp only [set]
    split <;> rfl

theorem set_frameWriteRst (sid : ℕ) (code : H2Code) :
    (c.set i s).frameWriteRst sid code = (c.frameWriteRst sid code).set i s := by
  unfold frameWriteRst
  rw [set_frameWrite]

theorem set_frameWriteWindowUpdate (sid inc : ℕ) :
    (c.set i s).frameWriteWindowUpdate sid inc = (c.frameWriteWindowUpdate sid inc).set i s := by
  unfold frameWriteWindowUpdate
  rw [set_frameWrite]

theorem set_streamAbort (code : H2Code) (err : H2cError) :
    (c.set i s).streamAbort i code err = (c.frameWriteRst s.id code).set i
        { s with state := .done, status := statusInternal, err := some err, rasmBuf := [] } := by
  unfold streamAbort
  rw [set_streams, set_frameWriteRst, set_set, set_streams]

theorem streamAbort_eq (code : H2Code) (err : H2cError) :
    c.streamAbort i code err = (c.frameWriteRst (c.streams i).id code).set i { c.streams i with
        state := .done, status := statusInternal, err := some err, rasmBuf := [] } := by
  unfold streamAbort
  dsimp only
  rw [frameWriteRst_streams]

/-- The connection behind the two updates for a message. -/
def creditConn (c : Conn) (sid total : ℕ) : Conn :=
  (Conn.frameWriteWindowUpdate { c with connRecvWindow := c.connRecvWindow + int32 total } sid
    total).frameWriteWindowUpdate 0 total

def creditRefused (c : Conn) (window : ℤ) (total : ℕ) : Bool :=
  decide (total = 0 ∨ 0x7fffffff - int32 total < window ∨
    0x7fffffff - int32 total < c.connRecvWindow)

theorem streamCreditMessage_eq (total : ℕ) : c.streamCreditMessage i total =
      if c.creditRefused (c.streams i).recvWindow total then c
      else
        (c.creditConn (c.streams i).id total).set i
          { c.streams i with recvWindow := (c.streams i).recvWindow + int32 total } := by
  unfold streamCreditMessage creditConn
  rw [← set_frameWriteWindowUpdate, ← set_frameWriteWindowUpdate]
  dsimp only
  by_cases refused : c.creditRefused (c.streams i).recvWindow total = true
  · rw [if_pos refused]
    rcases of_decide_eq_true refused with zero | stream | conn
    · rw [if_pos zero]
    · rw [if_pos stream, ite_self]
    · rw [if_pos conn, ite_self, ite_self]
  rw [if_neg refused]
  obtain ⟨zero, stream, conn⟩ : ¬ _ ∧ ¬ _ ∧ ¬ _ := by
    simpa only [creditRefused, decide_eq_true_eq, not_or] using refused
  rw [if_neg zero, if_neg stream, if_neg conn]
  rfl

/-- Credit looks at the window and the identifier of a slot only. -/
theorem set_streamCreditMessage {s : Stream} (total : ℕ)
    (window : s.recvWindow = (c.streams i).recvWindow) (id : s.id = (c.streams i).id) :
    (c.set i s).streamCreditMessage i total = (c.streamCreditMessage i total).set i
        { s with recvWindow := ((c.streamCreditMessage i total).streams i).recvWindow } := by
  have refused : (c.set i s).creditRefused = c.creditRefused := rfl
  have conn : (c.set i s).creditConn s.id total = (c.creditConn s.id total).set i s := by
    unfold creditConn
    rw [← set_frameWriteWindowUpdate, ← set_frameWriteWindowUpdate]
    rfl
  rw [streamCreditMessage_eq, streamCreditMessage_eq, set_streams, refused, conn, window]
  split
  · rw [← window]
  · rw [set_set, set_set, set_streams, ← id]

@[simp] theorem set_self : c.set i (c.streams i) = c := by
  unfold set
  rw [update_eq_self]

/-! ## Octets of a body -/

variable (octets : Octets)

theorem copyBody_eq : copyBody s octets = s.withReassembly (copyBody s octets) := by
  obtain ⟨_, _, _ | _⟩ := s <;> rfl

theorem copyBody_resp_isSome : (copyBody s octets).resp.isSome = s.resp.isSome := by
  unfold copyBody
  split
  · rfl
  · exact Option.isSome_map ..

theorem copyBody_rasm :
    (copyBody s octets).rasmBody = s.rasmBody ∧ (copyBody s octets).rasmHdr = s.rasmHdr ∧
      (copyBody s octets).rasmMsglen = s.rasmMsglen ∧
      (copyBody s octets).rasmGot = s.rasmGot + octets.length := by
  unfold copyBody
  split <;> exact ⟨rfl, rfl, rfl, rfl⟩

theorem copyBody_inBody {s : Stream} {rest : Octets} (inBody : s.InBody rest) (octets : Octets)
    (fits : s.rasmGot + octets.length ≤ s.rasmMsglen) :
    (copyBody s octets).InBody (rest ++ octets) := by
  obtain ⟨body, header, msglen, got⟩ := copyBody_rasm s octets
  have type : (copyBody s octets).type = s.type := by rw [copyBody_eq]; rfl
  have long := inBody.got
  have accepts : (copyBody s octets).accepts = s.accepts := by
    rw [copyBody_eq]
    exact Stream.accepts_withReassembly (copyBody_resp_isSome s octets)
  refine ⟨body.trans inBody.flag, ?_, ?_, ?_, ?_, ?_, ?_⟩
  · rw [header, inBody.header, take_append_of_le_length (by omega)]
  · rw [accepts, header, msglen, inBody.length]
  · rw [length_append, got, long, Nat.add_assoc]
  · rw [got, msglen]
    exact fits
  · intro subscribe
    rw [type] at subscribe
    rw [drop_append_of_le_length (by omega), ← inBody.buffer subscribe, copyBody, subscribe]
  intro unary buf mem
  rw [type] at unary
  rw [copyBody, unary] at mem ⊢
  obtain ⟨old, stored, rfl⟩ := Option.map_eq_some_iff.mp mem
  rw [drop_append_of_le_length (by omega)]
  have full : (rest.drop 5).length = s.rasmGot := by
    rw [length_drop]
    omega
  rw [overwrite, inBody.resp unary old stored, ← full, ← length_append]
  exact take_left

theorem copyBody_nil : copyBody s [] = s := by
  obtain ⟨_, _, _ | _⟩ := s
  · simp [copyBody, overwrite]
  · simp [copyBody]

theorem overwrite_overwrite (buffer : Octets) (off : ℕ) (first second : Octets) :
    overwrite (overwrite buffer off first) (off + first.length) second =
      overwrite buffer off (first ++ second) := by
  have within : (buffer.take off ++ first).length ≤ off + first.length := by
    rw [length_append, length_take]
    omega
  have behind : (buffer.drop (off + first.length)).take
      (off + first.length - (buffer.take off ++ first).length) = [] := by
    rw [length_append, length_take]
    by_cases short : buffer.length ≤ off
    · rw [drop_eq_nil_of_le (by omega), take_nil]
    · rw [Nat.min_eq_left (by omega), Nat.sub_self, take_zero]
  have left : (buffer.drop (off + first.length)).drop
      (off + first.length + second.length - (buffer.take off ++ first).length) =
      buffer.drop (off + (first ++ second).length) := by
    rw [drop_drop, length_append, length_append, length_take]
    by_cases short : buffer.length ≤ off
    · rw [drop_eq_nil_of_le (by omega), drop_eq_nil_of_le (by omega)]
    · congr 1
      omega
  unfold overwrite
  rw [take_append, take_of_length_le within, behind, append_nil, drop_append, left,
    drop_eq_nil_of_le (by omega), nil_append, append_assoc (buffer.take off)]

theorem copyBody_append (first second : Octets) :
    copyBody s (first ++ second) = copyBody (copyBody s first) second := by
  obtain ⟨_, _, _ | _⟩ := s
  · simp [copyBody, Option.map_map, comp_def, overwrite_overwrite, Nat.add_assoc]
  · simp [copyBody, Nat.add_assoc]

theorem copyBody_state (data : Octets) : (copyBody s data).state = s.state := by
  rw [copyBody_eq]
  rfl

variable {c i}

/-! ## One octet of the data -/

def feedRound (c : Conn) (i : Slot) (data : Octets) : Feed :=
  match c.feedHeader i data with
  | .stop c => .stop c
  | .next c rest => c.feedBody i rest

theorem streamFeedData_cons (fuel : ℕ) (c : Conn) (i : Slot) (b : UInt8) (data : Octets) :
    streamFeedData (fuel + 1) c i (b :: data) = match c.feedRound i (b :: data) with
      | .stop c => c
      | .next c rest => streamFeedData fuel c i rest := by
  rw [streamFeedData, feedRound]
  rcases c.feedHeader i (b :: data) with c₁ | ⟨c₁, rest⟩ <;> rfl

/-- The second part of the loop behind the first. -/
def Feed.thenBody (i : Slot) : Feed → Feed
  | .stop c => .stop c
  | .next c data => c.feedBody i data

theorem feedRound_eq (c : Conn) (i : Slot) (data : Octets) :
    c.feedRound i data = (c.feedHeader i data).thenBody i := by
  unfold feedRound
  cases c.feedHeader i data with
  | stop => rfl
  | next => rfl

/-- How a part of the loop depends on its data: the stream ends or a message is complete before the
data is looked at, or only now a round begins. -/
inductive Peeled (i : Slot) (feed : Octets → Feed) : Prop where
  | ended (c : Conn) (done : (c.streams i).state = .done) (all : ∀ data, feed data = .stop c)
  | whole (c : Conn) (going : (c.streams i).state ≠ .done) (midway : (c.streams i).Midway)
      (all : ∀ data, feed data = .next c data)
  | part (c : Conn) (going : (c.streams i).state ≠ .done) (midway : (c.streams i).Midway)
      (none : feed [] = .stop c ∨ feed [] = .next c [])
      (more : ∀ b data, feed (b :: data) = c.feedRound i (b :: data))

/-- Credit changes nothing of the slot but its window. -/
theorem streamCreditMessage_windowless (c : Conn) (i : Slot) (total : ℕ) :
    ((c.streamCreditMessage i total).streams i).windowless = (c.streams i).windowless := by
  rw [streamCreditMessage_eq]
  split
  · rfl
  · rw [set_streams]
    rfl

theorem completeMessage_peeled (going : (c.streams i).state ≠ .done) :
    Peeled i (c.completeMessage i) := by
  unfold completeMessage
  dsimp only
  cases (c.streams i).type with
  | subscribe =>
    by_cases full : queueMaxBytes < (c.streams i).qBytes + (c.streams i).rasmMsglen
    · simp only [if_pos full]
      exact .ended _ (by rw [streamAbort_eq, set_streams]) fun _ => rfl
    · simp only [if_neg full]
      exact .whole _ (by rwa [set_streams]) (by rw [set_streams]; exact Nat.succ_pos 4) fun _ => rfl
  | unary =>
    by_cases second : 1 < (c.streams i).msgCount + 1
    · simp only [if_pos second]
      exact .ended _ (by rw [streamAbort_eq, set_streams]) fun _ => rfl
    simp only [if_neg second]
    refine .whole _ ?_ (by rw [set_streams]; exact Nat.succ_pos 4) fun _ => rfl
    have state (c : Conn) (n : ℕ) :
        ((c.streamCreditMessage i n).streams i).state = (c.streams i).state :=
      (congrArg Stream.state (streamCreditMessage_windowless c i n) :)
    rw [set_streams, state, set_streams]
    exact going

theorem feedBody_nil (flag : (c.streams i).rasmBody = true) :
    c.feedBody i [] = if (c.streams i).rasmGot < (c.streams i).rasmMsglen then .next c []
      else c.completeMessage i [] := by
  unfold feedBody
  dsimp only
  rw [flag, take_nil, drop_nil, copyBody_nil, set_self]
  rfl

theorem feedBody_peeled (going : (c.streams i).state ≠ .done) (flag : (c.streams i).rasmBody = true)
    (fits : (c.streams i).rasmGot ≤ (c.streams i).rasmMsglen) : Peeled i (c.feedBody i) := by
  have start (data : Octets) : c.feedHeader i data = .next c data := if_pos flag
  rcases fits.lt_or_eq with short | all
  · refine .part c going (Stream.midway_of_body flag short) (.inr ?_) fun b data => ?_
    · rw [feedBody_nil flag, if_pos short]
    · rw [feedRound_eq, start]
      rfl
  have complete : c.feedBody i = c.completeMessage i := by
    funext data
    unfold feedBody
    dsimp only
    rw [flag, all, Nat.sub_self, take_zero, drop_zero, copyBody_nil, set_self]
    exact if_neg all.not_lt
  rw [complete]
  exact completeMessage_peeled going

theorem startMessage_peeled (going : (c.streams i).state ≠ .done) (msglen : ℕ) :
    Peeled i fun data => (c.startMessage i msglen data).thenBody i := by
  unfold startMessage
  by_cases long : maxMsg < msglen
  · simp only [if_pos long]
    exact .ended _ (by rw [set_streamAbort, set_streams]) fun _ => rfl
  simp only [if_neg long]
  cases (c.streams i).type with
  | subscribe =>
    refine feedBody_peeled ?_ ?_ ?_ <;> rw [set_streams]
    · exact going
    · exact Nat.zero_le _
  | unary =>
    by_cases small : (c.streams i).resp.isSome = true ∧ (c.streams i).respCap < msglen
    · simp only [if_pos small]
      exact .ended _ (by rw [set_streams]) fun _ => rfl
    simp only [if_neg small]
    refine feedBody_peeled ?_ ?_ ?_ <;> rw [set_streams]
    · exact going
    · exact Nat.zero_le _

/-- The first part of the loop, when the slot has what the data has of the five octets. -/
def judgeHeader (c : Conn) (i : Slot) (data : Octets) : Feed :=
  match (c.streams i).rasmHdr with
  | [compressed, w, x, y, z] =>
    if compressed ≠ 0 then .stop (c.streamAbort i .internal .proto)
    else c.startMessage i (readBe32 w x y z) data
  | _ => .stop c

theorem judgeHeader_short (short : (c.streams i).rasmHdr.length < 5) (data : Octets) :
    c.judgeHeader i data = .stop c := by
  unfold judgeHeader
  split
  · rename_i five
    rw [five] at short
    exact absurd short (Nat.lt_irrefl 5)
  · rfl

/-- The five octets in front of a message are there. -/
theorem judgeHeader_peeled (going : (c.streams i).state ≠ .done)
    (five : (c.streams i).rasmHdr.length = 5) :
    Peeled i fun data => (c.judgeHeader i data).thenBody i := by
  unfold judgeHeader
  match (c.streams i).rasmHdr, five with
  | [compressed, w, x, y, z], _ =>
    by_cases packed : compressed ≠ 0
    · simp only [if_pos packed]
      exact .ended _ (by rw [streamAbort_eq, set_streams]) fun _ => rfl
    · simp only [if_neg packed]
      exact startMessage_peeled going _

theorem feedHeader_eq (flag : ¬ (c.streams i).rasmBody = true) (data : Octets) :
    c.feedHeader i data = Conn.judgeHeader (c.set i { c.streams i with
          rasmHdr := (c.streams i).rasmHdr ++ data.take (5 - (c.streams i).rasmHdr.length) })
        i (data.drop (5 - (c.streams i).rasmHdr.length)) := by
  unfold feedHeader judgeHeader
  conv_rhs => rw [set_streams]
  exact if_neg flag

theorem feedRound_body (flag : (c.streams i).rasmBody = true)
    (short : (c.streams i).rasmGot < (c.streams i).rasmMsglen) (b : UInt8) (data : Octets) :
    c.feedRound i (b :: data) = (c.set i (copyBody (c.streams i) [b])).feedBody i data := by
  rw [feedRound_eq, show c.feedHeader i (b :: data) = .next c (b :: data) from if_pos flag]
  obtain ⟨body, -, msglen, got⟩ := copyBody_rasm (c.streams i) [b]
  obtain ⟨need, eq⟩ := Nat.exists_eq_add_of_lt short
  have before : (c.streams i).rasmMsglen - (c.streams i).rasmGot = need + 1 := by omega
  have after : (c.streams i).rasmMsglen - ((c.streams i).rasmGot + [b].length) = need := by
    rw [length_singleton]
    omega
  show c.feedBody i (b :: data) = _
  unfold feedBody
  dsimp only
  rw [set_streams, body, msglen, got, flag, before, after, set_set, ← copyBody_append]
  rfl

theorem feedRound_header (flag : ¬ (c.streams i).rasmBody = true) {need : ℕ}
    (eq : 5 - (c.streams i).rasmHdr.length = need + 1) (b : UInt8) (data : Octets) :
    c.feedRound i (b :: data) = ((c.set i { c.streams i with
          rasmHdr := (c.streams i).rasmHdr ++ b :: data.take need }).judgeHeader
        i (data.drop need)).thenBody i := by
  rw [feedRound_eq, feedHeader_eq flag, eq]
  rfl

/-- **An octet of the data.** -/
theorem feedRound_peeled (going : (c.streams i).state ≠ .done) (midway : (c.streams i).Midway)
    (b : UInt8) : Peeled i fun data => c.feedRound i (b :: data) := by
  unfold Stream.Midway at midway
  split_ifs at midway with flag
  · obtain ⟨flag', -, msglen, got⟩ := copyBody_rasm (c.streams i) [b]
    simp only [feedRound_body flag midway]
    refine feedBody_peeled ?_ ?_ ?_ <;> rw [set_streams]
    · rwa [copyBody_state]
    · rwa [flag']
    · rwa [got, msglen]
  obtain ⟨need, eq⟩ : ∃ need, 5 - (c.streams i).rasmHdr.length = need + 1 :=
    ⟨_, (Nat.succ_pred_eq_of_pos (Nat.sub_pos_of_lt midway)).symm⟩
  simp only [feedRound_header flag eq]
  rcases need with _ | need
  · simp only [take_zero, drop_zero]
    refine judgeHeader_peeled ?_ ?_ <;> rw [set_streams]
    · exact going
    · rw [length_append, length_singleton]
      omega
  have length : ((c.streams i).rasmHdr ++ [b]).length = 4 - need := by
    rw [length_append, length_singleton]
    omega
  refine .part (c.set i { c.streams i with rasmHdr := (c.streams i).rasmHdr ++ [b] })
    (by rwa [set_streams]) ?_ (.inl ?_) fun b' data => ?_
  · rw [set_streams, Stream.Midway, if_neg flag]
    exact length.trans_lt (by omega)
  · rw [take_nil, judgeHeader_short (by rw [set_streams]; exact length.trans_lt (by omega))]
    rfl
  · rw [feedRound_eq, feedHeader_eq (by rwa [set_streams]), set_streams, set_set, length,
      show 5 - (4 - need) = need + 1 by omega, append_assoc]
    rfl

/-! ## The loop -/

/-- A round of the loop for one octet. A stream that has ended takes none. -/
def octet (c : Conn) (i : Slot) (b : UInt8) : Conn :=
  if (c.streams i).state = .done then c else (c.feedRound i [b]).conn

theorem foldl_octet_done (done : (c.streams i).state = .done) (data : Octets) :
    data.foldl (octet · i) c = c := by
  induction data with
  | nil => rfl
  | cons b data ih => rw [foldl_cons, octet, if_pos done, ih]

variable {data : Octets} {fuel : ℕ}

/-- **`stream_feed_data` takes the data octet by octet.** -/
theorem streamFeedData_octets (going : (c.streams i).state ≠ .done) (midway : (c.streams i).Midway)
    (enough : data.length ≤ fuel) : streamFeedData fuel c i data = data.foldl (octet · i) c := by
  induction data generalizing c fuel with
  | nil => cases fuel <;> rfl
  | cons b data ih =>
    obtain ⟨fuel, rfl⟩ := Nat.exists_eq_add_of_lt (Nat.lt_of_lt_of_le (Nat.succ_pos _) enough)
    rw [streamFeedData_cons, foldl_cons, octet, if_neg going]
    cases feedRound_peeled going midway b with
    | ended c' done all => rw [all, all, Feed.conn, foldl_octet_done done]
    | whole c' going' midway' all =>
      rw [all, all]
      exact ih going' midway' (Nat.le_of_succ_le_succ enough)
    | part c' going' midway' none more =>
      have one : (c.feedRound i [b]).conn = c' := by rcases none with eq | eq <;> rw [eq, Feed.conn]
      rw [one]
      rcases data with _ | ⟨b', data⟩
      · rcases none with eq | eq <;> rw [eq]
        · rfl
        · cases fuel <;> rfl
      · rw [more, ← streamFeedData_cons]
        exact ih going' midway' (Nat.le_of_succ_le enough)

/-- Octets keep the slot midway, unless the stream ends. -/
theorem foldl_octet_midway (midway : (c.streams i).state ≠ .done → (c.streams i).Midway)
    (going : ((data.foldl (octet · i) c).streams i).state ≠ .done) :
    ((data.foldl (octet · i) c).streams i).Midway := by
  induction data generalizing c with
  | nil => exact midway going
  | cons b data ih =>
    refine ih ?_ going
    unfold octet
    dsimp only
    split_ifs with before
    · exact midway
    cases feedRound_peeled before (midway before) b with
    | ended c' done all => exact fun going' => absurd done (by rwa [all] at going')
    | whole c' going' midway' all => exact fun _ => by rwa [all]
    | part c' going' midway' none => rcases none with eq | eq <;> exact fun _ => by rwa [eq]

/-! ## What an octet does to a part of a message -/

/-- What an octet does to a slot with some octets of a message, and which octets it has
then. -/
inductive Round (c : Conn) (i : Slot) (rest : Octets) (b : UInt8) : Conn → Octets → Prop where
  /-- The message is not complete. -/
  | more {t : Stream} (at' : ((c.streams i).withReassembly t).At (rest ++ [b]))
      (same : t.resp.isSome = (c.streams i).resp.isSome) :
      Round c i rest b (c.set i ((c.streams i).withReassembly t)) (rest ++ [b])
  /-- A message goes to the queue. -/
  | queued {t : Stream} {m : Octets}
      (front : ∀ left, Prefixed.progress 5 (c.streams i).accepts (rest ++ b :: left) =
        .message m left)
      (type : (c.streams i).type = .subscribe) (flag : t.rasmBody = false) (header : t.rasmHdr = [])
      (same : t.resp.isSome = (c.streams i).resp.isSome) :
      Round c i rest b (c.set i
        { (c.streams i).withReassembly t with
          queue := (c.streams i).queue ++ [m], qBytes := (c.streams i).qBytes + m.length }) []
  /-- A message is the response, and credit is given for it. -/
  | answered {t : Stream} {m : Octets}
      (front : ∀ left, Prefixed.progress 5 (c.streams i).accepts (rest ++ b :: left) =
        .message m left)
      (type : (c.streams i).type = .unary) (first : (c.streams i).msgCount = 0)
      (flag : t.rasmBody = false) (header : t.rasmHdr = [])
      (same : t.resp.isSome = (c.streams i).resp.isSome)
      (resp : ∀ buf ∈ t.resp, buf.take m.length = m) :
      Round c i rest b ((c.streamCreditMessage i (m.length + 5)).set i
        { (c.streams i).withReassembly t with
          respLen := m.length
          msgCount := 1
          recvWindow := ((c.streamCreditMessage i (m.length + 5)).streams i).recvWindow }) []

/-- The octet is taken, or the stream is given up as the data is not taken as a whole. -/
inductive Taken (c : Conn) (i : Slot) (rest : Octets) (b : UInt8) : Conn → Prop where
  | round {c' : Conn} {rest' : Octets} (round : Round c i rest b c' rest') : Taken c i rest b c'
  | quit {s' : Stream} (code : H2Code) (quit : (c.streams i).Quit s')
      (untaken : ∀ left, (c.streams i).takes (rest ++ b :: left) = false) :
      Taken c i rest b ((c.frameWriteRst (c.streams i).id code).set i s')

section Round

variable {c₀ : Conn} {t : Stream} {rest : Octets} {b : UInt8}

section

variable (conn : c = c₀.set i ((c₀.streams i).withReassembly t))
  (same : t.resp.isSome = (c₀.streams i).resp.isSome)

include conn same

theorem completeMessage_taken (inBody : ((c₀.streams i).withReassembly t).InBody (rest ++ [b]))
    (complete : t.rasmGot = t.rasmMsglen) : Taken c₀ i rest b (c.completeMessage i []).conn := by
  have long : (rest ++ [b]).length = 5 + t.rasmGot := inBody.got
  have length : ((rest ++ [b]).drop 5).length = t.rasmGot := by
    rw [length_drop, long, Nat.add_sub_cancel_left]
  have front (left : Octets) : Prefixed.progress 5 (c₀.streams i).accepts (rest ++ b :: left) =
      .message ((rest ++ [b]).drop 5) left := by
    rw [append_cons, Prefixed.progress_eq_message_iff]
    refine ⟨(rest ++ [b]).take 5, ?_, ?_, ?_⟩
    · rw [length_take]
      omega
    · have accepted := inBody.length
      rw [inBody.header, Stream.accepts_withReassembly same] at accepted
      rw [accepted, length, complete]
      rfl
    · rw [← append_assoc, take_append_drop]
  have msglen : ((c₀.streams i).withReassembly t).rasmMsglen = ((rest ++ [b]).drop 5).length :=
    complete.symm.trans length.symm
  subst conn
  unfold completeMessage
  rw [set_streams]
  dsimp only
  split
  · rename_i subscribe
    rw [msglen, inBody.buffer subscribe]
    split
    · rename_i excess
      rw [set_streamAbort]
      refine .quit _ ⟨rfl, rfl, rfl, rfl, rfl, rfl, rfl⟩ fun left => Bool.eq_false_iff.mpr
        fun whole => ?_
      have room := ((Stream.takes_of_message (front left)).mp whole).2.2 subscribe
      change queueMaxBytes < (c₀.streams i).qBytes + _ at excess
      omega
    rw [set_set]
    exact .round (.queued (t := { t with
        rasmBuf := [], rasmBody := false, rasmHdr := [],
          rasmMsglen := ((rest ++ [b]).drop 5).length })
      front subscribe rfl rfl same)
  rename_i unary
  rw [set_set]
  split_ifs with excess
  · rw [set_streamAbort]
    refine .quit _ ⟨rfl, rfl, rfl, rfl, rfl, rfl, rfl⟩ fun left => Bool.eq_false_iff.mpr
      fun whole => ?_
    have once := ((Stream.takes_of_message (front left)).mp whole).2.1 unary
    change 1 < (c₀.streams i).msgCount + 1 at excess
    omega
  have none : (c₀.streams i).msgCount = 0 := Nat.lt_one_iff.mp (Nat.not_lt.mp excess)
  have resp : ∀ buf ∈ t.resp, buf.take ((rest ++ [b]).drop 5).length = (rest ++ [b]).drop 5 :=
    fun buf mem => length ▸ inBody.resp unary buf mem
  rw [set_streamCreditMessage, set_set, set_streams,
    show ((c₀.streams i).withReassembly t).rasmGot = ((rest ++ [b]).drop 5).length from length.symm,
    show ((c₀.streams i).withReassembly t).msgCount = 0 from none]
  · exact .round (.answered
      (t := { t with rasmBody := false, rasmHdr := [], rasmGot := ((rest ++ [b]).drop 5).length })
      front unary none rfl rfl same resp)
  · rfl
  · rfl

theorem feedBody_taken (inBody : ((c₀.streams i).withReassembly t).InBody (rest ++ [b])) :
    Taken c₀ i rest b (c.feedBody i []).conn := by
  have slot : c.streams i = (c₀.streams i).withReassembly t := by rw [conn, set_streams]
  rw [feedBody_nil (by rw [slot]; exact inBody.flag), slot]
  split_ifs with short
  · rw [conn]
    exact .round (.more (.body inBody short) same)
  · exact completeMessage_taken conn same inBody (le_antisymm inBody.fits (Nat.not_lt.mp short))

theorem startMessage_taken {w x y z : UInt8} (stored : t.rasmHdr = [0, w, x, y, z])
    (octets : rest ++ [b] = [0, w, x, y, z]) :
    Taken c₀ i rest b ((c.startMessage i (readBe32 w x y z) []).thenBody i).conn := by
  have quits {s' : Stream} (code : H2Code) (quit : (c₀.streams i).Quit s')
      (none : (c₀.streams i).accepts [0, w, x, y, z] = none) :
      Taken c₀ i rest b ((c₀.frameWriteRst (c₀.streams i).id code).set i s') := by
    refine .quit code quit fun left => ?_
    rw [append_cons, octets]
    exact Stream.takes_of_refused rfl none left
  -- The body is expected.
  have begins {u : Stream} (same : u.resp.isSome = (c₀.streams i).resp.isSome)
    (flag : u.rasmBody = true)
      (stored : u.rasmHdr = [0, w, x, y, z]) (none : u.rasmGot = 0)
      (accepted : (c₀.streams i).accepts [0, w, x, y, z] = some u.rasmMsglen)
      (empty : (c₀.streams i).type = .subscribe → u.rasmBuf = []) :
      Taken c₀ i rest b ((c₀.set i ((c₀.streams i).withReassembly u)).feedBody i []).conn := by
    refine feedBody_taken rfl same ?_
    rw [octets]
    refine ⟨flag, stored, ?_, congrArg (5 + ·) none.symm, none.le.trans (Nat.zero_le _), empty,
      fun _ buf _ => ?_⟩
    · rw [Stream.accepts_withReassembly same]
      exact (congrArg _ stored).trans accepted
    · exact (congrArg buf.take none).trans take_zero
  subst conn
  unfold startMessage
  rw [set_streams]
  dsimp only
  rw [set_set, set_streamAbort, show ((c₀.streams i).withReassembly t).type = (c₀.streams i).type
    from rfl, show ((c₀.streams i).withReassembly t).respCap = (c₀.streams i).respCap from rfl]
  by_cases long : maxMsg < readBe32 w x y z
  · rw [if_pos long]
    exact quits _ ⟨rfl, rfl, rfl, rfl, rfl, rfl, rfl⟩ (if_pos (.inr (.inl long)))
  rw [if_neg long]
  cases type : (c₀.streams i).type with
  | subscribe =>
    dsimp only
    rw [set_set, ← type]
    refine begins (u := { t with
        rasmMsglen := readBe32 w x y z, rasmGot := 0, rasmBuf := [], rasmBody := true })
      same rfl stored rfl (if_neg ?_) fun _ => rfl
    rintro (compressed | long' | ⟨unary, -⟩)
    · exact compressed rfl
    · exact long long'
    · rw [type] at unary
      cases unary
  | unary =>
    dsimp only
    by_cases small : ((c₀.streams i).withReassembly t).resp.isSome = true ∧
        (c₀.streams i).respCap < readBe32 w x y z
    · rw [if_pos small, set_frameWriteRst, set_set]
      refine quits _ ⟨rfl, rfl, type.symm, rfl, rfl, rfl, rfl⟩
        (if_pos (.inr (.inr ⟨type, ?_, small.2⟩)))
      rw [← same]
      exact small.1
    rw [if_neg small, set_set, ← type]
    refine begins (u := { t with rasmMsglen := readBe32 w x y z, rasmGot := 0, rasmBody := true })
      same rfl stored rfl (if_neg ?_) fun subscribe => absurd (type.symm.trans subscribe) nofun
    rintro (compressed | long' | ⟨-, some, cap⟩)
    · exact compressed rfl
    · exact long long'
    · rw [← same] at some
      exact small ⟨some, cap⟩

end

/-- **An octet**, for a slot with some octets of a message. -/
theorem octet_taken (at' : (c.streams i).At rest) (going : (c.streams i).state ≠ .done)
    (b : UInt8) : Taken c i rest b (c.octet i b) := by
  rw [octet, if_neg going]
  cases at' with
  | body inBody short =>
    rw [feedRound_body inBody.flag short, copyBody_eq]
    refine feedBody_taken rfl (copyBody_resp_isSome ..) ?_
    rw [← copyBody_eq]
    exact copyBody_inBody inBody [b] short
  | header flag stored short =>
    have hdr : (c.streams i).rasmHdr = rest := stored
    obtain ⟨need, eq⟩ : ∃ need, 5 - (c.streams i).rasmHdr.length = need + 1 :=
      ⟨_, (Nat.succ_pred_eq_of_pos (Nat.sub_pos_of_lt (by rw [hdr]; exact short))).symm⟩
    rw [feedRound_header (by rw [flag]; decide) eq, take_nil, drop_nil, hdr]
    by_cases few : (rest ++ [b]).length < 5
    · rw [judgeHeader_short (by rw [set_streams]; exact few)]
      exact .round
        (.more (t := { c.streams i with rasmHdr := rest ++ [b] }) (.header flag rfl few) rfl)
    have five : (rest ++ [b]).length = 5 := by
      rw [length_append, length_singleton] at few ⊢
      omega
    obtain ⟨compressed, w, x, y, z, header⟩ : ∃ compressed w x y z,
        rest ++ [b] = [compressed, w, x, y, z] := by
      match rest ++ [b], five with
      | [compressed, w, x, y, z], _ => exact ⟨compressed, w, x, y, z, rfl⟩
    unfold judgeHeader
    rw [set_streams, header]
    dsimp only
    by_cases packed : compressed = 0
    · subst packed
      exact startMessage_taken (t := { c.streams i with rasmHdr := [0, w, x, y, z] }) rfl
        rfl rfl header
    have none : (c.streams i).accepts [compressed, w, x, y, z] = none := if_pos (.inl packed)
    rw [if_pos packed, set_streamAbort]
    refine .quit _ ⟨rfl, rfl, rfl, rfl, rfl, rfl, rfl⟩ fun left => ?_
    rw [append_cons, header]
    exact Stream.takes_of_refused rfl none left

end Round

/-- **The rule for the loop.** A property of the connection, the octets of a message that the slot
has and the data that is left is kept by the octets that are taken, and gives the result where the
stream is given up and at the end of the data. -/
theorem streamFeedData_rule {P : Conn → Octets → Octets → Prop} {Q : Conn → Prop}
    (start : ∀ {c rest data}, P c rest data → (c.streams i).At rest ∧ (c.streams i).state ≠ .done)
    (quit : ∀ {c rest b left s'} (code : H2Code), P c rest (b :: left) → (c.streams i).Quit s' →
      (c.streams i).takes (rest ++ b :: left) = false →
        Q ((c.frameWriteRst (c.streams i).id code).set i s'))
    (next : ∀ {c rest b left c' rest'}, P c rest (b :: left) → Round c i rest b c' rest' →
      P c' rest' left) (done : ∀ {c rest}, P c rest [] → Q c) {rest : Octets}
    (holds : P c rest data) (enough : data.length ≤ fuel) :
    Q (streamFeedData fuel c i data) := by
  rw [streamFeedData_octets (start holds).2 (start holds).1.midway enough]
  clear enough
  induction data generalizing c rest with
  | nil => exact done holds
  | cons b left ih =>
    rw [foldl_cons]
    have taken := octet_taken (start holds).1 (start holds).2 b
    generalize c.octet i b = c' at taken ⊢
    cases taken with
    | round round => exact ih (next holds round)
    | quit code quits untaken =>
      rw [foldl_octet_done (by rw [set_streams]; exact quits.state)]
      exact quit code holds quits (untaken left)

end Conn

end Strimserver.H2c
