import Strimserver.H2c.Delivery
import Mathlib.Data.FinEnum

/-!
# The success of a call

`h2c_unary` returns 0 when the stream of its call is done with status 0. The status is
that of a header block, whatever came before it: `exchanging` records what the server
has sent on the stream, frame by frame, and `Complete` says which exchanges are
complete and successful.

The code itself asks for less. A block with `grpc-status` 0 ends the call also without
response headers, without a message, in the middle of one, without END_STREAM and with
an empty number. The call is sound in every run in which the server sends no such block.
-/

namespace Strimserver.H2c

open Hpack Library List Option

/-! ## What the server sends -/

/-- What a frame brings for its stream. -/
inductive Item where
  /-- A header block that is complete. -/
  | block (fields : List Field) (ends : Bool)
  | data (octets : Octets) (ends : Bool)
  | reset
  /-- A block that cannot be decoded, or padding that does not fit. -/
  | invalid
  deriving DecidableEq

namespace Item

/-- Nothing can follow on the stream. -/
def last : Item → Bool
  | .block _ ends => ends
  | .data _ ends => ends
  | .reset => true
  | .invalid => true

def blocks (items : List Item) : List (List Field) :=
  items.filterMap fun
    | .block fields _ => some fields
    | _ => none

def octets (items : List Item) : Octets :=
  items.flatMap fun
    | .data octets _ => octets
    | _ => []

theorem blocks_append (items : List Item) (x : Item) :
    blocks (items ++ [x]) = blocks items ++ blocks [x] := filterMap_append ..

theorem octets_append (items : List Item) (x : Item) :
    octets (items ++ [x]) = octets items ++ octets [x] := flatMap_append ..

end Item

namespace Conn

/-- The flags that come with a header block are those of its first frame. -/
def blockFlags (c : Conn) (f : Frame) : UInt8 :=
  if f.type = .continuation then c.hdrBlockFlags else f.flags

/-- What a frame brings for its stream. -/
def item (c : Conn) (f : Frame) : Option Item :=
  match f.type with
  | .data =>
    some <| match unpad f.flags f.payload with
      | some octets => .data octets (has f.flags flagEndStream)
      | none => .invalid
  | .headers | .continuation =>
    (c.decoderInput f).map fun block =>
      match hpackDecodeBlock c.dynDec block maxFields with
      | some (_, fields) => .block fields (has (c.blockFlags f) flagEndStream)
      | none => .invalid
  | .rstStream => some .reset
  | _ => none

end Conn

def values (name : Octets) (fields : List Field) : List Octets :=
  (fields.filter fun f => f.name = name).map Field.value

/-- The number that a decimal numeral denotes. -/
def decimal (numeral : Octets) : Option ℕ :=
  if numeral ≠ [] ∧ ∀ b ∈ numeral, 48 ≤ b ∧ b ≤ 57 then
    some (numeral.foldl (fun n b => n * 10 + (b.toNat - 48)) 0)
  else none

/-- **A complete exchange** with a message: response headers with `:status` 200, data that is one
uncompressed message, and trailers that end the stream with a `grpc-status` that denotes 0. A reset
behind the end changes nothing. -/
inductive Complete (message : Octets) : List Item → Prop where
  | mk {before resets : List Item} {head trailers : List Field} {w x y z : UInt8} {numeral : Octets}
      (going : ∀ x ∈ before, x.last = false) (blocks : Item.blocks before = [head])
      (ok : values (ascii ":status") head = [ascii "200"])
      (data : Item.octets before = 0 :: w :: x :: y :: z :: message)
      (length : readBe32 w x y z = message.length)
      (status : values (ascii "grpc-status") trailers = [numeral]) (zero : decimal numeral = some 0)
      (behind : ∀ x ∈ resets, x = .reset) :
      Complete message (before ++ .block trailers true :: resets)

/-- A call with what has come for it. -/
structure Exchange where
  sid : ℕ
  /-- The caller wants the response. -/
  wants : Bool
  items : List Item

/-- What a frame adds to the exchange. -/
def Exchange.add (e : Exchange) (c : Conn) (f : Frame) : Exchange :=
  if c.streamOf f = e.sid then { e with items := e.items ++ (c.item f).toList } else e

/-- What a step adds to the exchange. -/
def Client.exchange (e : Exchange) (old : Client) (label : Label) (_ : Client) : Exchange :=
  match label with
  | .unary _ _ resp => ⟨old.conn.nextSid, resp.isSome, []⟩
  | .frame f => e.add old.conn f
  | _ => e

/-- The clients, with the exchange of the last call. -/
def exchanging : Machine (Machine.Recorded Client Exchange) Client.Label :=
  clients.recording ⟨0, false, []⟩ Client.exchange

/-! ## Conditions on a step -/

/-- A header block that the code takes for the end of a call with status 0 is that, and
response headers have a `:status` of three octets. -/
def Stream.settles (s : Stream) (fields : List Field) (ends : Bool) : Bool :=
  (Conn.scanFields fields).all fun h =>
    match h.conclusion with
    | some 0 =>
      decide (s.state = .headers) && ends &&
        (values (ascii "grpc-status") fields).map List.isEmpty == [false] &&
        decide (s.msgCount = 1) && s.rasmHdr.isEmpty && !s.rasmBody
    | some _ => true
    | none => decide (s.state ≠ .sent) || (values (ascii ":status") fields).map List.length == [3]

/-- The slot of a call that is being sent or waits for its response. -/
def calling : Call → Option Slot
  | .sending i _ _ _ => some i
  | .unary i => some i
  | _ => none

/-- The condition on a frame that is received during a call: behind the end of the
stream there is at most a reset, and header blocks are in order. -/
def Exchange.allows (e : Exchange) (c : Conn) (f : Frame) (i : Slot) : Bool :=
  decide (c.streamOf f ≠ e.sid) ||
    match c.item f with
    | none | some .reset => true
    | some (.block fields ends) => !e.items.any Item.last && (c.streams i).settles fields ends
    | some _ => !e.items.any Item.last

def Client.settles (r : Machine.Recorded Client Exchange) : Client.Label → Bool
  | .unary _ _ _ =>
    -- The identifiers of streams have not come around to one that is in use.
    decide (∀ i, (r.state.conn.streams i).inUse = true →
      (r.state.conn.streams i).id ≠ r.state.conn.nextSid)
  | .frame f =>
    (calling r.state.call).all fun i =>
      decide ((r.state.conn.streams i).type = .subscribe) || r.record.allows r.state.conn f i
  | _ => true

/-! ## Numerals and fields -/

namespace Conn

variable {value : Octets}

/-- What `parse_status_int` accepts are digits, and it reads them as a decimal number. -/
theorem parseStatusInt_spec {n : ℕ} (parsed : parseStatusInt value = some n) :
    (∀ b ∈ value, 48 ≤ b ∧ b ≤ 57) ∧ value.foldl (fun n b => n * 10 + (b.toNat - 48)) 0 = n := by
  unfold parseStatusInt at parsed
  induction value using List.reverseRecOn generalizing n with
  | nil =>
    cases parsed
    exact ⟨nofun, rfl⟩
  | append_singleton value b ih =>
    rw [foldl_append, foldl_cons, foldl_nil, bind_eq_some_iff] at parsed
    obtain ⟨v, front, parsed⟩ := parsed
    obtain ⟨digits, number⟩ := ih front
    split at parsed
    · cases parsed
    rename_i digit
    dsimp only at parsed
    split at parsed <;> cases parsed
    rw [not_or, UInt8.not_lt, UInt8.not_lt] at digit
    refine ⟨fun b' mem => ?_, ?_⟩
    · rcases mem_append.mp mem with inside | single
      · exact digits b' inside
      · rw [mem_singleton.mp single]
        exact digit
    · rw [foldl_append, foldl_cons, foldl_nil, number]

/-- Three octets that `parse_status_int` reads as 200. -/
theorem eq_200_of_parseStatusInt (parsed : parseStatusInt value = some 200)
    (three : value.length = 3) : value = ascii "200" := by
  obtain ⟨digits, number⟩ := parseStatusInt_spec parsed
  match value, three with
  | [a, b, c], _ =>
    simp only [mem_cons, not_mem_nil, or_false, forall_eq_or_imp, forall_eq, UInt8.le_iff_toNat_le,
      UInt8.reduceToNat] at digits
    simp only [foldl_cons, foldl_nil] at number
    have first : a = 50 := UInt8.toNat_inj.mp (show a.toNat = 50 by omega)
    have second : b = 48 := UInt8.toNat_inj.mp (show b.toNat = 48 by omega)
    have third : c = 48 := UInt8.toNat_inj.mp (show c.toNat = 48 by omega)
    rw [first, second, third]
    rfl

/-- What the loop over the fields has learnt: it has the last value of a name. -/
structure Scanned (h : HeaderScan) (fields : List Field) : Prop where
  status : ∀ v ∈ (values (ascii ":status") fields).getLast?,
    h.hasStatus = true ∧ h.statusValue = parseStatusInt v
  grpcStatus : ∀ v ∈ (values (ascii "grpc-status") fields).getLast?,
    parseStatusInt v = some h.grpcStatus

theorem values_append (name : Octets) (fields : List Field) (f : Field) :
    values name (fields ++ [f]) =
      values name fields ++ if f.name = name then [f.value] else [] := by
  unfold values
  split <;> simp_all

variable {h : HeaderScan}

theorem scanFields_scanned {fields : List Field} (scanned : scanFields fields = some h) :
    Scanned h fields := by
  unfold scanFields at scanned
  induction fields using List.reverseRecOn generalizing h with
  | nil => exact ⟨nofun, nofun⟩
  | append_singleton fields f ih =>
    rw [foldl_append, foldl_cons, foldl_nil, bind_eq_some_iff] at scanned
    obtain ⟨h₀, front, scanned⟩ := scanned
    obtain ⟨status, grpcStatus⟩ := ih front
    have others {name : Octets} (other : f.name ≠ name) :
        values name (fields ++ [f]) = values name fields := by
      rw [values_append, if_neg other, append_nil]
    have last {name : Octets} (same : f.name = name) :
        (values name (fields ++ [f])).getLast? = some f.value := by
      rw [values_append, if_pos same, List.getLast?_concat]
    unfold HeaderScan.field at scanned
    split at scanned
    · rename_i name
      cases scanned
      refine ⟨?_, ?_⟩
      · rw [last name]
        rintro _ ⟨⟩
        exact ⟨rfl, rfl⟩
      · rw [others (by rw [name]; decide)]
        exact grpcStatus
    rename_i noStatus
    split at scanned
    · rename_i name
      split at scanned
      · cases scanned
      rename_i v parsed
      split at scanned <;> cases scanned
      refine ⟨?_, ?_⟩
      · rw [others noStatus]
        exact status
      rw [last name]
      rintro _ ⟨⟩
      exact parsed
    rename_i noGrpcStatus
    have same : h.hasStatus = h₀.hasStatus ∧ h.statusValue = h₀.statusValue ∧
        h.grpcStatus = h₀.grpcStatus := by
      split at scanned
      · cases scanned
        exact ⟨rfl, rfl, rfl⟩
      split at scanned
      · cases scanned
        split <;> exact ⟨rfl, rfl, rfl⟩
      · cases scanned
        exact ⟨rfl, rfl, rfl⟩
    refine ⟨?_, ?_⟩
    · rw [others noStatus, same.1, same.2.1]
      exact status
    · rw [others noGrpcStatus, same.2.2]
      exact grpcStatus

theorem HeaderScan.conclusion_zero (zero : h.conclusion = some 0) : h.grpcStatus = 0 := by
  obtain ⟨hasStatus, value, hasGrpcStatus, grpcStatus, contentType, encoding⟩ := h
  unfold HeaderScan.conclusion at zero
  cases hasGrpcStatus <;> cases encoding <;> cases contentType <;> cases hasStatus <;>
    simp [statusInternal, statusUnimplemented] at zero ⊢ <;> grind

theorem HeaderScan.conclusion_none (none : h.conclusion = none) (status : h.hasStatus = true) :
    h.statusValue = some 200 := by
  obtain ⟨hasStatus, value, hasGrpcStatus, grpcStatus, contentType, encoding⟩ := h
  unfold HeaderScan.conclusion at none
  cases hasGrpcStatus <;> cases encoding <;> cases contentType <;> simp_all
  grind

end Conn

namespace Stream

variable {s : Stream} {fields : List Field} {ends : Bool} {h : Conn.HeaderScan}

theorem settles_zero (met : s.settles fields ends = true)
    (scanned : Conn.scanFields fields = some h) (zero : h.conclusion = some 0) :
    s.state = .headers ∧ ends = true ∧
      (∃ numeral, values (ascii "grpc-status") fields = [numeral] ∧ decimal numeral = some 0) ∧
      s.msgCount = 1 ∧ s.rasmHdr = [] ∧ s.rasmBody = false := by
  unfold Stream.settles at met
  rw [scanned, all_some, zero] at met
  simp only [Bool.and_eq_true, decide_eq_true_eq, beq_iff_eq, List.isEmpty_iff,
    Bool.not_eq_true'] at met
  obtain ⟨⟨⟨⟨⟨state, ends⟩, one⟩, count⟩, header⟩, body⟩ := met
  refine ⟨state, ends, ?_, count, header, body⟩
  obtain ⟨numeral, eq, some⟩ := map_eq_singleton_iff.mp one
  rw [isEmpty_eq_false_iff] at some
  have parsed := (Conn.scanFields_scanned scanned).grpcStatus numeral (by rw [eq]; rfl)
  rw [Conn.HeaderScan.conclusion_zero zero] at parsed
  obtain ⟨digits, number⟩ := Conn.parseStatusInt_spec parsed
  exact ⟨numeral, eq, by rw [decimal, if_pos ⟨some, digits⟩, number]⟩

end Stream

/-! ## The data of a call -/

/-- The slot of a call, for the data that was received: what is behind the last message,
how many messages there were, and the response. -/
structure Stream.Answers (s : Stream) (data : Octets) : Prop where
  at' : s.At (Prefixed.remainder 5 s.accepts data)
  count : s.msgCount = (Prefixed.messages 5 s.accepts data).length
  resp : ∀ m, Prefixed.messages 5 s.accepts data = [m] →
    Prefixed.remainder 5 s.accepts data = [] →
      s.respLen = m.length ∧ ∀ buf ∈ s.resp, buf.take m.length = m

theorem Stream.Answers.congr {s t : Stream} {data : Octets} (answers : s.Answers data)
    (same : t.reassembly = s.reassembly) (count : t.msgCount = s.msgCount)
    (length : t.respLen = s.respLen) : t.Answers data := by
  have at' := answers.at'.congr same
  simp only [reassembly, Prod.mk.injEq] at same
  obtain ⟨type, -, -, -, -, -, resp, cap⟩ := same
  have accepts := Stream.accepts_congr type (congrArg Option.isSome resp) cap
  rw [← accepts] at at'
  refine ⟨at', ?_, ?_⟩
  · rw [accepts, count, answers.count]
  · rw [accepts, length, resp]
    exact answers.resp

theorem Stream.data_of_messages (s : Stream) {data m : Octets}
    (one : Prefixed.messages 5 s.accepts data = [m])
    (nothing : Prefixed.remainder 5 s.accepts data = []) :
    ∃ w x y z, data = 0 :: w :: x :: y :: z :: m ∧ readBe32 w x y z = m.length := by
  rcases front : Prefixed.progress 5 s.accepts data with _ | _ | ⟨m', rest⟩
  · rw [(Prefixed.messages_of_more front).1] at one
    cases one
  · rw [(Prefixed.messages_of_refused front).1] at one
    cases one
  obtain ⟨messages, remainder⟩ := Prefixed.messages_of_message (by decide) front
  rw [messages] at one
  rw [remainder] at nothing
  obtain ⟨rfl, none⟩ := List.cons.inj one
  -- Behind the message there is no message and no remainder.
  obtain rfl : rest = [] := by
    rcases behind : Prefixed.progress 5 s.accepts rest with _ | _ | ⟨m'', rest'⟩
    · rwa [(Prefixed.messages_of_more behind).2] at nothing
    · rwa [(Prefixed.messages_of_refused behind).2] at nothing
    · rw [(Prefixed.messages_of_message (by decide) behind).1] at none
      cases none
  obtain ⟨header, five, accepted, octets⟩ := Prefixed.progress_eq_message_iff.mp front
  unfold Stream.accepts at accepted
  split at accepted
  · rename_i compressed w x y z
    dsimp only at accepted
    split at accepted
    · cases accepted
    rename_i fine
    obtain ⟨plain, -⟩ := not_or.mp fine
    refine ⟨w, x, y, z, ?_, Option.some.inj accepted⟩
    rw [octets, not_not.mp plain, append_nil]
    rfl
  · cases accepted

namespace Conn

/-- What the loop keeps: the messages so far and what is left make up all the data. -/
structure Answering (c₀ : Conn) (i : Slot) (data : Octets) (c : Conn) (rest left : Octets) :
    Prop where
  type : (c.streams i).type = .unary
  state : (c.streams i).state = (c₀.streams i).state
  accepts : (c.streams i).accepts = (c₀.streams i).accepts
  some : (c.streams i).resp.isSome = (c₀.streams i).resp.isSome
  at' : (c.streams i).At rest
  messages : ∃ ms, (c.streams i).msgCount = ms.length ∧
    Prefixed.messages 5 (c₀.streams i).accepts data =
      ms ++ Prefixed.messages 5 (c₀.streams i).accepts (rest ++ left) ∧
    Prefixed.remainder 5 (c₀.streams i).accepts data =
      Prefixed.remainder 5 (c₀.streams i).accepts (rest ++ left) ∧
    ∀ m, ms = [m] → rest = [] →
      (c.streams i).respLen = m.length ∧ ∀ buf ∈ (c.streams i).resp, buf.take m.length = m

/-- What the loop ends with: the stream is given up, or the slot is right for all the
data. -/
def Answered (c₀ : Conn) (i : Slot) (data : Octets) (c : Conn) : Prop :=
  ((c.streams i).state = .done ∧ (c.streams i).err.isSome = true) ∨
    ((c.streams i).state = (c₀.streams i).state ∧
      (c.streams i).resp.isSome = (c₀.streams i).resp.isSome ∧ (c.streams i).Answers data)

variable {c₀ c : Conn} {i : Slot} {data rest left : Octets}

theorem Answering.done (answering : Answering c₀ i data c rest []) : Answered c₀ i data c := by
  obtain ⟨ms, count, messages, remainder, resp⟩ := answering.messages
  have at' := answering.at'
  have more := at'.progress_eq_more
  rw [answering.accepts] at more
  obtain ⟨none, all⟩ := Prefixed.messages_of_more more
  rw [append_nil] at messages remainder
  rw [none, append_nil] at messages
  rw [all] at remainder
  refine .inr ⟨answering.state, answering.some, ?_, ?_, ?_⟩
  · rwa [answering.accepts, remainder]
  · rw [answering.accepts, messages, count]
  · rw [answering.accepts, messages, remainder]
    exact resp

/-- An octet of the data. -/
theorem Answering.round {c' : Conn} {rest' : Octets} {b : UInt8}
    (answering : Answering c₀ i data c rest (b :: left)) (round : Round c i rest b c' rest') :
    Answering c₀ i data c' rest' left := by
  obtain ⟨ms, count, messages, remainder, -⟩ := answering.messages
  cases round with
  | more at' same =>
    rw [append_cons] at messages remainder
    constructor <;> rw [set_streams]
    · exact answering.type
    · exact answering.state
    · rw [Stream.accepts_withReassembly same, answering.accepts]
    · exact same.trans answering.some
    · exact at'
    · exact ⟨ms, count, messages, remainder,
        fun m _ empty => absurd empty (append_ne_nil_of_right_ne_nil _ nofun)⟩
  | queued front type => exact absurd (answering.type.symm.trans type) nofun
  | @answered t m front type first flag header same resp =>
    obtain rfl : ms = [] := length_eq_zero_iff.mp (count.symm.trans first)
    rw [answering.accepts] at front
    obtain ⟨one, behind⟩ := Prefixed.messages_of_message (by decide) (front left)
    constructor <;> rw [set_streams]
    · exact answering.type
    · exact answering.state
    · rw [← answering.accepts]
      exact Stream.accepts_congr rfl same rfl
    · exact same.trans answering.some
    · exact .header flag header (by decide)
    · refine ⟨[m], rfl, by rw [messages, one]; rfl, by rw [remainder, behind]; rfl, ?_⟩
      rintro _ ⟨⟩ -
      exact ⟨rfl, resp⟩

theorem streamFeedData_answered (going : (c₀.streams i).state ≠ .done)
    (answering : Answering c₀ i data c rest left) :
    Answered c₀ i data (streamFeedData left.length c i left) := by
  refine streamFeedData_rule (fun holds => ⟨holds.at', by rw [holds.state]; exact going⟩) ?_
    Answering.round Answering.done answering (Nat.le_refl _)
  intro d rest b left s' code _ quit _
  refine .inl ?_
  rw [set_streams]
  exact ⟨quit.state, quit.err⟩

/-- **The data of a call.** A DATA frame is fed to its stream. -/
theorem data_answered {old : Octets} (octets : Octets) (type : (c.streams i).type = .unary)
    (going : (c.streams i).state ≠ .done) (answers : (c.streams i).Answers old) (n : ℕ)
    (flags : UInt8) : Answered c i (old ++ octets) ((c.fed i n octets).endCheck i flags) := by
  have debited : (c.debit i n).streams i =
    { c.streams i with recvWindow := (c.streams i).recvWindow - n } := set_streams ..
  have start : Answering c i (old ++ octets) (c.debit i n)
      (Prefixed.remainder 5 (c.streams i).accepts old) octets := by
    obtain ⟨messages, remainder⟩ : Prefixed.messages 5 (c.streams i).accepts (old ++ octets) = _ ∧
        Prefixed.remainder 5 (c.streams i).accepts (old ++ octets) = _ :=
      Prefixed.messages_append (by decide) old octets
    refine ⟨?_, ?_, ?_, ?_, ?_, Prefixed.messages 5 (c.streams i).accepts old, ?_, messages,
      remainder, ?_⟩ <;> rw [debited]
    · exact type
    · exact Stream.accepts_congr rfl rfl rfl
    · exact answers.at'.congr rfl
    · exact answers.count
    · exact answers.resp
  have fed : Answered c i (old ++ octets) (c.fed i n octets) := streamFeedData_answered going start
  unfold endCheck
  split
  · refine .inl ?_
    rw [streamAbort_eq, set_streams]
    exact ⟨rfl, rfl⟩
  · exact fed

end Conn

/-! ## The exchange of a call -/

/-- Nothing has ended the stream. -/
def Exchange.Going (e : Exchange) : Prop := ∀ x ∈ e.items, x.last = false

namespace Exchange

variable {e : Exchange} {c : Conn} {f : Frame} {i : Slot}

theorem add_sid (e : Exchange) (c : Conn) (f : Frame) : (e.add c f).sid = e.sid := by
  unfold add
  split <;> rfl

theorem add_wants (e : Exchange) (c : Conn) (f : Frame) : (e.add c f).wants = e.wants := by
  unfold add
  split <;> rfl

theorem add_of_ne (other : c.streamOf f ≠ e.sid) : e.add c f = e := if_neg other

theorem add_of_none (none : c.item f = none) : e.add c f = e := by
  unfold add
  rw [none]
  split
  · rw [toList_none, append_nil]
  · rfl

theorem add_items {x : Item} (own : c.streamOf f = e.sid) (some : c.item f = some x) :
    (e.add c f).items = e.items ++ [x] := by
  unfold add
  rw [if_pos own, some]
  rfl

theorem Going.of_add {x : Item} (own : c.streamOf f = e.sid) (some : c.item f = some x)
    (going : (e.add c f).Going) : e.Going := by
  unfold Going at going
  rw [add_items own some] at going
  exact fun y mem => going y (mem_append_left _ mem)

theorem going_of_any (none : (!e.items.any Item.last) = true) : e.Going := by
  intro x mem
  rw [Bool.not_eq_true', List.any_eq_false] at none
  exact Bool.eq_false_iff.mpr (none x mem)

theorem allows_block {fields : List Field} {ends : Bool} (met : e.allows c f i = true)
    (own : c.streamOf f = e.sid) (some : c.item f = some (.block fields ends)) :
    e.Going ∧ (c.streams i).settles fields ends = true := by
  unfold allows at met
  rw [some] at met
  simp only [own, ne_eq, not_true_eq_false, decide_false, Bool.false_or, Bool.and_eq_true] at met
  exact ⟨going_of_any met.1, met.2⟩

/-- Behind the end there is at most a reset. -/
theorem allows_over {x : Item} (met : e.allows c f i = true) (own : c.streamOf f = e.sid)
    (some : c.item f = some x) (over' : ¬ e.Going) : x = .reset := by
  unfold allows at met
  rw [some] at met
  have going (none : (!e.items.any Item.last) = true) : x = .reset :=
    absurd (going_of_any none) over'
  cases x with
  | reset => rfl
  | block => exact going (by simp [own] at met ⊢; exact met.1)
  | data | invalid => exact going (by simpa [own] using met)

end Exchange

theorem Complete.reset {message : Octets} {items : List Item} (complete : Complete message items) :
    Complete message (items ++ [.reset]) := by
  obtain ⟨going, blocks, ok, data, length, status, zero, behind⟩ := complete
  rw [append_assoc, cons_append]
  refine .mk going blocks ok data length status zero fun x mem => ?_
  rcases mem_append.mp mem with inside | single
  · exact behind x inside
  · exact mem_singleton.mp single

/-- The slot of a call is right for its exchange. While the stream goes on, the slot has
what was received; with status 0 the exchange is complete. -/
structure Stream.Exchanged (s : Stream) (e : Exchange) : Prop where
  inUse : s.state ≠ .done → s.inUse = true
  wants : s.state ≠ .done → s.resp.isSome = e.wants
  answers : s.state ≠ .done → e.Going → s.Answers (Item.octets e.items)
  sent : s.state = .sent → e.Going → Item.blocks e.items = []
  headers : s.state = .headers → e.Going →
    ∃ head, Item.blocks e.items = [head] ∧ values (ascii ":status") head = [ascii "200"]
  done : s.state = .done → s.err = none → s.status = 0 →
    ∃ message, Complete message e.items ∧
      (e.wants = true → (s.resp.getD []).take s.respLen = message)

namespace Stream.Exchanged

variable {s : Stream} {e : Exchange} {c : Conn} {f : Frame} {i : Slot}

theorem of_done (done : s.state = .done)
    (complete : s.err = none → s.status = 0 → ∃ message, Complete message e.items ∧
      (e.wants = true → (s.resp.getD []).take s.respLen = message)) : s.Exchanged e := by
  refine ⟨fun going => absurd done going, fun going => absurd done going,
    fun going => absurd done going, fun sent => ?_, fun headers => ?_, fun _ => complete⟩
  · rw [done] at sent
    cases sent
  · rw [done] at headers
    cases headers

theorem add_done (exchanged : s.Exchanged e) (done : s.state = .done)
    (met : e.allows c f i = true) : s.Exchanged (e.add c f) := by
  refine of_done done fun clean zero => ?_
  obtain ⟨message, complete, resp⟩ := exchanged.done done clean zero
  rw [e.add_wants]
  refine ⟨message, ?_, resp⟩
  by_cases own : c.streamOf f = e.sid
  · rcases some : c.item f with _ | x
    · rwa [Exchange.add_of_none some]
    have ended : ¬ e.Going := by
      unfold Exchange.Going
      generalize e.items = items at complete ⊢
      obtain ⟨going, blocks, ok, data, length, status, zero, behind⟩ := complete
      exact fun going => Bool.noConfusion (going _ (mem_append_right _ mem_cons_self))
    rw [Exchange.add_items own some, Exchange.allows_over met own some ended]
    exact complete.reset
  · rwa [Exchange.add_of_ne own]

variable {fields : List Field} {ends : Bool} {h : Conn.HeaderScan}

theorem feed {c' : Conn} {octets : Octets} (exchanged : (c.streams i).received.Exchanged e)
    (own : c.streamOf f = e.sid) (item : c.item f = some (.data octets ends))
    (inUse : (c'.streams i).inUse = (c.streams i).inUse) (going : (c.streams i).state ≠ .done)
    (fed : c.Answered i (Item.octets e.items ++ octets) c') :
    (c'.streams i).received.Exchanged (e.add c f) := by
  rcases fed with ⟨done, error⟩ | ⟨state, some, answers⟩
  · refine of_done done fun clean => ?_
    change (c'.streams i).err = none at clean
    rw [clean] at error
    cases error
  have blocks : Item.blocks (e.add c f).items = Item.blocks e.items := by
    rw [Exchange.add_items own item, Item.blocks_append]
    exact append_nil _
  have data : Item.octets (e.add c f).items = Item.octets e.items ++ octets := by
    rw [Exchange.add_items own item, Item.octets_append]
    exact congrArg _ (append_nil _)
  refine ⟨fun _ => inUse.trans (exchanged.inUse going), fun _ => ?_, fun _ _ => ?_, fun sent => ?_,
    fun headers => ?_, fun done => absurd (state.symm.trans done) going⟩
  · rw [e.add_wants]
    exact some.trans (exchanged.wants going)
  · rw [data]
    exact answers.congr rfl rfl rfl
  · rw [blocks]
    exact fun going' => exchanged.sent (state.symm.trans sent) (going'.of_add own item)
  · rw [blocks]
    exact fun going' => exchanged.headers (state.symm.trans headers) (going'.of_add own item)

theorem respond (exchanged : (c.streams i).received.Exchanged e) (own : c.streamOf f = e.sid)
    (item : c.item f = some (.block fields ends)) (sent : (c.streams i).state = .sent)
    (scanned : Conn.scanFields fields = some h) (none : h.conclusion = none)
    (met : (c.streams i).settles fields ends = true) :
    Stream.Exchanged (Stream.received { c.streams i with state := .headers, sawHeaders := true })
      (e.add c f) := by
  have open' : (c.streams i).received.state ≠ .done := fun done =>
    absurd (sent.symm.trans done) nofun
  refine ⟨fun _ => exchanged.inUse open', fun _ => ?_, fun _ going => ?_, nofun, fun _ going => ?_,
    nofun⟩
  · rw [e.add_wants]
    exact exchanged.wants open'
  · have data : Item.octets (e.add c f).items = Item.octets e.items := by
      rw [Exchange.add_items own item, Item.octets_append]
      exact append_nil _
    rw [data]
    exact (exchanged.answers open' (going.of_add own item)).congr rfl rfl rfl
  refine ⟨fields, ?_, ?_⟩
  · rw [Exchange.add_items own item, Item.blocks_append,
      exchanged.sent sent (going.of_add own item)]
    rfl
  unfold Stream.settles at met
  rw [scanned, all_some, none, sent] at met
  have three : (values (ascii ":status") fields).map List.length = [3] := by simpa using met
  obtain ⟨value, eq, length⟩ := map_eq_singleton_iff.mp three
  obtain ⟨has, parsed⟩ := (Conn.scanFields_scanned scanned).status value (by rw [eq]; rfl)
  rw [Conn.HeaderScan.conclusion_none none has] at parsed
  rw [eq, Conn.eq_200_of_parseStatusInt parsed.symm length]

/-- The end of a call with status 0. -/
theorem conclude (exchanged : s.Exchanged e) (going : e.Going) (met : s.settles fields ends = true)
    (scanned : Conn.scanFields fields = some h) (zero : h.conclusion = some 0) :
    ∃ message, Complete message (e.items ++ [.block fields ends]) ∧
      (e.wants = true → (s.resp.getD []).take s.respLen = message) := by
  obtain ⟨state, rfl, ⟨numeral, status, zero⟩, count, header, body⟩ :=
    Stream.settles_zero met scanned zero
  have open' : s.state ≠ .done := by
    rw [state]
    exact nofun
  obtain ⟨head, blocks, ok⟩ := exchanged.headers state going
  have answers := exchanged.answers open' going
  -- There is one message and nothing behind it.
  obtain ⟨m, one⟩ := length_eq_one_iff.mp (answers.count.symm.trans count)
  have nothing : Prefixed.remainder 5 s.accepts (Item.octets e.items) = [] := by
    rcases answers.at' with ⟨-, octets, -⟩ | ⟨inBody, -⟩
    · rw [← octets, header]
    · rw [inBody.flag] at body
      cases body
  obtain ⟨length, copied⟩ := answers.resp m one nothing
  obtain ⟨w, x, y, z, data, told⟩ := s.data_of_messages one nothing
  have complete : Complete m (e.items ++ .block fields true :: []) :=
    .mk going blocks ok data told status zero nofun
  refine ⟨m, complete, fun wants => ?_⟩
  rw [← exchanged.wants open'] at wants
  obtain ⟨buf, some⟩ := isSome_iff_exists.mp wants
  rw [some, length]
  exact copied buf some

end Stream.Exchanged

/-! ## Frames -/

/-- The receiving side during a call: its slot has the identifier alone, and is right for
the exchange. -/
structure View.During (v : View) (dead : Bool) (i : Slot) (e : Exchange) : Prop where
  type : (v.streams i).type = .unary
  id : (v.streams i).id = e.sid
  alone : ∀ j, j ≠ i → (v.streams j).inUse = true → (v.streams j).id ≠ e.sid
  dead : dead = true → (v.streams i).state = .done
  slot : (v.streams i).Exchanged e

namespace View.During

variable {v v' : View} {dead dead' : Bool} {i j : Slot} {e e' : Exchange} {s : Stream}

theorem add (during : v.During dead i e) (sid : e'.sid = e.sid)
    (slot : (v.streams i).Exchanged e') : v.During dead i e' :=
  ⟨during.type, during.id.trans sid.symm, sid ▸ during.alone, during.dead, slot⟩

theorem move (during : v.During dead i e) (streams : v'.streams = (v.set j s).streams)
    (found : (v.streams j).inUse = true) (id : s.id = (v.streams j).id)
    (type : s.type = (v.streams j).type) (sid : e'.sid = e.sid)
    (other : (v.streams j).id ≠ e.sid → e' = e)
    (stays : (v.streams j).state = .done → s.state = .done) (own : j = i → s.Exchanged e') :
    v'.During dead i e' := by
  by_cases same : j = i
  · subst same
    have slot : v'.streams j = s := by rw [streams, set_streams]
    refine ⟨?_, ?_, fun k ne inUse => ?_, fun dead => ?_, ?_⟩
    · rw [slot, type, during.type]
    · rw [slot, id, during.id, sid]
    · rw [streams, set_streams_of_ne v ne] at inUse ⊢
      rw [sid]
      exact during.alone k ne inUse
    · rw [slot]
      exact stays (during.dead dead)
    · rw [slot]
      exact own rfl
  obtain rfl := other (during.alone j same found)
  have slot : v'.streams i = v.streams i := by rw [streams, set_streams_of_ne v (Ne.symm same)]
  refine ⟨slot ▸ during.type, slot ▸ during.id, fun k ne inUse => ?_, slot ▸ during.dead,
    slot ▸ during.slot⟩
  rw [streams] at inUse ⊢
  by_cases there : k = j
  · subst there
    rw [set_streams, id]
    exact during.alone k ne found
  · rw [set_streams_of_ne v there] at inUse ⊢
    exact during.alone k ne inUse

theorem complete (during : v.During dead i e) (status : ℕ) (failed : status ≠ 0)
    (streams : ∀ j, v'.streams j = Conn.completeStream status (v.streams j)) (sid : e'.sid = e.sid)
    (own : (v.streams i).state = .done → (v.streams i).Exchanged e') : v'.During dead' i e' := by
  have kept (j : Slot) : (v'.streams j).type = (v.streams j).type ∧
      (v'.streams j).id = (v.streams j).id ∧ (v'.streams j).inUse = (v.streams j).inUse := by
    rw [streams]
    unfold Conn.completeStream
    split <;> exact ⟨rfl, rfl, rfl⟩
  have slot : (v'.streams i).state = .done ∧ (v'.streams i).Exchanged e' := by
    rw [streams]
    unfold Conn.completeStream
    by_cases done : (v.streams i).state = .done
    · rw [if_pos (by simp [done])]
      exact ⟨done, own done⟩
    · rw [if_neg (by simp [during.slot.inUse done, done])]
      exact ⟨rfl, .of_done rfl fun _ zero => absurd zero failed⟩
  refine ⟨(kept i).1.trans during.type, (kept i).2.1.trans (during.id.trans sid.symm),
    fun j ne inUse => ?_, fun _ => slot.1, slot.2⟩
  rw [(kept j).2.1, sid]
  exact during.alone j ne ((kept j).2.2 ▸ inUse)

end View.During

namespace Conn

variable {c c' : Conn} {f : Frame} {i j : Slot} {e : Exchange}

theorem item_of_block {fields : List Field} (block : c.Block f j fields) :
    c.item f = some (.block fields (has (c.blockFlags f) flagEndStream)) := by
  obtain ⟨octets, d, input, decoded⟩ := block.decoded
  unfold item
  rcases block.type with type | type <;> rw [type] <;> dsimp only <;>
    rw [input, map_some, decoded]

theorem streamOf_of_data (type : f.type = .data) : c.streamOf f = f.sid := by
  unfold streamOf
  rw [type]
  rfl

theorem streamOf_of_rstStream (type : f.type = .rstStream) : c.streamOf f = f.sid := by
  unfold streamOf
  rw [type]
  rfl

theorem completeAllStreams_streams (c : Conn) (status : ℕ) (i : Slot) :
    (c.completeAllStreams status).view.streams i = completeStream status (c.view.streams i) :=
  completeStream_received ..

theorem exchanged_done (during : c.view.During c.dead i e) (met : e.allows c f i = true)
    (found : c.streamFind (c.streamOf f) = some j) (done : (c.streams j).state = .done) :
    (c.view.streams i).Exchanged (e.add c f) := by
  by_cases same : j = i
  · subst same
    exact during.slot.add_done done met
  obtain ⟨inUse, id⟩ := streamFind_spec found
  rw [Exchange.add_of_ne (id ▸ during.alone j same inUse)]
  exact during.slot

/-- **A frame keeps the exchange of the call.** -/
theorem FrameMove.during (move : c.FrameMove f c') (sound : c.view.Sound)
    (during : c.view.During c.dead i e) (met : e.allows c f i = true) (dead : c'.dead = c.dead) :
    c'.view.During c'.dead i (e.add c f) := by
  have sid := e.add_sid c f
  have other {j : Slot} (found : c.streamFind (c.streamOf f) = some j)
      (ne : (c.view.streams j).id ≠ e.sid) : e.add c f = e := by
    refine Exchange.add_of_ne ?_
    rwa [← (streamFind_spec found).2]
  have own (found : c.streamFind (c.streamOf f) = some i) : c.streamOf f = e.sid := by
    rw [← during.id]
    exact (streamFind_spec found).2.symm
  cases move with
  | still data quiet lost view =>
    rw [view, dead]
    refine during.add sid ?_
    by_cases done : (c.view.streams i).state = .done
    · exact during.slot.add_done done met
    have same : e.add c f = e := by
      by_cases rst : f.type = .rstStream
      · refine Exchange.add_of_ne ?_
        rw [streamOf_of_rstStream rst, ← during.id]
        intro sid
        have unused := findSlot_none (lost rst) i
        have inUse : (c.streams i).inUse = true := during.slot.inUse done
        rw [inUse, ← show (c.streams i).id = f.sid from sid.symm] at unused
        simp at unused
      refine Exchange.add_of_none ?_
      unfold item
      split
      · exact absurd ‹_› data
      · rw [quiet, map_none]
      · rw [quiet, map_none]
      · exact absurd ‹_› rst
      · rfl
    rw [same]
    exact during.slot
  | drained j type found done error conn =>
    rw [← streamOf_of_data type] at found
    rw [conn]
    exact during.add sid (exchanged_done during met found done)
  | data j octets type found going window window' unpadded conn =>
    rw [← streamOf_of_data type] at found
    obtain ⟨inUse, -⟩ := streamFind_spec found
    obtain ⟨rest, at'⟩ := (sound.slots j).of_received.at' inUse going
    have ends := data_books sound at' inUse going (length_unpad_le unpadded) f.flags
    rw [← conn] at ends
    rw [dead]
    refine during.move ends.view_streams inUse ends.id ends.type sid (other found)
      (fun done => absurd done going) ?_
    rintro rfl
    have item : c.item f = some (.data octets (has f.flags flagEndStream)) := by
      unfold Conn.item
      rw [type]
      rw [unpadded]
    have before : e.Going := by
      unfold Exchange.allows at met
      rw [item] at met
      exact Exchange.going_of_any (by simpa [own found] using met)
    have answers : (c.streams j).Answers (Item.octets e.items) :=
      (during.slot.answers going before).congr rfl rfl rfl
    have fed := data_answered octets during.type going answers f.payload.length f.flags
    rw [← conn] at fed
    exact during.slot.feed (own found) item ends.inUse going fed
  | ignored j fields block done error view =>
    rw [view, dead]
    exact during.add sid (exchanged_done during met block.found done)
  | concluded j fields h status block clean scanned conclusion view =>
    rw [view, view_set, dead]
    refine during.move rfl (streamFind_spec block.found).1 rfl rfl sid (other block.found)
      (fun _ => rfl) ?_
    rintro rfl
    refine .of_done rfl fun _ zero => ?_
    subst zero
    have item := item_of_block block
    obtain ⟨going, settles⟩ := Exchange.allows_block met (own block.found) item
    rw [Exchange.add_items (own block.found) item, e.add_wants]
    exact during.slot.conclude going settles scanned conclusion
  | responded j fields h block sent scanned conclusion view =>
    rw [view, view_set, dead]
    refine during.move rfl (streamFind_spec block.found).1 rfl rfl sid (other block.found)
      (fun done => absurd (sent.symm.trans done) nofun) ?_
    rintro rfl
    exact (during.slot.respond (own block.found) (item_of_block block) sent scanned conclusion
      (Exchange.allows_block met (own block.found) (item_of_block block)).2)
  | cancelled j type found going view =>
    rw [← streamOf_of_rstStream type] at found
    rw [view, view_set, dead]
    refine during.move rfl (streamFind_spec found).1 rfl rfl sid (other found) (fun _ => rfl) ?_
    rintro rfl
    exact .of_done rfl fun _ zero => absurd zero (show statusCancelled ≠ 0 by decide)
  | destroyed j type found done conn =>
    rw [← streamOf_of_rstStream type] at found
    rw [conn, Client.streamDestroy_view]
    refine during.move rfl (streamFind_spec found).1 rfl rfl sid (other found) (fun _ => done) ?_
    rintro rfl
    exact .of_done done ((during.slot.add_done done met).done done)
  | goaway type dead' view =>
    rw [view]
    have none : c.item f = .none := by
      unfold Conn.item
      rw [type]
    refine during.complete statusUnavailable (by decide)
      (c.completeAllStreams_streams _) sid fun _ => ?_
    rw [Exchange.add_of_none none]
    exact during.slot

theorem completeAllStreams_type (c : Conn) (status : ℕ) (i : Slot) :
    ((c.completeAllStreams status).view.streams i).type = (c.view.streams i).type := by
  rw [completeAllStreams_streams]
  unfold completeStream
  split <;> rfl

/-- A frame does not change the type of a stream. -/
theorem FrameMove.type_eq (move : c.FrameMove f c') (sound : c.view.Sound) (i : Slot) :
    (c'.view.streams i).type = (c.view.streams i).type := by
  have set {j : Slot} {s : Stream} (streams : c'.view.streams = (c.view.set j s).streams)
      (type : s.type = (c.view.streams j).type) :
      (c'.view.streams i).type = (c.view.streams i).type := by
    rw [streams]
    by_cases same : i = j
    · rw [same, View.set_streams, type]
    · rw [View.set_streams_of_ne _ same]
  cases move with
  | still _ _ _ view | drained _ _ _ _ _ view | ignored _ _ _ _ _ view => rw [view]
  | data j octets type found going window window' unpadded conn =>
    obtain ⟨inUse, -⟩ := streamFind_spec found
    obtain ⟨rest, at'⟩ := (sound.slots j).of_received.at' inUse going
    have ends := data_books sound at' inUse going (length_unpad_le unpadded) f.flags
    rw [← conn] at ends
    exact set ends.view_streams ends.type
  | concluded _ _ _ _ _ _ _ _ view | responded _ _ _ _ _ _ _ view | cancelled _ _ _ _ view =>
    rw [view_set] at view
    exact set (congrArg View.streams view) rfl
  | destroyed j type found done conn =>
    rw [conn] at set ⊢
    exact set (congrArg View.streams (Client.streamDestroy_view ..)) rfl
  | goaway type dead view =>
    rw [view]
    exact c.completeAllStreams_type _ i

end Conn

/-! ## Steps -/

namespace Client

variable {old new : Client} {label : Label} {e : Exchange} {i : Slot}

/-- The client is right for the exchange of its call. -/
structure During (c : Client) (e : Exchange) : Prop where
  unary : ∀ i, c.call = .unary i → (c.conn.streams i).type = .unary
  during : ∀ i, calling c.call = some i → (c.conn.streams i).type = .unary →
    c.conn.view.During c.conn.dead i e

theorem During.of_idle (idle : calling new.call = none) : new.During e := by
  refine ⟨fun i call => ?_, fun i call => ?_⟩
  · rw [call] at idle
    cases idle
  · rw [call] at idle
    cases idle

theorem afterSend_calling {body : Octets} {frameMax : ℕ} {sending : Sending} {j : Slot}
    (call : calling (afterSend old i body frameMax sending).call = some j) :
    j = i ∧ (afterSend old i body frameMax sending).conn = sending.conn ∧
      ((afterSend old i body frameMax sending).call = .unary j →
        (sending.conn.streams i).type = .unary) := by
  cases sending with
  | done c =>
    unfold afterSend at call ⊢
    dsimp only at call ⊢
    split
    · rename_i type
      rw [type] at call
      cases call
      exact ⟨rfl, rfl, fun _ => type⟩
    rename_i type
    rw [type] at call
    cases call
  | blocked =>
    cases call
    exact ⟨rfl, rfl, nofun⟩
  | failed => cases call

variable {c : Conn} {outcome : Outcome}

theorem type_of_view {c' : Conn} (view : c'.view = c.view) (i : Slot) :
    (c'.streams i).type = (c.streams i).type := by
  have slot : (c'.streams i).received.type = (c.streams i).received.type :=
    congrArg Stream.type (Conn.received_of_view view i)
  exact slot

theorem startRequest_calling {type : StreamType} {path req : Octets} {resp : Option ℕ}
    (call : calling (startRequest old type path req resp).call = some i) :
    (startRequest old type path req resp).conn.view =
        opened old.conn i (old.conn.openedStream type resp).received ∧
      (startRequest old type path req resp).conn.dead = false ∧
      ((startRequest old type path req resp).call = .unary i → type = .unary) := by
  unfold startRequest at call ⊢
  dsimp only at call ⊢
  split at call
  · cases call
  rename_i alive
  rw [if_neg alive]
  split_ifs at call with short
  · cases call
  rw [if_neg short]
  split at call
  · cases call
  rename_i j c alloc
  obtain ⟨rfl, conn, unary⟩ := afterSend_calling call
  have view := ((sends_view _ i).sendRequest path req rfl).trans (streamAlloc_view alloc resp)
  have allocated := Conn.streamAlloc_kept alloc
  have kept := (sends_kept old.conn i).sendRequest (c := c.set i { c.streams i with
    resp := resp.map fun _ => [], respCap := resp.getD 0, respLen := 0 }) path req allocated
  rw [conn]
  refine ⟨view, ?_, fun call => ?_⟩
  · exact (congrArg Prod.fst kept).trans (Bool.eq_false_iff.mpr alive)
  have slot := congrArg Stream.type (Conn.received_of_view view i)
  rw [show (opened old.conn i _).streams i = _ from View.set_streams ..] at slot
  exact slot.symm.trans (unary call)

theorem connFail_during {e' : Exchange} (code : H2cError) (during : c.view.During c.dead i e)
    (sid : e'.sid = e.sid)
    (own : (c.view.streams i).state = .done → (c.view.streams i).Exchanged e') :
    (c.connFail code).view.During (c.connFail code).dead i e' := by
  by_cases dead : c.dead = true
  · rw [Conn.connFail, if_pos dead]
    exact during.add sid (own (during.dead dead))
  have view : (c.connFail code).view = (c.completeAllStreams statusUnavailable).view := by
    rw [Conn.connFail, if_neg dead]
    rfl
  rw [view]
  exact during.complete statusUnavailable (by decide) (c.completeAllStreams_streams _)
    sid own

theorem connFail_type (c : Conn) (code : H2cError) (i : Slot) :
    ((c.connFail code).streams i).type = (c.streams i).type := by
  unfold Conn.connFail
  split
  · rfl
  · exact Conn.completeAllStreams_type { c with dead := true, deadCode := some code } _ i

theorem pollFrame_during (f : Frame) (sound : old.conn.view.Sound)
    (during : old.conn.view.During old.conn.dead i e) (met : e.allows old.conn f i = true) :
    (pollFrame old f).conn.view.During (pollFrame old f).conn.dead i (e.add old.conn f) := by
  have deadness := Conn.processOneFrame_dead old.conn f
  unfold pollFrame
  split
  · rename_i c processed
    rw [processed] at deadness
    rcases deadness with same | ⟨dead, view⟩
    · exact (Conn.processOneFrame_move processed).during sound during met same
    rw [show c.view = _ from view]
    exact during.complete statusUnavailable (by decide)
      (old.conn.completeAllStreams_streams _) (e.add_sid ..) fun done =>
        during.slot.add_done done met
  rename_i c failed
  have view := Conn.processOneFrame_failed_view failed
  rw [failed] at deadness
  have before : c.view.During c.dead i e := by
    rw [view]
    rcases deadness with same | ⟨dead, completed⟩
    · rwa [show c.dead = _ from same]
    -- A frame that fails does not end the connection itself.
    rw [show c.view = _ from completed] at view
    have slot : View.During _ c.dead i e := during.complete statusUnavailable (by decide)
      (old.conn.completeAllStreams_streams _) rfl fun _ => during.slot
    rwa [view] at slot
  refine connFail_during .proto before (e.add_sid ..) fun done => ?_
  rw [view] at done ⊢
  exact during.slot.add_done done met

theorem pollFrame_call (old : Client) (f : Frame) :
    (pollFrame old f).call = old.call ∧ (pollFrame old f).returned = old.returned := by
  unfold pollFrame
  split <;> exact ⟨rfl, rfl⟩

theorem pollFrame_type (f : Frame) (sound : old.conn.view.Sound) (i : Slot) :
    ((pollFrame old f).conn.streams i).type = (old.conn.streams i).type := by
  unfold pollFrame
  split
  · rename_i c processed
    exact (Conn.processOneFrame_move processed).type_eq sound i
  · rename_i c failed
    exact (connFail_type c .proto i).trans
      (type_of_view (Conn.processOneFrame_failed_view failed) i)

theorem unary_during (path req : Octets) (resp : Option ℕ)
    (fresh : ∀ j, (old.conn.streams j).inUse = true → (old.conn.streams j).id ≠ old.conn.nextSid) :
    (startRequest old .unary path req resp).During ⟨old.conn.nextSid, resp.isSome, []⟩ := by
  have started {i : Slot} (calls : calling (startRequest old .unary path req resp).call = some i) :
      (startRequest old .unary path req resp).conn.view.During
        (startRequest old .unary path req resp).conn.dead i
          ⟨old.conn.nextSid, resp.isSome, []⟩ := by
    obtain ⟨view, alive, -⟩ := startRequest_calling calls
    rw [view, alive]
    have slot : (opened old.conn i (old.conn.openedStream .unary resp).received).streams i =
      (old.conn.openedStream .unary resp).received := View.set_streams ..
    refine ⟨by rw [slot]; rfl, by rw [slot]; rfl, fun j ne inUse => ?_, nofun, ?_⟩
    · have other : (opened old.conn i (old.conn.openedStream .unary resp).received).streams j =
        (old.conn.streams j).received := View.set_streams_of_ne _ ne _
      rw [other] at inUse ⊢
      exact fresh j inUse
    rw [slot]
    refine ⟨fun _ => rfl, fun _ => isSome_map .., fun _ _ => ?_, fun _ _ => rfl, nofun, nofun⟩
    exact ⟨.header rfl rfl (show 0 < 5 by decide), rfl, nofun⟩
  exact ⟨fun i unary => (started (by rw [unary]; rfl)).type, fun i calls _ => started calls⟩

/-- **A step keeps the exchange of the call.** -/
theorem step_during (step : old.step label = some new) (sound : old.conn.view.Sound)
    (during : old.During e) (met : settles ⟨old, e⟩ label = true) :
    new.During (exchange e old label new) := by
  cases stepped step with
  | frame f =>
    have call := (pollFrame_call old f).1
    have types := pollFrame_type f sound
    refine ⟨fun i unary => ?_, fun i calls type => ?_⟩
    · rw [types]
      exact during.unary i (call.symm.trans unary)
    rw [types] at type
    rw [call] at calls
    have allowed : e.allows old.conn f i = true := by
      have met : ((calling old.call).all fun i =>
        decide ((old.conn.streams i).type = .subscribe) || e.allows old.conn f i) = true := met
      rw [calls, all_some, type] at met
      exact met
    exact pollFrame_during f sound (during.during i calls type) allowed
  | readError =>
    refine ⟨fun i unary => ?_, fun i calls type => ?_⟩
    · exact (connFail_type ..).trans (during.unary i unary)
    · have before := during.during i calls ((connFail_type ..).symm.trans type)
      exact connFail_during .io before rfl fun _ => before.slot
  | socket => exact ⟨during.unary, during.during⟩
  | @resumed i body frameMax sent sending =>
    have view := (sends_view old.conn i).sendLoop (body.length - sent) body frameMax sent rfl
    have dead := congrArg Prod.fst
      ((sends_kept old.conn i).sendLoop (body.length - sent) body frameMax sent rfl)
    change (sendLoop _ _ _ _ _ _).conn.dead = old.conn.dead at dead
    refine ⟨fun j unary => ?_, fun j calls type => ?_⟩
    · obtain ⟨rfl, conn, was⟩ := afterSend_calling (by rw [unary]; rfl)
      rw [conn]
      exact was unary
    obtain ⟨rfl, conn, -⟩ := afterSend_calling calls
    rw [conn] at type
    rw [conn, view, dead]
    exact during.during j (by rw [sending]; rfl) ((type_of_view view j).symm.trans type)
  | unary path req resp => exact unary_during path req resp (of_decide_eq_true met)
  | streamOpen path req =>
    -- The slot is not that of a call.
    refine ⟨fun i unary => ?_, fun i calls type => ?_⟩
    · have calls : calling (startRequest old .subscribe path req none).call = some i := by
        rw [unary]
        rfl
      exact absurd ((startRequest_calling calls).2.2 unary) nofun
    obtain ⟨view, -, -⟩ := startRequest_calling calls
    have slot := congrArg Stream.type (Conn.received_of_view view i)
    rw [show (opened old.conn i _).streams i = _ from View.set_streams ..] at slot
    exact absurd (type.symm.trans slot) nofun
  | streamClose i idle =>
    refine .of_idle ?_
    unfold streamClose
    dsimp only
    split <;> exact congrArg calling idle
  | _ => exact .of_idle rfl

/-! ## What a call returns -/

/-- A step returns nothing or something justified. -/
def Returns (old new : Client) : Prop :=
  new.returned = old.returned ∨ ∃ outcome, new.returned = outcome :: old.returned ∧
    old.Justified outcome

theorem returns_finish (justified : old.Justified outcome) : old.Returns (finish c outcome old) :=
  .inr ⟨outcome, rfl, justified⟩

theorem afterSend_returns (old : Client) (i : Slot) (body : Octets) (frameMax : ℕ)
    (sending : Sending) : old.Returns (afterSend old i body frameMax sending) := by
  cases sending with
  | done =>
    unfold afterSend
    dsimp only
    split <;> exact .inl rfl
  | blocked => exact .inl rfl
  | failed => exact returns_finish trivial

/-- **What a step returns** is justified. -/
theorem step_returns (step : old.step label = some new) : old.Returns new := by
  cases stepped step with
  | frame => exact .inl (pollFrame_call ..).2
  | refused => exact .inr ⟨_, rfl, trivial⟩
  | returned _ _ _ justified | gaveUp _ _ _ justified => exact returns_finish justified
  | cancelled | took | missed => exact returns_finish trivial
  | resumed => exact afterSend_returns ..
  | unary | streamOpen =>
    unfold startRequest
    dsimp only
    split
    · exact returns_finish trivial
    split
    · exact returns_finish trivial
    split
    · exact returns_finish trivial
    · exact afterSend_returns ..
  | streamClose =>
    refine .inl ?_
    unfold streamClose
    dsimp only
    split <;> rfl
  | _ => exact .inl rfl

theorem justified_of_step (step : old.step label = some new)
    (returned : new.returned = outcome :: old.returned) : old.Justified outcome := by
  rcases step_returns step with same | ⟨other, eq, justified⟩
  · exact absurd (returned.symm.trans same) (cons_ne_self _ _)
  · rwa [head_eq_of_cons_eq (returned.symm.trans eq)]

end Client

/-! ## Runs -/

/-- **Success is a complete exchange.** In every run in which header blocks with `grpc-status` 0 end
a complete call, a call that succeeds has had a complete exchange, and the response is its message.
A status that is returned is never 0. -/
theorem unary_success_complete {r r' : Machine.Recorded Client Exchange} {label : Client.Label}
    (reachable : (exchanging.restrict fun r label => Client.settles r label = true).Reachable r)
    (step : exchanging.step r label = some r') :
    (∀ octets, r'.state.returned = .response octets :: r.state.returned →
      ∃ message, Complete message r.record.items ∧ (r.record.wants = true → octets = message)) ∧
    ∀ code, r'.state.returned = .status code :: r.state.returned → code ≠ 0 := by
  obtain ⟨step, -⟩ := Machine.recording_step.mp step
  refine ⟨fun octets returned => ?_, fun code returned => Client.justified_of_step step returned⟩
  obtain ⟨i, call, done, clean, zero, rfl⟩ := Client.justified_of_step step returned
  have opened : r.state.call ≠ .closed := by
    rw [call]
    exact nofun
  have during : r.state.During r.record := by
    refine reachable.recording_induct (P := fun c e => c.call ≠ .closed → c.During e) ?_ ?_ opened
    · rintro _ ⟨ns, rfl⟩ _
      exact .of_idle rfl
    intro old e label new before met step holds opened'
    have opened : old.call ≠ .closed := fun closed => opened' (Client.call_of_closed step closed)
    have sound := (Client.sound_of_reachable before).resolve_left opened
    exact Client.step_during step sound (holds opened) met
  have slot := (during.during i (by rw [call]; rfl) (during.unary i call)).slot
  exact slot.done done clean zero

/-- A call that gets its response. -/
def answeredUnary : List Client.Label :=
  [.frame ⟨.settings, 0, 0, []⟩, .check, .unary (ascii "/v/A") [] (some 8), .frame responseHeaders,
    .frame ⟨.data, 0, 1, [0, 0, 0, 0, 1, 7]⟩, .frame responseTrailers]

theorem unary_success_complete_answeredUnary :
    ∃ r r', (exchanging.restrict fun r label => Client.settles r label = true).Reachable r ∧
      exchanging.step r .check = some r' ∧
      r'.state.returned = .response [7] :: r.state.returned ∧ Complete [7] r.record.items := by
  have run : (((exchanging.restrict fun r label => Client.settles r label = true).exec
      ⟨.connecting (ascii "k8s"), ⟨0, false, []⟩⟩ answeredUnary).any fun r =>
        (exchanging.step r .check).any fun r' =>
          decide (r'.state.returned = .response [7] :: r.state.returned ∧ r.record.wants = true)) =
      true := by decide +kernel
  obtain ⟨r, reachable, facts⟩ := Machine.Reachable.of_any run ⟨⟨_, rfl⟩, rfl⟩
  obtain ⟨r', step, facts⟩ := (any_eq_true _ _).mp facts
  obtain ⟨returned, wants⟩ := of_decide_eq_true facts
  obtain ⟨message, complete, same⟩ := (unary_success_complete reachable step).1 _ returned
  obtain rfl := same wants
  exact ⟨r, r', reachable, step, returned, complete⟩

/-- **A success without a response.** The server answers a call with trailers only, with
`grpc-status` 0. The call returns 0, with an empty response. -/
theorem unary_success_without_message :
    ∃ r r', exchanging.Reachable r ∧ exchanging.step r .check = some r' ∧
      r'.state.returned = .response [] :: r.state.returned ∧ r.record.wants = true ∧
      r.record.items = [.block [⟨ascii "grpc-status", ascii "0"⟩] true] ∧
      ∀ message, ¬ Complete message r.record.items := by
  have run : ((exchanging.exec ⟨.connecting (ascii "k8s"), ⟨0, false, []⟩⟩
      [.frame ⟨.settings, 0, 0, []⟩, .check, .unary (ascii "/v/A") [] (some 8),
        .frame responseTrailers]).any fun r =>
        (exchanging.step r .check).any fun r' =>
          decide (r'.state.returned = .response [] :: r.state.returned ∧ r.record.wants = true ∧
            r.record.items = [.block [⟨ascii "grpc-status", ascii "0"⟩] true])) = true := by
    decide +kernel
  obtain ⟨r, reachable, facts⟩ := Machine.Reachable.of_any run ⟨⟨_, rfl⟩, rfl⟩
  obtain ⟨r', step, facts⟩ := (any_eq_true _ _).mp facts
  obtain ⟨returned, wants, items⟩ := of_decide_eq_true facts
  refine ⟨r, r', reachable, step, returned, wants, items, ?_⟩
  rw [items]
  intro message complete
  generalize all : [Item.block [⟨ascii "grpc-status", ascii "0"⟩] true] = items at complete
  obtain ⟨going, blocks, ok, data, length, status, zero, behind⟩ := complete
  rename_i before _ _ _ _ _ _ _ _
  rcases before with _ | ⟨x, before⟩
  · cases blocks
  · cases head_eq_of_cons_eq all
    exact absurd (going _ mem_cons_self) Bool.noConfusion

end Strimserver.H2c
