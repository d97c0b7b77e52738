import Strimserver.H2c.Requests

/-!
# The streams that a client opens

A client that opens a stream owes HTTP/2 an identifier that is odd, below 2^31 and larger than
all before it, and as many open streams as the server allows at most. The code counts neither: the
identifiers come from a counter of 32 bits, and `SETTINGS_MAX_CONCURRENT_STREAMS` is kept and never
looked at.

The streams are counted on the wire. A stream is open from the HEADERS frame of its request until
the client writes RST_STREAM for it or the server ends it. A slot can be given up before: when the
wait for credit in `send_request` times out nothing is written, and a write can fail.

`openings_obey` says that the law holds in every run in which a request is started while
the counter is low and fewer slots are live than the server allows, no write fails, no wait for
credit times out, and the server ends a stream with the status it sends for it.
-/

namespace Strimserver.H2c

open Hpack Library Function List Option Conn

/-! ## Streams on the wire -/

/-- The streams of HEADERS frames. -/
def openedSids (fs : List Frame) : List ℕ :=
  fs.filterMap fun f => if f.type = .headers then some f.sid else none

/-- The streams of RST_STREAM frames. -/
def resetSids (fs : List Frame) : List ℕ :=
  fs.filterMap fun f => if f.type = .rstStream then some f.sid else none

/-- The streams that frames of the client have opened and that neither side has ended. -/
def openSids (ended : List ℕ) (fs : List Frame) : List ℕ :=
  (openedSids fs).filter fun sid => sid ∉ ended ∧ sid ∉ resetSids fs

/-- The last `SETTINGS_MAX_CONCURRENT_STREAMS` of a payload. -/
def settingsLimit : Octets → Option ℕ
  | a :: b :: w :: x :: y :: z :: rest =>
    (settingsLimit rest).or
      (if (a.toNat <<< 8 ||| b.toNat) = 0x3 then some (readBe32 w x y z) else none)
  | _ => none

/-- The `SETTINGS_MAX_CONCURRENT_STREAMS` that a frame brings. -/
def Frame.limit (f : Frame) : Option ℕ :=
  if f.type = .settings ∧ has f.flags flagAck = false then settingsLimit f.payload else none

/-- The stream that the server ends with a frame. A header block ends it when it is complete. -/
def Conn.endedBy (c : Conn) (f : Frame) : Option ℕ :=
  match f.type with
  | .rstStream => some f.sid
  | .data => if has f.flags flagEndStream then some f.sid else none
  | .headers => if has f.flags flagEndStream && has f.flags flagEndHeaders then some f.sid else none
  | .continuation =>
    if has c.hdrBlockFlags flagEndStream && has f.flags flagEndHeaders then some c.hdrBlockSid
    else none
  | _ => none

/-! ## Openings -/

/-- A stream is opened: its identifier, those before it, the number of streams that are open with
it, and the limit that was last received. -/
structure Opening where
  sid : ℕ
  earlier : List ℕ
  active : ℕ
  limit : Option ℕ

/-- The stream was opened by the rules. -/
structure Opening.Obeys (o : Opening) : Prop where
  odd : o.sid % 2 = 1
  larger : ∀ sid ∈ o.earlier, sid < o.sid
  small : o.sid < 2 ^ 31
  few : ∀ limit, o.limit = some limit → o.active ≤ limit

/-- What has come and gone on a connection. -/
structure Ledger where
  limit : Option ℕ
  ended : List ℕ
  openings : List Opening

/-- The streams that frames open behind others. -/
def openingsOf (limit : Option ℕ) (ended : List ℕ) : (before fresh : List Frame) → List Opening
  | _, [] => []
  | before, f :: rest =>
    (if f.type = .headers then
      [⟨f.sid, openedSids before, (openSids ended (before ++ [f])).length, limit⟩] else []) ++
      openingsOf limit ended (before ++ [f]) rest

/-- What a frame of the server adds. -/
def Ledger.receive (l : Ledger) (c : Conn) (f : Frame) : Ledger :=
  { l with limit := f.limit.or l.limit, ended := l.ended ++ (c.endedBy f).toList }

/-- What a step receives. -/
def Ledger.after (l : Ledger) (c : Conn) : Client.Label → Ledger
  | .frame f => l.receive c f
  | _ => l

/-- What a step adds. -/
def Ledger.add (l : Ledger) (old : Client) (label : Client.Label) (new : Client) : Ledger :=
  let l := l.after old.conn label
  { l with
    openings := l.openings ++ openingsOf l.limit l.ended old.conn.written
      (new.conn.written.drop old.conn.written.length) }

def opening : Machine (Machine.Recorded Client Ledger) Client.Label :=
  clients.recording ⟨none, [], []⟩ Ledger.add

/-! ## The condition -/

def Stream.live (s : Stream) : Bool := s.inUse && s.state != .done

/-- How many slots have a stream that is not done. -/
def Conn.liveSlots (c : Conn) : ℕ := ((List.finRange 8).filter fun i => (c.streams i).live).length

/-- A frame completes a header block that ends its stream for the client. -/
def Conn.concludedBy (c : Conn) (f : Frame) : Bool :=
  match c.decoderInput f with
  | none => false
  | some octets =>
    match hpackDecodeBlock c.dynDec octets maxFields with
    | none => false
    | some (_, fields) => ((scanFields fields).bind HeaderScan.conclusion).isSome

def minds (r : Machine.Recorded Client Ledger) : Client.Label → Bool
  | .unary .. | .streamOpen .. =>
    r.state.conn.dead ||
      decide (r.state.conn.nextSid < 2 ^ 31) &&
        decide (r.state.conn.liveSlots < r.state.conn.srvMaxStreams)
  | .frame f => !r.state.conn.concludedBy f || (r.state.conn.endedBy f).isSome
  | .expire =>
    match r.state.call with
    | .sending .. => false
    | _ => true
  | .socket writable => writable.isNone
  | _ => true

/-- The runs whose steps all meet the condition. -/
def openingMindfully : Machine (Machine.Recorded Client Ledger) Client.Label :=
  opening.restrict fun r label => minds r label = true

/-! ## The part of a connection that counts -/

/-- A slot, as far as it counts. -/
structure Outline where
  id : ℕ
  inUse : Bool
  state : StreamState
  err : Option H2cError

/-- The outline of a slot. -/
def Stream.outline (s : Stream) : Outline := ⟨s.id, s.inUse, s.state, s.err⟩

/-- The stream of the slot is not done. -/
def Outline.live (o : Outline) : Bool := o.inUse && o.state != .done

/-- The sockets, the counter, what was written and the slots. -/
structure Traffic where
  writable : Option ℕ
  srvMaxStreams : ℕ
  nextSid : ℕ
  written : List Frame
  slots : Slot → Outline

namespace Traffic

def write (t : Traffic) (f : Frame) : Traffic := { t with written := t.written ++ [f] }

/-- A new value for a slot. -/
def set (t : Traffic) (i : Slot) (o : Outline) : Traffic :=
  { t with slots := Function.update t.slots i o }

theorem set_slots (t : Traffic) (i : Slot) (o : Outline) : (t.set i o).slots i = o := update_self ..

theorem set_slots_of_ne (t : Traffic) {i j : Slot} (ne : j ≠ i) (o : Outline) :
    (t.set i o).slots j = t.slots j := update_of_ne ne ..

/-- The identifiers are in order, and every stream that was opened and is not ended has a live
slot. -/
structure Orderly (ended : List ℕ) (limit : ℕ) (t : Traffic) : Prop where
  unlimited : t.writable = none
  limit : t.srvMaxStreams = limit
  odd : t.nextSid % 2 = 1
  below : ∀ sid ∈ openedSids t.written, sid < t.nextSid
  increasing : (openedSids t.written).Pairwise (· < ·)
  clean : ∀ i, (t.slots i).live = true → (t.slots i).err = none
  accounted : ∀ sid ∈ openedSids t.written, sid ∈ ended ∨ sid ∈ resetSids t.written ∨
    ∃ i, (t.slots i).live = true ∧ (t.slots i).id = sid

/-- **The books are in order** as long as the connection is alive, and no stream has been opened
behind the frames written before. -/
structure Tidy (alive : Prop) (before : List Frame) (ended : List ℕ) (limit : ℕ) (t : Traffic) :
    Prop where
  unopened : ∃ fresh, t.written = before ++ fresh ∧ ∀ f ∈ fresh, f.type ≠ .headers
  orderly : alive → t.Orderly ended limit

theorem mem_resetSids_write {sid : ℕ} {fs : List Frame} (reset : sid ∈ resetSids fs) (f : Frame) :
    sid ∈ resetSids (fs ++ [f]) := by
  unfold resetSids
  rw [filterMap_append]
  exact mem_append_left _ reset

section

variable {alive : Prop} {before : List Frame} {ended : List ℕ} {limit : ℕ} {t : Traffic} {i : Slot}
  {o : Outline}
  {f : Frame}

theorem Orderly.write (orderly : t.Orderly ended limit) (other : f.type ≠ .headers) :
    (t.write f).Orderly ended limit := by
  have opened : openedSids (t.write f).written = openedSids t.written := by
    simp [openedSids, Traffic.write, other]
  refine ⟨orderly.unlimited, orderly.limit, orderly.odd, ?_, ?_, orderly.clean, ?_⟩
  · rw [opened]
    exact orderly.below
  · rw [opened]
    exact orderly.increasing
  rw [opened]
  intro sid mem
  rcases orderly.accounted sid mem with past | reset | held
  · exact .inl past
  · exact .inr (.inl (mem_resetSids_write reset f))
  · exact .inr (.inr held)

/-- A new value for a slot whose stream stays live, was not opened or has ended. -/
theorem Orderly.set (orderly : t.Orderly ended limit) (clean : o.live = true → o.err = none)
    (past : (t.slots i).live = true → (t.slots i).id ∈ openedSids t.written →
      o.live = true ∧ o.id = (t.slots i).id ∨
        (t.slots i).id ∈ ended ∨ (t.slots i).id ∈ resetSids t.written) :
    (t.set i o).Orderly ended limit := by
  refine ⟨orderly.unlimited, orderly.limit, orderly.odd, orderly.below, orderly.increasing, ?_, ?_⟩
  · intro j
    by_cases here : j = i
    · subst here
      rw [set_slots]
      exact clean
    · rw [set_slots_of_ne t here]
      exact orderly.clean j
  intro sid mem
  rcases orderly.accounted sid mem with gone | reset | ⟨j, lives, rfl⟩
  · exact .inl gone
  · exact .inr (.inl reset)
  by_cases here : j = i
  · subst here
    refine (past lives mem).elim (fun kept => .inr (.inr ⟨j, ?_⟩)) (.imp_right .inl)
    rwa [set_slots]
  · refine .inr (.inr ⟨j, ?_⟩)
    rw [set_slots_of_ne t here]
    exact ⟨lives, rfl⟩

section

variable (tidy : t.Tidy alive before ended limit)

include tidy

theorem Tidy.write (other : f.type ≠ .headers) : (t.write f).Tidy alive before ended limit := by
  obtain ⟨fresh, written, unopened⟩ := tidy.unopened
  refine ⟨⟨fresh ++ [f], ?_, ?_⟩, fun alive => (tidy.orderly alive).write other⟩
  · show t.written ++ [f] = _
    rw [written, append_assoc]
  · rw [forall_mem_append, forall_mem_singleton]
    exact ⟨unopened, other⟩

theorem Tidy.set_kept (id : o.id = (t.slots i).id) (live : o.live = (t.slots i).live)
    (clean : alive → o.live = true → o.err = none) : (t.set i o).Tidy alive before ended limit :=
  ⟨tidy.unopened, fun alive =>
    (tidy.orderly alive).set (clean alive) fun lives _ => .inl ⟨live.trans lives, id⟩⟩

theorem Tidy.set_idle (idle : o.live = false)
    (past : alive → (t.slots i).live = true → (t.slots i).id ∈ openedSids t.written →
      (t.slots i).id ∈ ended ∨ (t.slots i).id ∈ resetSids t.written) :
    (t.set i o).Tidy alive before ended limit :=
  ⟨tidy.unopened, fun alive => (tidy.orderly alive).set (by rw [idle]; nofun)
    fun lives opened => .inr (past alive lives opened)⟩

theorem Tidy.weaken {alive' : Prop} (lives : alive' → alive) : t.Tidy alive' before ended limit :=
  ⟨tidy.unopened, fun alive => tidy.orderly (lives alive)⟩

end

/-- A slot is given to a new stream. -/
def openSlot (t : Traffic) (i : Slot) : Traffic :=
  { t.set i ⟨t.nextSid, true, .sent, none⟩ with nextSid := (t.nextSid + 2) % 2 ^ 32 }

/-- A stream that is opened has an identifier above all others, while the counter is low. -/
theorem Orderly.openSlot (orderly : t.Orderly ended limit) (idle : (t.slots i).live = false)
    (low : t.nextSid < 2 ^ 31) : (t.openSlot i).Orderly ended limit := by
  have odd := orderly.odd
  have set : (t.set i ⟨t.nextSid, true, .sent, none⟩).Orderly ended limit :=
    orderly.set (fun _ => rfl) (by rw [idle]; nofun)
  refine ⟨set.unlimited, set.limit, ?_, fun sid mem => ?_, set.increasing, set.clean, set.accounted⟩
  · show (t.nextSid + 2) % 2 ^ 32 % 2 = 1
    omega
  · show sid < (t.nextSid + 2) % 2 ^ 32
    have := orderly.below sid mem
    omega

/-- The HEADERS frame of a new stream is written. -/
theorem Orderly.openSlot_write (orderly : t.Orderly ended limit) (idle : (t.slots i).live = false)
    (low : t.nextSid < 2 ^ 31) (headers : f.type = .headers) (sid : f.sid = t.nextSid) :
    ((t.openSlot i).write f).Orderly ended limit := by
  have opened : openedSids ((t.openSlot i).write f).written =
      openedSids t.written ++ [t.nextSid] := by
    show openedSids (t.written ++ [f]) = _
    simp [openedSids, headers, sid]
  have first := orderly.openSlot (i := i) idle low
  refine ⟨first.unlimited, first.limit, first.odd, ?_, ?_, first.clean, ?_⟩
  · rw [opened, forall_mem_append, forall_mem_singleton]
    refine ⟨first.below, ?_⟩
    show t.nextSid < (t.nextSid + 2) % 2 ^ 32
    omega
  · rw [opened, pairwise_append]
    refine ⟨orderly.increasing, pairwise_singleton .., fun a mem b last => ?_⟩
    rw [mem_singleton.mp last]
    exact orderly.below a mem
  rw [opened, forall_mem_append, forall_mem_singleton]
  refine ⟨fun sid mem => ?_, .inr (.inr ⟨i, ?_, ?_⟩)⟩
  · exact (first.accounted sid mem).imp_right (.imp_left fun reset => mem_resetSids_write reset f)
  · exact congrArg Outline.live (set_slots ..)
  · exact congrArg Outline.id (set_slots ..)

end

end Traffic

namespace Conn

/-- The part of the connection that counts. -/
def traffic (c : Conn) : Traffic :=
  ⟨c.writable, c.srvMaxStreams, c.nextSid, c.written, fun i => (c.streams i).outline⟩

theorem set_traffic (c : Conn) (i : Slot) (s : Stream) :
    (c.set i s).traffic = c.traffic.set i s.outline := by
  unfold traffic Conn.set Traffic.set
  congr 1
  funext j
  dsimp only
  by_cases here : j = i
  · subst here
    rw [update_self, update_self]
  · rw [update_of_ne here, update_of_ne here]

variable {i : Slot} {f : Frame}

/-- A new value for a slot that does not count. -/
theorem set_traffic_of_outline {c : Conn} {s : Stream} (same : s.outline = (c.streams i).outline) :
    (c.set i s).traffic = c.traffic := by
  rw [set_traffic, same]
  unfold traffic Traffic.set
  congr 1
  exact update_eq_self ..

theorem frameWrite_unlimited {c : Conn} (unlimited : c.writable = none)
    (short : f.payload.length ≤ 0xffffff) :
    c.frameWrite f = ({ c with written := c.written ++ [f] }, true) := by
  unfold frameWrite
  rw [if_neg (Nat.not_lt.mpr short), unlimited]

section

variable {alive : Prop} {before : List Frame} {ended : List ℕ} {limit : ℕ} {c : Conn}
  (tidy : c.traffic.Tidy alive before ended limit)

include tidy

theorem frameWrite_tidy (other : f.type ≠ .headers) :
    (c.frameWrite f).1.traffic.Tidy alive before ended limit := by
  unfold frameWrite
  split
  · exact tidy
  split
  · exact tidy
  · rename_i n limited
    refine ⟨(tidy.write other).unopened, fun alive => ?_⟩
    cases limited.symm.trans (tidy.orderly alive).unlimited
  · exact tidy.write other

/-- RST_STREAM is written, and the stream has ended. -/
theorem frameWriteRst_tidy (sid : ℕ) (code : H2Code) :
    (c.frameWriteRst sid code).traffic.Tidy alive before ended limit ∧
      (alive → sid ∈ resetSids (c.frameWriteRst sid code).written) := by
  have short : (be32 code.value).length ≤ 0xffffff := (by decide : 4 ≤ 0xffffff)
  have other : FrameType.rstStream ≠ .headers := by decide
  refine ⟨frameWrite_tidy tidy other, fun alive => ?_⟩
  unfold frameWriteRst
  rw [frameWrite_unlimited (tidy.orderly alive).unlimited short]
  simp [resetSids]

theorem streamDestroy_tidy
    (past : alive → (c.streams i).live = true → (c.streams i).id ∈ openedSids c.written →
      (c.streams i).id ∈ ended ∨ (c.streams i).id ∈ resetSids c.written) :
    (c.streamDestroy i).traffic.Tidy alive before ended limit := by
  unfold streamDestroy
  rw [set_traffic]
  exact tidy.set_idle rfl past

end

/-! ## Frames -/

section

variable {alive : Prop} {before : List Frame} {ended : List ℕ} {limit : ℕ} {c : Conn}
  (tidy : c.traffic.Tidy alive before ended limit)

include tidy

/-- A new value for a slot that does not count. -/
theorem set_tidy {s : Stream} (same : s.outline = (c.streams i).outline) :
    (c.set i s).traffic.Tidy alive before ended limit := by
  rwa [set_traffic_of_outline same]

omit tidy in
theorem steady_tidy (alive : Prop) (before : List Frame) (ended : List ℕ) (limit : ℕ) :
    Steady fun c => c.traffic.Tidy alive before ended limit where
  write type tidy := frameWrite_tidy tidy (by rcases type with type | type <;> rw [type] <;> decide)
  window _ tidy := tidy
  set standing tidy := by
    simp only [Conn.standing, Prod.mk.injEq] at standing
    obtain ⟨id, inUse, state, err, -⟩ := standing
    exact set_tidy tidy (by rw [Stream.outline, Stream.outline, id, inUse, state, err])
  reset {c i s} code id _ _ done tidy := by
    obtain ⟨written, reset⟩ := frameWriteRst_tidy tidy (c.streams i).id code
    rw [set_traffic]
    refine written.set_idle (by rw [Stream.outline, Outline.live, done]; exact Bool.and_false _)
      fun alive _ _ => .inr ?_
    show ((c.frameWriteRst (c.streams i).id code).streams i).id ∈ _
    rw [frameWriteRst_streams]
    exact reset alive

theorem handleWindowUpdate_tidy (sid : ℕ) (payload : Octets) :
    (c.handleWindowUpdate sid payload).1.traffic.Tidy alive before ended limit := by
  unfold handleWindowUpdate
  split
  · dsimp only
    split
    · exact tidy
    split
    · exact tidy
    split
    · exact tidy
    · exact set_tidy tidy rfl
  · exact tidy

omit tidy in
theorem shiftWindows_traffic (delta : ℤ) (slots : List Slot) (c : Conn) :
    (shiftWindows delta slots c).1.traffic = c.traffic := by
  induction slots generalizing c with
  | nil => rfl
  | cons i slots ih =>
    have moved : (c.set i { c.streams i with
        sendWindow := int32 ((c.streams i).sendWindow + delta) }).traffic = c.traffic :=
      set_traffic_of_outline rfl
    unfold shiftWindows
    dsimp only
    split
    · split
      · exact moved
      · exact (ih _).trans moved
    · exact ih c

theorem applySetting_tidy (id val : ℕ) : (c.applySetting id val).1.traffic.Tidy alive before ended
      ((if id = 0x3 then some val else none).getD limit) := by
  by_cases streams : id = 0x3
  · subst streams
    exact ⟨tidy.unopened, fun alive => { tidy.orderly alive with limit := rfl }⟩
  rw [if_neg streams, getD_none]
  unfold applySetting
  split
  · exact tidy
  · contradiction
  · have moved : ∀ w, ({ c with srvInitialWindow := w } : Conn).traffic = c.traffic := fun _ => rfl
    rw [shiftWindows_traffic, moved]
    exact tidy
  · split <;> exact tidy
  · exact tidy

omit tidy in
theorem applySettings_tidy (p : Octets) {c : Conn} {limit : ℕ}
    (tidy : c.traffic.Tidy alive before ended limit) :
    (applySettings p c).1.traffic.Tidy (alive ∧ (applySettings p c).2 = true) before ended
      ((settingsLimit p).getD limit) := by
  fun_induction applySettings p c generalizing limit with
  | case1 a b w x y z rest c c₁ failed =>
    have first := applySetting_tidy tidy (a.toNat <<< 8 ||| b.toNat) (readBe32 w x y z)
    rw [failed] at first
    exact ⟨first.unopened, fun absurd => Bool.noConfusion absurd.2⟩
  | case2 a b w x y z rest c c₁ done ih =>
    have first := applySetting_tidy tidy (a.toNat <<< 8 ||| b.toNat) (readBe32 w x y z)
    rw [done] at first
    rw [settingsLimit, getD_or]
    exact ih first
  | case3 p c short =>
    have nothing : settingsLimit p = none := by
      unfold settingsLimit
      split
      · exact (short _ _ _ _ _ _ _ rfl).elim
      · rfl
    rw [nothing]
    exact tidy.weaken And.left

theorem handleSettings_tidy (p : Octets) :
    (c.handleSettings p).1.traffic.Tidy (alive ∧ (c.handleSettings p).2 = true) before ended
      ((settingsLimit p).getD limit) := by
  have settled := applySettings_tidy p tidy
  unfold handleSettings
  split
  · exact ⟨tidy.unopened, fun absurd => Bool.noConfusion absurd.2⟩
  rcases applied : applySettings p c with ⟨c₁, _ | _⟩
  · rw [applied] at settled
    exact ⟨settled.unopened, fun absurd => Bool.noConfusion absurd.2⟩
  rw [applied] at settled
  dsimp only
  have acked := frameWrite_tidy settled (f := ⟨.settings, flagAck, 0, []⟩) (by decide)
  rcases write : c₁.frameWrite ⟨.settings, flagAck, 0, []⟩ with ⟨c₂, _ | _⟩
  · rw [write] at acked
    exact ⟨acked.unopened, fun absurd => Bool.noConfusion absurd.2⟩
  · rw [write] at acked
    exact acked.weaken fun both => ⟨both.1, rfl⟩

variable {sid : ℕ} {flags : UInt8}

theorem handleHeaderBlock_tidy {block : Octets}
    (past : ∀ octets d fields h status, blockInput block flags = some octets →
      hpackDecodeBlock c.dynDec octets maxFields = some (d, fields) → scanFields fields = some h →
      h.conclusion = some status → sid ∈ ended) :
    (c.handleHeaderBlock sid block flags).1.traffic.Tidy alive before ended limit := by
  unfold handleHeaderBlock
  split
  · exact tidy
  rename_i off offset
  split
  · exact tidy
  rename_i d fields decoded
  dsimp only
  split
  · exact tidy
  rename_i i found
  split
  · exact tidy
  split
  · exact tidy
  rename_i h scanned
  split
  · rename_i status conclusion
    rw [set_traffic]
    have id : (c.streams i).id = sid := (streamFind_spec (c := { c with dynDec := d }) found).2
    refine Traffic.Tidy.set_idle tidy (Bool.and_false _) fun _ _ _ => .inl ?_
    have input : blockInput block flags = some (block.drop off) := by
      rw [blockInput, offset, map_some]
    show (c.streams i).id ∈ ended
    rw [id]
    exact past _ d fields h status input decoded scanned conclusion
  split
  · exact tidy
  rename_i sent
  have sent : (c.streams i).state = .sent := not_not.mp sent
  rw [set_traffic]
  have live : (Outline.live ⟨(c.streams i).id, (c.streams i).inUse, .headers,
      (c.streams i).err⟩) = (c.streams i).outline.live := by
    unfold Outline.live Stream.outline
    rw [sent]
    rfl
  refine Traffic.Tidy.set_kept tidy rfl live fun alive lives => ?_
  exact (tidy.orderly alive).clean i (live.symm.trans lives)

theorem handleRstStream_tidy (payload : Octets) (past : sid ∈ ended) :
    (c.handleRstStream sid payload).1.traffic.Tidy alive before ended limit := by
  unfold handleRstStream
  split
  · exact tidy
  split
  · exact tidy
  rename_i i found
  have gone : (c.streams i).id ∈ ended := (streamFind_spec found).2.symm ▸ past
  dsimp only
  split
  · exact streamDestroy_tidy tidy fun _ _ _ => .inl gone
  · rw [set_traffic]
    exact tidy.set_idle (Bool.and_false _) fun _ _ _ => .inl gone

theorem processOneFrame_header_tidy (type : f.type = .headers ∨ f.type = .continuation)
    (ends : !c.concludedBy f || (c.endedBy f).isSome) (past : ∀ n ∈ c.endedBy f, n ∈ ended) :
    (c.processOneFrame f).1.traffic.Tidy alive before ended limit := by
  have own (finished : (c.endedBy f).isSome = true) : c.streamOf f ∈ c.endedBy f := by
    unfold endedBy at *
    rcases type with type | type
    · simpa [streamOf, type] using finished
    · simpa [streamOf, type] using finished
  have move := processOneFrame_header (c := c) type
  generalize c.processOneFrame f = result at move ⊢
  cases move with
  | refused | collected => exact tidy
  | handled block flags input =>
    refine handleHeaderBlock_tidy tidy
      fun octets d fields h status input' decoded scanned concluded => ?_
    -- A header block that concludes a stream is one that ends it.
    have block : c.concludedBy f = true := by
      unfold concludedBy
      rw [input.trans input']
      dsimp only
      rw [decoded]
      dsimp only
      rw [scanned, bind_some, concluded]
      rfl
    rw [block] at ends
    exact past _ (own ends)

/-- **A frame** keeps the books in order, unless it is the end of the connection. -/
theorem processOneFrame_tidy (f : Frame) (ends : !c.concludedBy f || (c.endedBy f).isSome) :
    (c.processOneFrame f).1.traffic.Tidy
      (alive ∧ (c.processOneFrame f).2 = true ∧ (c.processOneFrame f).1.dead = false) before
      (ended ++ (c.endedBy f).toList) (f.limit.getD limit) := by
  have later : c.traffic.Tidy alive before (ended ++ (c.endedBy f).toList) limit :=
    ⟨tidy.unopened, fun alive => { tidy.orderly alive with
      accounted := fun sid mem => ((tidy.orderly alive).accounted sid mem).imp_left
        fun past => mem_append_left _ past }⟩
  have past : ∀ sid ∈ c.endedBy f, sid ∈ ended ++ (c.endedBy f).toList := fun sid ended =>
    mem_append_right _ (mem_toList.mpr ended)
  obtain ⟨type, flags, sid, payload⟩ := f
  cases type with
  | settings =>
    unfold processOneFrame Frame.limit
    dsimp only
    split
    · exact ⟨later.unopened, fun absurd => Bool.noConfusion absurd.2.1⟩
    split
    · rename_i ack
      rw [if_neg (by simp [ack])]
      exact later.weaken And.left
    rename_i plain
    rw [if_pos ⟨rfl, Bool.eq_false_iff.mpr plain⟩]
    exact (handleSettings_tidy later payload).weaken fun both => ⟨both.1, both.2.1⟩
  | ping => exact ((steady_tidy ..).handlePing flags payload later).weaken And.left
  | windowUpdate => exact (handleWindowUpdate_tidy later sid payload).weaken And.left
  | data => exact ((steady_tidy ..).handleDataFrame flags sid payload later).weaken And.left
  | rstStream => exact (handleRstStream_tidy later payload (past sid rfl)).weaken And.left
  | goaway =>
    unfold processOneFrame handleGoaway
    dsimp only
    split
    · exact ⟨later.unopened, fun absurd => Bool.noConfusion absurd.2.1⟩
    · exact ⟨later.unopened, fun absurd => Bool.noConfusion absurd.2.2⟩
  | headers => exact (processOneFrame_header_tidy later (.inl rfl) ends past).weaken And.left
  | continuation => exact (processOneFrame_header_tidy later (.inr rfl) ends past).weaken And.left
  | priority | pushPromise | unknown => exact later.weaken And.left

end

end Conn

/-! ## Steps -/

variable {c : Conn} {ended : List ℕ} {alive : Prop}

/-- The loop of `send_request` sends nothing but data, and it does not fail while the socket takes
what is written. -/
theorem sendLoop_tidy (fuel : ℕ) {before : List Frame} {limit : ℕ}
    (tidy : c.traffic.Tidy alive before ended limit) (i : Slot) (body : Octets) {frameMax : ℕ}
    (small : frameMax ≤ 0xffffff) (sent : ℕ) :
    (sendLoop fuel c i body frameMax sent).conn.traffic.Tidy alive before ended limit ∧
      (alive → ∀ c' err, sendLoop fuel c i body frameMax sent ≠ .failed c' err) := by
  induction fuel generalizing c sent with
  | zero => exact ⟨tidy, fun _ _ _ => nofun⟩
  | succ fuel ih =>
    by_cases unsent : sent < body.length
    · by_cases covers : Covers c i (chunkSize body frameMax sent)
      · rw [sendLoop_of_covers fuel unsent covers]
        have charged : (c.charge i (chunkSize body frameMax sent)).traffic.Tidy alive before ended
          limit := set_tidy tidy rfl
        have written := frameWrite_tidy charged
          (f := chunkFrame (c.streams i).id body frameMax sent)
          (by decide : FrameType.data ≠ .headers)
        have succeeds : alive → ((c.charge i (chunkSize body frameMax sent)).frameWrite
            (chunkFrame (c.streams i).id body frameMax sent)).2 = true := by
          intro alive
          rw [frameWrite_unlimited (charged.orderly alive).unlimited ?_]
          refine (length_take_le _ _).trans ?_
          unfold chunkSize
          omega
        rcases write : (c.charge i (chunkSize body frameMax sent)).frameWrite
          (chunkFrame (c.streams i).id body frameMax sent) with ⟨c', _ | _⟩
        · rw [write] at written succeeds
          exact ⟨written, fun alive => Bool.noConfusion (succeeds alive)⟩
        · rw [write] at written
          exact ih written _
      · rw [sendLoop_of_blocked fuel unsent covers]
        exact ⟨tidy, fun _ _ _ => nofun⟩
    · rw [sendLoop_of_sent _ c i frameMax (Nat.not_lt.mp unsent)]
      exact ⟨tidy, fun _ _ _ => nofun⟩

namespace Client

variable {old new : Client} {before : List Frame} {ended : List ℕ} {limit : ℕ}

theorem not_live_of_done {s : Stream} (done : s.state = .done) : s.live = false := by
  unfold Stream.live
  rw [done]
  exact Bool.and_false _

theorem afterSend_tidy (i : Slot) (body : Octets) (frameMax : ℕ) {sending : Sending}
    (tidy : sending.conn.traffic.Tidy alive before ended limit)
    (succeeds : alive → ∀ c err, sending ≠ .failed c err) :
    (afterSend old i body frameMax sending).conn.traffic.Tidy alive before ended limit := by
  cases sending with
  | done =>
    unfold afterSend
    dsimp only
    split <;> exact tidy
  | blocked => exact tidy
  | failed c err => exact streamDestroy_tidy tidy fun alive => (succeeds alive c err rfl).elim

theorem streamClose_tidy (tidy : old.conn.traffic.Tidy old.Live before ended limit) (i : Slot) :
    (streamClose old i).conn.traffic.Tidy old.Live before ended limit := by
  unfold streamClose
  dsimp only
  split
  · have idle : ∀ {c : Conn} (s : Stream), s.state = .done →
      c.traffic.Tidy old.Live before ended limit →
        (old.Live → (c.streams i).live = true → (c.streams i).id ∈ resetSids c.written) →
        ((c.set i s).streamDestroy i).traffic.Tidy old.Live before ended limit := by
      intro c s done tidy past
      have set : (c.set i s).traffic.Tidy old.Live before ended limit := by
        rw [set_traffic]
        exact tidy.set_idle (not_live_of_done done) fun going live _ => .inr (past going live)
      refine streamDestroy_tidy set fun _ live => ?_
      rw [show (c.set i s).streams i = s from update_self ..] at live
      exact Bool.noConfusion (live.symm.trans (not_live_of_done done))
    split_ifs with past
    · obtain ⟨written, reset⟩ := frameWriteRst_tidy tidy (old.conn.streams i).id .cancel
      refine idle _ rfl written fun going _ => ?_
      rw [show (old.conn.frameWriteRst (old.conn.streams i).id .cancel).streams =
        old.conn.streams from
        frameWrite_streams ..]
      exact reset going
    refine idle _ rfl tidy fun going live => ?_
    refine absurd ?_ past
    have open' : (old.conn.streams i).state ≠ .done := fun done =>
      Bool.noConfusion (live.symm.trans (not_live_of_done done))
    simp [going.1, open']
  · exact tidy

theorem closeStreams_tidy (slots : List Slot) (tidy : c.traffic.Tidy False before ended limit) :
    (closeStreams slots c).traffic.Tidy False before ended limit := by
  induction slots generalizing c with
  | nil => exact tidy
  | cons i slots ih =>
    refine ih (streamDestroy_tidy ?_ False.elim)
    split
    · exact (frameWriteRst_tidy tidy _ _).1
    · exact tidy

/-! ### Requests -/

variable {type : StreamType}

/-- The connection of a request before its headers are sent. -/
theorem allocated_traffic {c' : Conn} {i : Slot} (found : c.streamAlloc type = some (i, c'))
    (resp : Option ℕ) :
    (c'.set i
      { c'.streams i with
        resp := resp.map fun _ => [], respCap := resp.getD 0, respLen := 0 }).traffic =
        c.traffic.openSlot i ∧
      (c.streams i).live = false := by
  obtain ⟨allocatable, rfl⟩ := streamAlloc_spec found
  refine ⟨?_, ?_⟩
  swap
  · rcases allocatable with unused | ⟨-, done⟩
    · unfold Stream.live
      rw [unused]
      exact Bool.false_and _
    · exact not_live_of_done done
  rw [set_traffic_of_outline (by rfl)]
  have slots := set_traffic c i (c.openedStream type none)
  unfold Traffic.openSlot
  rw [show c.traffic.set i ⟨c.traffic.nextSid, true, .sent, none⟩ =
    (c.set i (c.openedStream type none)).traffic from slots.symm]
  rfl

/-- A request whose headers are sent opens a stream. -/
theorem startRequest_opens {path req : Octets} {resp : Option ℕ} {i : Slot}
    (tidy : old.conn.traffic.Tidy old.Live old.conn.written ended limit) (idle : old.call = .idle)
    (within : old.conn.allowance.Within) (low : old.conn.dead = false → old.conn.nextSid < 2 ^ 31)
    (entry : old.loopEntry type path req resp = some (i, c)) :
    old.Live ∧ ∃ f : Frame, f.type = .headers ∧ f.sid = old.conn.nextSid ∧
      (startRequest old type path req resp).conn.traffic.Tidy old.Live (old.conn.written ++ [f])
        ended limit := by
  obtain ⟨started, sameMax⟩ := startRequest_of_entry entry
  have small : c.srvMaxFrame ≤ 0xffffff := sameMax ▸ within.maxFrame.2
  obtain ⟨live, -, c₀, found, enter⟩ := loopEntry_some entry
  have going : old.Live := ⟨live, idle ▸ nofun⟩
  have orderly := tidy.orderly going
  obtain ⟨traffic, unused⟩ := allocated_traffic found resp
  obtain ⟨enc, block, -, written⟩ := enterLoop_some enter
  generalize c₀.set i _ = c₁ at traffic written
  have unlimited : c₁.writable = none := (congrArg Traffic.writable traffic).trans orderly.unlimited
  have short : block.length ≤ 0xffffff := by
    by_contra long
    unfold Conn.frameWrite at written
    rw [if_pos (Nat.not_le.mp long)] at written
    cases written
  obtain ⟨f, headers, sid, wrote⟩ : ∃ f : Frame, f.type = .headers ∧ f.sid = (c₁.streams i).id ∧
      c.traffic = c₁.traffic.write f := by
    rw [frameWrite_unlimited (c := { c₁ with enc }) unlimited short] at written
    cases written
    exact ⟨_, rfl, rfl, rfl⟩
  have sid : f.sid = old.conn.nextSid := by
    have outline := congrArg Outline.id (congrFun (congrArg Traffic.slots traffic) i)
    exact sid.trans (outline.trans (congrArg Outline.id (Traffic.set_slots ..)))
  refine ⟨going, f, headers, sid, ?_⟩
  rw [started]
  have sent : c.traffic.Tidy old.Live (old.conn.written ++ [f]) ended limit := by
    rw [wrote, traffic]
    refine ⟨⟨[], (append_nil _).symm, nofun⟩, fun _ => ?_⟩
    exact orderly.openSlot_write unused (low going.1) headers sid
  obtain ⟨looped, succeeds⟩ := sendLoop_tidy (req.length + 5) sent i (grpcBody req) small 0
  exact afterSend_tidy i _ _ looped succeeds

/-! ### Every step -/

variable {label : Label}

/-- The frames that can be sent stay small. -/
theorem small_of_step (within : old.conn.allowance.Within)
    (small : ∀ i body frameMax sent, old.call = .sending i body frameMax sent → frameMax ≤ 0xffffff)
    (step : old.step label = some new) (i : Slot) (body : Octets) (frameMax sent : ℕ)
    (call : new.call = .sending i body frameMax sent) : frameMax ≤ 0xffffff := by
  cases start : old.starting label with
  | some entry =>
    obtain ⟨rfl, sameMax, -⟩ := starting_spec step start
    obtain ⟨-, -, rfl, -⟩ := (afterSend_call ..).2 i body frameMax sent call
    exact sameMax ▸ within.maxFrame.2
  | none =>
    cases resume : old.resuming label with
    | some =>
      obtain ⟨j, body', frameMax', sent', waits, -, rfl, -⟩ := resuming_spec step resume
      obtain ⟨-, -, rfl, -⟩ := (afterSend_call ..).2 i body frameMax sent call
      exact small _ _ _ _ waits
    | none => exact small i body frameMax sent (sending_of_step step start resume call)

theorem connFail_unopened (code : H2cError) (tidy : c.traffic.Tidy False before ended limit) :
    (c.connFail code).traffic.Tidy False before ended limit := by
  refine ⟨?_, False.elim⟩
  have written : (c.connFail code).traffic.written = c.traffic.written := by
    unfold Conn.connFail
    split <;> rfl
  rw [written]
  exact tidy.unopened

theorem mindful_of_alive (mindful : (c.dead || decide (c.nextSid < 2 ^ 31) &&
    decide (c.liveSlots < c.srvMaxStreams)) = true) (alive : c.dead = false) :
    c.nextSid < 2 ^ 31 ∧ c.liveSlots < c.srvMaxStreams := by
  simpa [alive] using mindful

/-- **A step that starts no request** opens no stream and keeps the books in order. -/
theorem step_unopened {l : Ledger}
    (tidy : old.conn.traffic.Tidy old.Live old.conn.written l.ended (l.limit.getD 100))
    (small : ∀ i body frameMax sent, old.call = .sending i body frameMax sent → frameMax ≤ 0xffffff)
    (mindful : minds ⟨old, l⟩ label = true) (start : old.starting label = none)
    (step : old.step label = some new) :
    new.conn.traffic.Tidy new.Live old.conn.written (l.after old.conn label).ended
      ((l.after old.conn label).limit.getD 100) := by
  have going : new.Live → old.Live := live_of_step step
  cases stepped step with
  | socket =>
    refine ⟨tidy.unopened, fun alive => { tidy.orderly (going alive) with unlimited := ?_ }⟩
    exact isNone_iff_eq_none.mp mindful
  | frame f =>
    have processed := processOneFrame_tidy tidy f mindful
    have limit : f.limit.getD (l.limit.getD 100) = (f.limit.or l.limit).getD 100 :=
      (getD_or ..).symm
    rw [limit] at processed
    unfold pollFrame at going ⊢
    rcases accepted : old.conn.processOneFrame f with ⟨c, _ | _⟩
    · rw [accepted] at processed
      refine (connFail_unopened .proto (processed.weaken False.elim)).weaken fun alive => ?_
      exact Bool.noConfusion (alive.1.symm.trans (connFail_dead ..))
    · rw [accepted] at processed going
      exact processed.weaken fun alive => ⟨going alive, rfl, alive.1⟩
  | readError =>
    refine (connFail_unopened .io (tidy.weaken False.elim)).weaken fun alive => ?_
    exact Bool.noConfusion (alive.1.symm.trans (connFail_dead ..))
  | refused loop | returned loop => rcases loop with rfl | rfl <;> exact tidy.weaken going
  | @gaveUp _ i _ _ loop past =>
    have closed : (old.conn.streamDestroy i).traffic.Tidy old.Live old.conn.written l.ended
        (l.limit.getD 100) := by
      refine streamDestroy_tidy tidy fun alive live => ?_
      rcases past with dead | done | failed | ⟨rfl, body, frameMax, sent, call⟩
      · exact Bool.noConfusion (dead.symm.trans alive.1)
      · exact Bool.noConfusion (live.symm.trans (not_live_of_done done))
      · have clean : (old.conn.streams i).err = none := (tidy.orderly alive).clean i live
        rw [clean] at failed
        cases failed
      unfold minds at mindful
      rw [call] at mindful
      cases mindful
    rcases loop with rfl | rfl <;> exact closed.weaken going
  | @cancelled i call =>
    obtain ⟨written, reset⟩ := frameWriteRst_tidy tidy (old.conn.streams i).id .cancel
    refine (streamDestroy_tidy written fun alive _ _ => .inr ?_).weaken going
    rw [frameWriteRst_streams]
    exact reset alive
  | @resumed i body frameMax sent call =>
    obtain ⟨sent', succeeds⟩ := sendLoop_tidy (body.length - sent) tidy i body
      (small i body frameMax sent call) sent
    exact (afterSend_tidy i body frameMax sent' succeeds).weaken going
  | took =>
    refine ((steady_tidy ..).streamCreditMessage _ _ (set_tidy tidy ?_)).weaken going
    rfl
  | unary _ _ _ idle | streamOpen _ _ idle =>
    unfold starting at start
    rw [idle] at start
    obtain ⟨outcome, c', eq, rfl | ⟨alive, i, c₀, enc, found, rfl⟩⟩ :=
      startRequest_of_none (map_eq_none_iff.mp start)
    · rw [eq] at going ⊢
      exact tidy.weaken going
    obtain ⟨traffic, idle⟩ := allocated_traffic found _
    rw [eq] at going ⊢
    generalize c₀.set i _ = c at traffic going
    -- The slot is given back, and its identifier was never used.
    have allocated : c.traffic.Tidy old.Live old.conn.written l.ended (l.limit.getD 100) := by
      rw [traffic]
      exact ⟨tidy.unopened, fun going => (tidy.orderly going).openSlot idle
        (mindful_of_alive mindful alive).1⟩
    refine (streamDestroy_tidy (c := { c with enc }) allocated
      fun going _ mem => ?_).weaken going
    have mem : (c.traffic.slots i).id ∈ openedSids c.traffic.written := mem
    have slot : (c.traffic.slots i).id = old.conn.nextSid := by
      rw [traffic]
      exact congrArg Outline.id (Traffic.set_slots ..)
    rw [slot, traffic] at mem
    exact absurd ((tidy.orderly going).below _ mem) (Nat.lt_irrefl _)
  | streamNext | missed => exact tidy.weaken going
  | streamClose i => exact (streamClose_tidy tidy i).weaken going
  | close =>
    refine (closeStreams_tidy _ (tidy.weaken False.elim)).weaken fun alive => ?_
    exact alive.2 rfl

end Client

/-! ## Every run -/

theorem openingsOf_nil (limit : Option ℕ) (ended : List ℕ) (before : List Frame)
    {fresh : List Frame} (unopened : ∀ f ∈ fresh, f.type ≠ .headers) :
    openingsOf limit ended before fresh = [] := by
  induction fresh generalizing before with
  | nil => rfl
  | cons f fresh ih =>
    rw [forall_mem_cons] at unopened
    rw [openingsOf, if_neg unopened.1, ih _ unopened.2]
    rfl

/-- What holds of a run. -/
structure Booked (c : Client) (l : Ledger) : Prop where
  tidy : c.conn.traffic.Tidy c.Live c.conn.written l.ended (l.limit.getD 100)
  small : ∀ i body frameMax sent, c.call = .sending i body frameMax sent → frameMax ≤ 0xffffff
  obeys : ∀ o ∈ l.openings, o.Obeys

theorem Booked.step {old new : Client} {l : Ledger} {label : Client.Label} (booked : Booked old l)
    (within : old.conn.allowance.Within) (mindful : minds ⟨old, l⟩ label = true)
    (step : old.step label = some new) : Booked new (l.add old label new) := by
  have small := Client.small_of_step within booked.small step
  cases start : old.starting label with
  | none =>
    have tidy := Client.step_unopened booked.tidy booked.small mindful start step
    obtain ⟨fresh, written, unopened⟩ := tidy.unopened
    have written : new.conn.written = old.conn.written ++ fresh := written
    refine ⟨⟨⟨[], (append_nil _).symm, nofun⟩, tidy.orderly⟩, small, ?_⟩
    show ∀ o ∈ (l.after old.conn label).openings ++ openingsOf _ _ _ _, _
    rw [written, drop_left, openingsOf_nil _ _ _ unopened, append_nil]
    have same : (l.after old.conn label).openings = l.openings := by cases label <;> rfl
    rw [same]
    exact booked.obeys
  | some entry =>
    obtain ⟨req, i, c⟩ := entry
    obtain ⟨idle, type, path, resp, found, started, label'⟩ := Client.starting_some start
    cases step.symm.trans started
    have low : old.conn.dead = false → old.conn.nextSid < 2 ^ 31 ∧
        old.conn.liveSlots < old.conn.srvMaxStreams := by
      rcases label' with rfl | rfl <;> exact Client.mindful_of_alive mindful
    have same : l.after old.conn label = l := by rcases label' with rfl | rfl <;> rfl
    obtain ⟨going, f, headers, sid, opened⟩ := Client.startRequest_opens booked.tidy idle
      within (fun alive => (low alive).1) found
    obtain ⟨low, few⟩ := low going.1
    have tidy := opened.weaken (Client.live_of_step step)
    generalize Client.startRequest old type path req resp = new at *
    have orderly := booked.tidy.orderly going
    obtain ⟨fresh, written, unopened⟩ := tidy.unopened
    have written : new.conn.written = old.conn.written ++ ([f] ++ fresh) :=
      written.trans (append_assoc ..)
    have ledger : l.add old label new = { l with openings := l.openings ++
        [⟨f.sid, openedSids old.conn.written, (openSids l.ended (old.conn.written ++ [f])).length,
          l.limit⟩] } := by
      unfold Ledger.add
      rw [same, written, drop_left]
      show Ledger.mk _ _ (l.openings ++ openingsOf _ _ _ (f :: fresh)) = _
      rw [openingsOf, if_pos headers, openingsOf_nil _ _ _ unopened]
      rfl
    refine ⟨⟨⟨[], (append_nil _).symm, nofun⟩, ?_⟩, small, ?_⟩
    · rw [ledger]
      exact tidy.orderly
    rw [ledger, forall_mem_append, forall_mem_singleton]
    refine ⟨booked.obeys, ?_, ?_, ?_, ?_⟩
    · rw [sid]
      exact orderly.odd
    · rw [sid]
      exact orderly.below
    · rw [sid]
      exact low
    intro limit known
    have known : l.limit = some limit := known
    have allowed : old.conn.srvMaxStreams = limit := by
      have := orderly.limit
      rwa [known] at this
    calc (openSids l.ended (old.conn.written ++ [f])).length
        ≤ (openSids l.ended old.conn.written).length + 1 := by
          have opened : openedSids (old.conn.written ++ [f]) =
            openedSids old.conn.written ++ [f.sid] := by simp [openedSids, headers]
          have reset : resetSids (old.conn.written ++ [f]) = resetSids old.conn.written := by
            simp [resetSids, headers]
          unfold openSids
          rw [opened, reset, filter_append, length_append]
          exact Nat.add_le_add_left (length_filter_le ..) _
      _ ≤ old.conn.liveSlots + 1 := by
          -- The streams that are open have a live slot each.
          have distinct : (openSids l.ended old.conn.written).Nodup :=
            (orderly.increasing.imp fun less => Nat.ne_of_lt less).filter _
          have slots : openSids l.ended old.conn.written ⊆
              ((List.finRange 8).filter fun i => (old.conn.streams i).live).map
                fun i => (old.conn.streams i).id := by
            intro sid mem
            obtain ⟨opened, open'⟩ := mem_filter.mp mem
            obtain ⟨unended, unreset⟩ := of_decide_eq_true open'
            rcases orderly.accounted sid opened with past | reset | ⟨i, live, held⟩
            · exact (unended past).elim
            · exact (unreset reset).elim
            · exact mem_map.mpr ⟨i, mem_filter.mpr ⟨mem_finRange i, live⟩, held⟩
          have bound := (subperm_of_subset distinct slots).length_le
          rw [length_map] at bound
          exact Nat.add_le_add_right bound 1
      _ ≤ old.conn.srvMaxStreams := few
      _ = limit := allowed

theorem Booked.connecting (ns : Octets) : Booked (.connecting ns) ⟨none, [], []⟩ := by
  refine ⟨⟨⟨[], (append_nil _).symm, nofun⟩, fun _ => ?_⟩, nofun, nofun⟩
  exact ⟨rfl, rfl, rfl, nofun, .nil, fun i => nofun, nofun⟩

/-- **Streams are opened as HTTP/2 asks** in every run in which requests start while the counter is
low and fewer slots are live than the server allows, writes do not fail, no wait for credit times
out, and the server ends a stream with the status it sends for it. -/
theorem openings_obey {r : Machine.Recorded Client Ledger}
    (reachable : openingMindfully.Reachable r) : ∀ o ∈ r.record.openings, o.Obeys := by
  have booked : Booked r.state r.record := by
    refine reachable.recording_induct ?_ fun old l label new before mindful step booked => ?_
    · rintro _ ⟨ns, rfl⟩
      exact .connecting ns
    · exact booked.step (Client.within_of_reachable before) mindful step
  exact booked.obeys

/-! ## A limit of one stream -/

/-- A subscription is open when a unary call starts, with the limit that the server has set. -/
def subscribeAndCall (limit : UInt8) : List Client.Label :=
  [.frame ⟨.settings, 0, 0, [0, 3, 0, 0, 0, limit]⟩, .check, .streamOpen (ascii "/v/A") [], .expire,
    .unary (ascii "/v/A") [] none]

/-- Two streams are not too many for a limit of two. -/
theorem openings_obey_subscribeAndCall :
    ∃ r, openingMindfully.Reachable r ∧ r.record.openings.length = 2 ∧
      ∀ o ∈ r.record.openings, o.Obeys := by
  have run : (openingMindfully.exec ⟨.connecting (ascii "k8s"), ⟨none, [], []⟩⟩
      (subscribeAndCall 2)).any (fun r => decide (r.record.openings.length = 2)) = true := by
    decide +kernel
  obtain ⟨r, reachable, length⟩ := Machine.Reachable.of_any run ⟨⟨_, rfl⟩, rfl⟩
  exact ⟨r, reachable, of_decide_eq_true length, openings_obey reachable⟩

/-- **The limit is not looked at**: with a limit of one, the unary call opens a second stream. -/
theorem second_stream_opened :
    ∃ r, opening.Reachable r ∧
      ∃ o ∈ r.record.openings, o.limit = some 1 ∧ o.active = 2 ∧ ¬ o.Obeys := by
  have run : (opening.exec ⟨.connecting (ascii "k8s"), ⟨none, [], []⟩⟩ (subscribeAndCall 1)).any
      (fun r => r.record.openings.any fun o => decide (o.limit = some 1 ∧ o.active = 2)) =
        true := by
    decide +kernel
  obtain ⟨r, reachable, facts⟩ := Machine.Reachable.of_any run ⟨⟨_, rfl⟩, rfl⟩
  obtain ⟨o, member, facts⟩ := any_eq_true.mp facts
  obtain ⟨limit, active⟩ := of_decide_eq_true facts
  refine ⟨r, reachable, o, member, limit, active, fun obeys => ?_⟩
  have few := obeys.few 1 limit
  omega

end Strimserver.H2c
