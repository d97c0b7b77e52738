import Strimserver.H2c.SendWindows

/-!
# Frames between the parts of a header block

Between HEADERS without END_HEADERS and the end of the block, HTTP/2 allows nothing but
CONTINUATION frames of the same stream. The code looks at the pending block in two of its
handlers only, and never at the stream of a CONTINUATION. So a foreign frame is accepted
unless it is refused for its own sake.

**Main result** (`header_block_contiguous_iff`): the frames that are accepted are the
CONTINUATION frames of the block's own stream that fit, just if the first foreign frame
is one that the code refuses for its own sake.
-/

namespace Strimserver.H2c

open Hpack Library List

def Frame.Continues (f : Frame) (sid : ℕ) : Prop := f.type = .continuation ∧ f.sid = sid

instance (f : Frame) (sid : ℕ) : Decidable (f.Continues sid) := inferInstanceAs (Decidable (_ ∧ _))

/-- How many octets frames carry. -/
def payloadLength (fs : List Frame) : ℕ := (fs.map fun f => f.payload.length).sum

namespace Conn

/-- A block is collected as it should be: frames are accepted just if they continue it
and fit, and any other frame is an error. -/
structure Contiguous (c : Conn) (sid : ℕ) (fs : List Frame) : Prop where
  accepted : (c.processFrames fs).2 = true ↔
    (∀ f ∈ fs, f.Continues sid) ∧ c.hdrBlock.length + payloadLength fs ≤ hdrBlockMax
  foreign : ∀ pre f post, fs = pre ++ f :: post → (c.processFrames pre).2 = true →
    ¬ f.Continues sid → ((c.processFrames pre).1.processOneFrame f).2 = false

/-! ## Frames that are refused for their own sake -/

/-- A SETTINGS payload has a largest frame size that HTTP/2 does not allow. -/
def badFrameSize : Octets → Bool
  | a :: b :: w :: x :: y :: z :: rest =>
    (a.toNat <<< 8 ||| b.toNat) == 5 &&
        (decide (readBe32 w x y z < 16384) || decide (16777215 < readBe32 w x y z)) ||
      badFrameSize rest
  | _ => false

/-- A DATA frame cannot be taken: there is no stream for it, the stream has ended, the
frame exceeds a window, or its padding is wrong. -/
def refusesData (c : Conn) (f : Frame) : Bool :=
  match c.streamFind f.sid with
  | none => true
  | some i =>
    if (c.streams i).state = .done then (c.streams i).err.isNone
    else
      decide (c.connRecvWindow < f.payload.length) ||
        decide ((c.streams i).recvWindow < f.payload.length) ||
        (unpad f.flags f.payload).isNone

/-- While a block is pending, a frame that does not continue it is refused for its own
sake: its type, its length, its content or the state of its stream. -/
def refuses (c : Conn) (f : Frame) : Bool :=
  match f.type with
  | .headers => true
  | .pushPromise => true
  | .unknown _ => true
  | .priority => f.payload.length != 5
  | .rstStream => f.payload.length != 4
  | .goaway => decide (f.payload.length < 8)
  | .windowUpdate =>
    match f.payload with
    | [w, x, y, z] => readBe32 w x y z == 0
    | _ => true
  | .ping => f.payload.length != 8 || !has f.flags flagAck && decide (c.writable = some 0)
  | .settings =>
    f.sid != 0 ||
      if has f.flags flagAck then !f.payload.isEmpty
      else f.payload.length % 6 != 0 || badFrameSize f.payload || decide (c.writable = some 0)
  | .data => c.refusesData f
  | .continuation =>
    decide (hdrBlockMax < c.hdrBlock.length + f.payload.length) ||
      has f.flags flagEndHeaders &&
        !(c.handleHeaderBlock c.hdrBlockSid (c.hdrBlock ++ f.payload) c.hdrBlockFlags).2

/-- The first frame that does not continue the block, if it comes before the block is too
long, is refused for its own sake. -/
def ForeignRefused (c : Conn) (sid : ℕ) : List Frame → Prop
  | [] => True
  | f :: fs =>
    if f.Continues sid then
      c.hdrBlock.length + f.payload.length ≤ hdrBlockMax →
        ForeignRefused { c with hdrBlock := c.hdrBlock ++ f.payload } sid fs
    else c.refuses f = true

/-! ### The handlers -/

variable (c : Conn)

/-- A handler that begins with a test fails with it, or as it does behind it. -/
theorem refused_or {p : Prop} [Decidable p] {test bad : Bool} {r : Conn × Bool}
    (tested : test = true ↔ p) (rest : ¬ p → r.2 = !bad) :
    (if p then (c, false) else r).2 = !(test || bad) := by
  split_ifs with failed
  · rw [tested.mpr failed]
    rfl
  · rw [Bool.eq_false_iff.mpr (mt tested.mp failed)]
    exact rest failed

theorem applySetting_succeeds (id val : ℕ) : (c.applySetting id val).2 =
      !(id == 5 && (decide (val < 16384) || decide (16777215 < val))) := by
  unfold applySetting
  split
  · rfl
  · rfl
  · rw [shiftWindows_eq _ _ (nodup_finRange 8)]
    rfl
  · split
    · rename_i bad
      rcases bad with low | high
      · simp [low]
      · simp [high]
    rename_i fine
    obtain ⟨low, high⟩ := not_or.mp fine
    simp [low, high]
  · rename_i other
    rw [show (id == 5) = false from beq_eq_false_iff_ne.mpr other]
    rfl

variable (p : Octets)

theorem applySettings_succeeds (c : Conn) : (applySettings p c).2 = !badFrameSize p := by
  fun_induction applySettings p c with
  | case1 a b w x y z rest c c' failed =>
    have succeeds := applySetting_succeeds c (a.toNat <<< 8 ||| b.toNat) (readBe32 w x y z)
    rw [failed] at succeeds
    rw [badFrameSize, Bool.not_or, ← succeeds]
    rfl
  | case2 a b w x y z rest c c' applied ih =>
    have succeeds := applySetting_succeeds c (a.toNat <<< 8 ||| b.toNat) (readBe32 w x y z)
    rw [applied] at succeeds
    rw [badFrameSize, Bool.not_or, ← succeeds, ih]
    rfl
  | case3 p c other =>
    unfold badFrameSize
    split
    · rename_i a b w x y z rest
      exact absurd rfl (other a b w x y z rest)
    · rfl

theorem applySetting_writable (id val : ℕ) : (c.applySetting id val).1.writable = c.writable := by
  unfold applySetting
  split
  · rfl
  · rfl
  · rw [shiftWindows_eq _ _ (nodup_finRange 8)]
  · split <;> rfl
  · rfl

theorem applySettings_writable (c : Conn) : (applySettings p c).1.writable = c.writable := by
  fun_induction applySettings p c with
  | case1 a b w x y z rest c c' failed =>
    exact (congrArg (fun r => r.1.writable) failed).symm.trans (applySetting_writable ..)
  | case2 a b w x y z rest c c' applied ih =>
    exact ih.trans ((congrArg (fun r => r.1.writable) applied).symm.trans
      (applySetting_writable ..))
  | case3 => rfl

theorem handleSettings_succeeds : (c.handleSettings p).2 =
      !(p.length % 6 != 0 || badFrameSize p || decide (c.writable = some 0)) := by
  have succeeds := applySettings_succeeds p c
  have writable := applySettings_writable p c
  rw [Bool.or_assoc]
  refine refused_or c bne_iff_ne fun _ => ?_
  split
  · rename_i failed
    rw [failed] at succeeds
    rw [Bool.not_or, ← succeeds]
    rfl
  rename_i c' applied
  rw [applied] at succeeds writable
  have ack := frameWrite_short c' (f := ⟨.settings, flagAck, 0, []⟩) (Nat.zero_le _)
  rw [show c'.writable = c.writable from writable] at ack
  rw [Bool.not_or, ← succeeds, Bool.true_and, ← ack]
  split
  · rename_i full
    rw [full]
  · rename_i written
    rw [written]

theorem handlePing_succeeds (flags : UInt8) (payload : Octets) : (c.handlePing flags payload).2 =
      !(payload.length != 8 || !has flags flagAck && decide (c.writable = some 0)) := by
  refine refused_or c bne_iff_ne fun eight => ?_
  have length : payload.length = 8 := not_not.mp eight
  split_ifs with ack
  · rw [ack]
    rfl
  rw [show has flags flagAck = false from Bool.eq_false_iff.mpr ack]
  exact frameWrite_short c (by rw [length]; decide)

theorem handleWindowUpdate_succeeds (sid : ℕ) (w x y z : UInt8) :
    (c.handleWindowUpdate sid [w, x, y, z]).2 = !(readBe32 w x y z == 0) := by
  by_cases zero : readBe32 w x y z = 0
  · rw [handleWindowUpdate_zero c sid zero, zero]
    rfl
  rw [show (readBe32 w x y z == 0) = false from beq_eq_false_iff_ne.mpr zero]
  by_cases stream : sid = 0
  · subst stream
    rw [handleWindowUpdate_conn c zero]
    rfl
  cases found : c.streamFind sid with
  | none =>
    rw [handleWindowUpdate_lost stream found zero]
    rfl
  | some =>
    rw [handleWindowUpdate_stream stream found zero]
    rfl

theorem handleDataFrame_succeeds (f : Frame) :
    (c.handleDataFrame f.flags f.sid f.payload).2 = !c.refusesData f := by
  unfold handleDataFrame refusesData
  cases c.streamFind f.sid with
  | none => rfl
  | some i =>
    dsimp only
    by_cases done : (c.streams i).state = .done
    · rw [if_pos done, if_pos done]
      exact (Option.not_isNone _).symm
    rw [if_neg done, if_neg done]
    refine refused_or c (by simp) fun _ => ?_
    cases unpad f.flags f.payload with
    | none => rfl
    | some =>
      dsimp only
      split <;> rfl

theorem handleRstStream_succeeds (sid : ℕ) (payload : Octets) :
    (c.handleRstStream sid payload).2 = !(payload.length != 4) := by
  rw [← Bool.or_false (payload.length != 4)]
  refine refused_or c bne_iff_ne fun _ => ?_
  split
  · rfl
  · dsimp only
    split <;> rfl

theorem handleGoaway_succeeds (payload : Octets) :
    (c.handleGoaway payload).2 = !decide (payload.length < 8) := by
  rw [← Bool.or_false (decide _)]
  exact refused_or c decide_eq_true_iff fun _ => rfl

/-- **While a block is pending**, what is refused for its own sake is what is refused. -/
theorem processOneFrame_succeeds {c : Conn} (pending : c.hdrBlockPending = true) (f : Frame) :
    (c.processOneFrame f).2 = !c.refuses f := by
  unfold processOneFrame refuses
  cases f.type with
  | settings =>
    refine refused_or c bne_iff_ne fun _ => ?_
    split
    · exact (Bool.not_not _).symm
    · exact handleSettings_succeeds ..
  | ping => exact handlePing_succeeds ..
  | windowUpdate =>
    dsimp only
    split
    · rename_i w x y z payload
      rw [payload]
      exact handleWindowUpdate_succeeds ..
    rename_i other
    unfold handleWindowUpdate
    split
    · rename_i w x y z payload
      exact absurd payload (other w x y z)
    · rfl
  | data => exact handleDataFrame_succeeds ..
  | headers =>
    show (c.handleHeadersFrame f.flags f.sid f.payload).2 = false
    unfold handleHeadersFrame
    rw [if_pos pending]
  | continuation =>
    let g : Frame := ⟨.continuation, f.flags, 0, f.payload⟩
    show (c.processOneFrame g).2 = !(decide _ || _ && !_)
    by_cases long : hdrBlockMax < c.hdrBlock.length + f.payload.length
    · rw [processOneFrame_long (f := g) pending rfl long, decide_eq_true long]
      rfl
    have fits := Nat.not_lt.mp long
    rw [decide_eq_false long, Bool.false_or]
    cases ends : has f.flags flagEndHeaders with
    | true => rw [processOneFrame_last (f := g) pending rfl ends fits, Bool.true_and, Bool.not_not]
    | false =>
      rw [processOneFrame_continues (f := g) pending rfl ends fits]
      rfl
  | rstStream => exact handleRstStream_succeeds ..
  | goaway => exact handleGoaway_succeeds ..
  | priority => exact (Bool.not_not _).symm
  | pushPromise => rfl
  | unknown => rfl

/-! ## Frames in turn -/

variable {f : Frame}

theorem processFrames_of_refused {c : Conn} (refused : (c.processOneFrame f).2 = false)
    (fs : List Frame) : (c.processFrames (f :: fs)).2 = false := by
  rw [processFrames]
  split
  · rename_i accepted
    rw [accepted] at refused
    cases refused
  · rfl

/-- Frames of which the first is refused, where the law demands that. -/
theorem contiguous_of_refused {c : Conn} {sid : ℕ} {fs : List Frame}
    (refused : (c.processOneFrame f).2 = false)
    (demanded : f.Continues sid → hdrBlockMax < c.hdrBlock.length + f.payload.length) :
    c.Contiguous sid (f :: fs) where
  accepted := by
    rw [processFrames_of_refused refused]
    refine iff_of_false (by decide) fun ⟨continues, fits⟩ => ?_
    have long := demanded (continues f mem_cons_self)
    rw [payloadLength, map_cons, sum_cons] at fits
    omega
  foreign := by
    intro pre g post split accepted other
    rcases pre with _ | ⟨first, pre⟩
    · obtain ⟨rfl, -⟩ := List.cons.inj split
      exact refused
    obtain ⟨rfl, -⟩ := List.cons.inj split
    rw [processFrames_of_refused refused] at accepted
    cases accepted

/-- Frames of which the first continues the block and fits. -/
theorem contiguous_of_continues {c : Conn} {sid : ℕ} {fs : List Frame} (continues : f.Continues sid)
    (accepted : c.processOneFrame f = ({ c with hdrBlock := c.hdrBlock ++ f.payload }, true)) :
    c.Contiguous sid (f :: fs) ↔
      Contiguous { c with hdrBlock := c.hdrBlock ++ f.payload } sid fs := by
  have behind (fs : List Frame) : c.processFrames (f :: fs) =
      processFrames { c with hdrBlock := c.hdrBlock ++ f.payload } fs := by
    rw [processFrames, accepted]
  have length : c.hdrBlock.length + payloadLength (f :: fs) =
      (c.hdrBlock ++ f.payload).length + payloadLength fs := by
    rw [payloadLength, map_cons, sum_cons, length_append, payloadLength]
    omega
  constructor
  · rintro ⟨all, foreign⟩
    refine ⟨?_, ?_⟩
    · rwa [behind, forall_mem_cons, and_iff_right continues, length] at all
    intro pre g post split
    have here := foreign (f :: pre) g post (by rw [split]; rfl)
    rwa [behind] at here
  rintro ⟨all, foreign⟩
  refine ⟨?_, ?_⟩
  · rwa [behind, forall_mem_cons, and_iff_right continues, length]
  intro pre g post split done other
  rcases pre with _ | ⟨first, pre⟩
  · obtain ⟨rfl, -⟩ := List.cons.inj split
    exact absurd continues other
  obtain ⟨rfl, rfl⟩ := List.cons.inj split
  rw [behind] at done ⊢
  exact foreign pre g post rfl done other

/-- **A block that is collected**: the law holds just if the first foreign frame is refused
for its own sake. -/
theorem contiguous_iff {c : Conn} (fs : List Frame) (pending : c.hdrBlockPending = true)
    (short : c.hdrBlock.length ≤ hdrBlockMax)
    (between : ∀ f ∈ fs, f.Continues c.hdrBlockSid → has f.flags flagEndHeaders = false) :
    c.Contiguous c.hdrBlockSid fs ↔ c.ForeignRefused c.hdrBlockSid fs := by
  induction fs generalizing c with
  | nil =>
    refine iff_of_true ⟨iff_of_true rfl ⟨nofun, short⟩, ?_⟩ trivial
    intro pre f post split
    exact absurd split (by simp)
  | cons f fs ih =>
    obtain ⟨first, rest⟩ := forall_mem_cons.mp between
    unfold ForeignRefused
    split
    · rename_i continues
      by_cases fits : c.hdrBlock.length + f.payload.length ≤ hdrBlockMax
      · have accepted := processOneFrame_continues pending continues.1 (first continues) fits
        rw [contiguous_of_continues continues accepted]
        have short' : (c.hdrBlock ++ f.payload).length ≤ hdrBlockMax := by rwa [length_append]
        exact (ih (c := { c with hdrBlock := c.hdrBlock ++ f.payload }) pending short' rest).trans
          ⟨fun refused _ => refused, fun refused => refused fits⟩
      refine iff_of_true (contiguous_of_refused ?_ fun _ => Nat.not_le.mp fits) fun fit => ?_
      · rw [processOneFrame_succeeds pending]
        unfold refuses
        rw [continues.1]
        rw [decide_eq_true (Nat.not_le.mp fits)]
        rfl
      · exact absurd fit fits
    rename_i foreign
    have succeeds := processOneFrame_succeeds pending f
    constructor
    · intro law
      have refused := law.foreign [] f fs rfl rfl foreign
      change (c.processOneFrame f).2 = false at refused
      rw [succeeds] at refused
      simpa using refused
    intro refused
    refine contiguous_of_refused ?_ fun continues => absurd continues foreign
    rw [succeeds, refused]
    rfl

end Conn

/-- **Header blocks are contiguous** just if the first foreign frame behind HEADERS is refused for
its own sake. The frame that ends a block is accepted if it fits and the block can be decoded, and
CONTINUATION without a pending block is refused. -/
theorem header_block_contiguous_iff {c : Conn} {h : Frame} (fs : List Frame)
    (quiet : c.hdrBlockPending = false) (type : h.type = .headers)
    (more : has h.flags flagEndHeaders = false) (short : h.payload.length ≤ hdrBlockMax)
    (between : ∀ f ∈ fs, f.Continues h.sid → has f.flags flagEndHeaders = false) :
    ((c.processOneFrame h).1.Contiguous h.sid fs ↔
        (c.processOneFrame h).1.ForeignRefused h.sid fs) ∧
      (∀ (d : Conn) (f : Frame), d.hdrBlockPending = true → f.type = .continuation →
        has f.flags flagEndHeaders = true →
        ((d.processOneFrame f).2 = true ↔
          d.hdrBlock.length + f.payload.length ≤ hdrBlockMax ∧
            (d.handleHeaderBlock d.hdrBlockSid (d.hdrBlock ++ f.payload) d.hdrBlockFlags).2 =
              true)) ∧
      ∀ (d : Conn) (f : Frame), d.hdrBlockPending = false → f.type = .continuation →
        (d.processOneFrame f).2 = false := by
  refine ⟨?_, fun d f pending type ends => ?_, fun d f quiet type => ?_⟩
  · rw [Conn.processOneFrame_opens quiet type more, if_neg (Nat.not_lt.mpr short)]
    exact Conn.contiguous_iff (c := c.collecting h.payload h.sid h.flags true) fs rfl short between
  · rw [Conn.processOneFrame_succeeds pending]
    unfold Conn.refuses
    rw [type]
    dsimp only
    rw [ends]
    simp
  unfold Conn.processOneFrame Conn.handleContinuationFrame
  rw [type]
  dsimp only
  rw [if_pos (by rw [quiet]; decide)]

/-- HEADERS on the first stream that do not end their block. -/
def openHeaders : Frame := ⟨.headers, 0, 1, [0x88]⟩

theorem header_block_contiguous_fresh :
    (((Conn.fresh []).processOneFrame openHeaders).1.Contiguous 1
      [⟨.continuation, 0, 1, [0x88]⟩, ⟨.headers, flagEndHeaders, 3, [0x88]⟩]) := by
  refine (header_block_contiguous_iff (c := Conn.fresh []) (h := openHeaders)
    [⟨.continuation, 0, 1, [0x88]⟩, ⟨.headers, flagEndHeaders, 3, [0x88]⟩] rfl rfl rfl (by decide)
    (by decide)).1.mpr ?_
  exact fun _ => rfl

/-- A unary call whose response headers have begun. -/
def openBlock : List Client.Label :=
  [.frame ⟨.settings, 0, 0, []⟩, .check, .unary (ascii "/v/A") [] none, .frame openHeaders]

/-- **Foreign frames are accepted** in the middle of a header block: PING, and CONTINUATION
of another stream. -/
theorem foreign_frames_accepted :
    ∃ c, clients.Reachable c ∧ c.conn.hdrBlockPending = true ∧ c.conn.hdrBlockSid = 1 ∧
      (c.conn.processOneFrame ⟨.ping, 0, 0, [0, 0, 0, 0, 0, 0, 0, 0]⟩).2 = true ∧
      (c.conn.processOneFrame ⟨.continuation, 0, 3, [0x88]⟩).2 = true ∧
      ¬ c.conn.Contiguous 1 [⟨.continuation, 0, 3, [0x88]⟩] := by
  have run : ((clients.exec (.connecting (ascii "k8s")) openBlock).any fun c =>
      decide (c.conn.hdrBlockPending = true ∧ c.conn.hdrBlockSid = 1 ∧
        (c.conn.processOneFrame ⟨.ping, 0, 0, [0, 0, 0, 0, 0, 0, 0, 0]⟩).2 = true ∧
        (c.conn.processOneFrame ⟨.continuation, 0, 3, [0x88]⟩).2 = true)) = true := by
    decide +kernel
  obtain ⟨c, reachable, facts⟩ := Machine.Reachable.of_any run ⟨_, rfl⟩
  obtain ⟨pending, sid, ping, foreign⟩ := of_decide_eq_true facts
  refine ⟨c, reachable, pending, sid, ping, foreign, fun law => ?_⟩
  have refused := law.foreign [] _ [] rfl rfl (by decide)
  exact absurd (foreign.symm.trans refused) (by decide)

end Strimserver.H2c
