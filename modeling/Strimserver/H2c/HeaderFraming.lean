import Strimserver.H2c.Frames

/-!
# The framing of header blocks

A header block can be sent in many ways: in one HEADERS frame or continued in
CONTINUATION frames, with a priority in front of it, and with padding behind the
first fragment whose length stands in front of all. `HeaderFraming` is such a way,
and its frames are those of RFC 7540, section 6.2.

`headers_block_offset` skips the length of the padding at the front, where the
block is, and leaves the padding at the end. So the decoder gets the fragment and
its padding without the first octets of them, as many as there is padding. The
main theorem says exactly when this is the block after all.
-/

namespace Strimserver.H2c

open Hpack List Option

/-! ## A way to send a header block -/

/-- A header block in fragments, with what HEADERS can carry besides. -/
structure HeaderFraming where
  sid : ℕ
  endStream : Bool
  padding : Option { octets : Octets // octets.length < 256 }
  priority : Option { octets : Octets // octets.length = 5 }
  first : Octets
  rest : List Octets

namespace HeaderFraming

def block (h : HeaderFraming) : Octets := h.first ++ h.rest.flatten

def pad (h : HeaderFraming) : Octets := h.padding.elim [] (·.1)

/-- What stands in front of the priority: the length of the padding. -/
def padLength (h : HeaderFraming) : Octets := h.padding.elim [] fun p => [UInt8.ofNat p.1.length]

def prio (h : HeaderFraming) : Octets := h.priority.elim [] (·.1)

def payload (h : HeaderFraming) : Octets := h.padLength ++ (h.prio ++ (h.first ++ h.pad))

def flagIf (set : Bool) (flag : UInt8) : UInt8 := if set then flag else 0

def flags (h : HeaderFraming) : UInt8 :=
  flagIf h.endStream flagEndStream ||| flagIf h.rest.isEmpty flagEndHeaders |||
    flagIf h.padding.isSome flagPadded ||| flagIf h.priority.isSome flagPriority

def continuations (sid : ℕ) : List Octets → List Frame
  | [] => []
  | fragment :: rest =>
    ⟨.continuation, flagIf rest.isEmpty flagEndHeaders, sid, fragment⟩ :: continuations sid rest

def frames (h : HeaderFraming) : List Frame :=
  ⟨.headers, h.flags, h.sid, h.payload⟩ :: continuations h.sid h.rest

/-- The same header block in one HEADERS frame without anything else. -/
def plain (h : HeaderFraming) : HeaderFraming :=
  { h with padding := none, priority := none, first := h.block, rest := [] }

end HeaderFraming

/-! ## Processing frames in turn -/

namespace Conn

/-- Frames are processed until one of them is an error. -/
def processFrames (c : Conn) : List Frame → Conn × Bool
  | [] => (c, true)
  | f :: fs =>
    match c.processOneFrame f with
    | (c, true) => c.processFrames fs
    | (c, false) => (c, false)

/-- The octets that `handle_header_block` passes to the decoder. -/
def blockInput (block : Octets) (flags : UInt8) : Option Octets :=
  (headersBlockOffset block flags).map block.drop

/-- The octets that the decoder gets when a frame is processed. -/
def decoderInput (c : Conn) (f : Frame) : Option Octets :=
  match f.type with
  | .headers =>
    if !c.hdrBlockPending && has f.flags flagEndHeaders then blockInput f.payload f.flags
    else none
  | .continuation =>
    if c.hdrBlockPending && decide (c.hdrBlock.length + f.payload.length ≤ hdrBlockMax) &&
        has f.flags flagEndHeaders then
      blockInput (c.hdrBlock ++ f.payload) c.hdrBlockFlags
    else none
  | _ => none

/-- All that the decoder gets when frames are processed. -/
def decoderInputs (c : Conn) : List Frame → List Octets
  | [] => []
  | f :: fs =>
    (c.decoderInput f).toList ++
      match c.processOneFrame f with
      | (c, true) => c.decoderInputs fs
      | (_, false) => []

/-- A connection without the buffer of the block that is collected. Nothing reads it
unless a block is pending. -/
def forgetBlock (c : Conn) : Conn := { c with hdrBlock := [], hdrBlockSid := 0, hdrBlockFlags := 0 }

/-- Two ways to process frames have the same effect. -/
def SameEffect (a b : Conn × Bool) : Prop := a.1.forgetBlock = b.1.forgetBlock ∧ a.2 = b.2

/-- The frames of a header block are transparent: the decoder gets the block, and
the effect is that of one plain frame. -/
def Transparent (c : Conn) (h : HeaderFraming) : Prop :=
  c.decoderInputs h.frames = [h.block] ∧
    SameEffect (c.processFrames h.frames) (c.processFrames h.plain.frames)

end Conn

/-! ## The block behind the offset -/

namespace Conn

/-- A block acts only through the octets that the decoder gets. -/
theorem handleHeaderBlock_of_input {c : Conn} {sid : ℕ} {block block' : Octets}
    {flags flags' : UInt8} (same : blockInput block flags = blockInput block' flags') :
    c.handleHeaderBlock sid block flags = c.handleHeaderBlock sid block' flags' := by
  unfold blockInput at same
  unfold handleHeaderBlock
  rcases off : headersBlockOffset block flags with _ | n <;>
    rcases off' : headersBlockOffset block' flags' with _ | n' <;>
    rw [off, off'] at same
  · cases same
  · cases same
  have octets : block.drop n = block'.drop n' := Option.some.inj same
  dsimp only
  rw [octets]

/-- A connection with other values for the block that is collected. -/
def collecting (c : Conn) (block : Octets) (sid : ℕ) (flags : UInt8) (pending : Bool) : Conn :=
  { c with
    hdrBlock := block, hdrBlockSid := sid, hdrBlockFlags := flags, hdrBlockPending := pending }

/-- Handling a block does not look at what is collected. -/
theorem handleHeaderBlock_collecting (c : Conn) (buffer : Octets) (n : ℕ) (old : UInt8)
    (pending : Bool) (sid : ℕ) (block : Octets) (flags : UInt8) :
    (c.collecting buffer n old pending).handleHeaderBlock sid block flags =
      ((c.handleHeaderBlock sid block flags).1.collecting buffer n old pending,
        (c.handleHeaderBlock sid block flags).2) := by
  unfold handleHeaderBlock
  rcases headersBlockOffset block flags with _ | off
  · rfl
  dsimp only
  rw [show (c.collecting buffer n old pending).dynDec = c.dynDec from rfl]
  rcases hpackDecodeBlock c.dynDec (block.drop off) maxFields with _ | ⟨d, fields⟩
  · rfl
  dsimp only
  rw [show Conn.streamFind { c.collecting buffer n old pending with dynDec := d } sid =
    Conn.streamFind { c with dynDec := d } sid from rfl]
  rcases Conn.streamFind { c with dynDec := d } sid with _ | i
  · rfl
  dsimp only
  rw [show (c.collecting buffer n old pending).streams i = c.streams i from rfl]
  split
  · rfl
  split
  · rfl
  split
  · rfl
  · split <;> rfl

/-! ## Continuations -/

theorem processFrames_singleton (c : Conn) (f : Frame) :
    c.processFrames [f] = c.processOneFrame f := by
  rw [processFrames]
  rcases c.processOneFrame f with ⟨c', _ | _⟩ <;> rfl

theorem decoderInputs_singleton (c : Conn) (f : Frame) :
    c.decoderInputs [f] = (c.decoderInput f).toList := by
  rw [decoderInputs]
  rcases c.processOneFrame f with ⟨c', _ | _⟩ <;> exact append_nil _

variable {fragment : Octets} {c : Conn}

section

variable {f : Frame} (pending : c.hdrBlockPending = true)

include pending

/-- The last continuation hands the collected block on. -/
theorem processOneFrame_last (type : f.type = .continuation)
    (ends : has f.flags flagEndHeaders = true)
    (fits : c.hdrBlock.length + f.payload.length ≤ hdrBlockMax) :
    c.processOneFrame f =
      let done := c.handleHeaderBlock c.hdrBlockSid (c.hdrBlock ++ f.payload) c.hdrBlockFlags
      (done.1.collecting (c.hdrBlock ++ f.payload) c.hdrBlockSid c.hdrBlockFlags false,
        done.2) := by
  have collected : Conn.handleHeaderBlock { c with hdrBlock := c.hdrBlock ++ f.payload }
      c.hdrBlockSid (c.hdrBlock ++ f.payload) c.hdrBlockFlags = _ :=
    handleHeaderBlock_collecting c (c.hdrBlock ++ f.payload) c.hdrBlockSid c.hdrBlockFlags
      c.hdrBlockPending c.hdrBlockSid (c.hdrBlock ++ f.payload) c.hdrBlockFlags
  unfold processOneFrame handleContinuationFrame
  rw [type]
  dsimp only
  rw [if_neg (by rw [pending]; decide), if_neg (Nat.not_lt.mpr fits), if_pos ends, collected]
  rfl

/-- A continuation that does not end the block is appended, if it fits. -/
theorem processOneFrame_continues (type : f.type = .continuation)
    (more : has f.flags flagEndHeaders = false)
    (fits : c.hdrBlock.length + f.payload.length ≤ hdrBlockMax) :
    c.processOneFrame f = ({ c with hdrBlock := c.hdrBlock ++ f.payload }, true) := by
  unfold processOneFrame handleContinuationFrame
  rw [type]
  dsimp only
  rw [if_neg (by rw [pending]; decide), if_neg (Nat.not_lt.mpr fits), if_neg (by rw [more]; decide)]

/-- A continuation that does not fit is an error. -/
theorem processOneFrame_long (type : f.type = .continuation)
    (long : hdrBlockMax < c.hdrBlock.length + f.payload.length) :
    c.processOneFrame f = (c, false) := by
  unfold processOneFrame handleContinuationFrame
  rw [type]
  dsimp only
  rw [if_neg (by rw [pending]; decide), if_pos long]

end

theorem unflagged : has 0 flagEndHeaders = false := rfl

theorem decoderInput_append (c : Conn) (sid : ℕ) (fragment : Octets) :
    c.decoderInput ⟨.continuation, 0, sid, fragment⟩ = none := by
  unfold decoderInput
  dsimp only
  rw [unflagged, Bool.and_false]
  rfl

open HeaderFraming in
/-- **Continuations that fit**: the collected block is handed on as a whole. -/
theorem continuations_fit (fragment : Octets) (rest : List Octets)
    (pending : c.hdrBlockPending = true) (sid : ℕ)
    (fits : c.hdrBlock.length + (fragment :: rest).flatten.length ≤ hdrBlockMax) :
    let block := c.hdrBlock ++ (fragment :: rest).flatten
    let done := c.handleHeaderBlock c.hdrBlockSid block c.hdrBlockFlags
    c.processFrames (continuations sid (fragment :: rest)) =
        (done.1.collecting block c.hdrBlockSid c.hdrBlockFlags false, done.2) ∧
      c.decoderInputs (continuations sid (fragment :: rest)) =
        (blockInput block c.hdrBlockFlags).toList := by
  induction rest generalizing c fragment with
  | nil =>
    rw [flatten_cons, flatten_nil, append_nil] at fits ⊢
    refine ⟨?_, ?_⟩
    · have ends : has flagEndHeaders flagEndHeaders = true := by decide
      exact (processFrames_singleton ..).trans (processOneFrame_last pending rfl ends fits)
    refine (decoderInputs_singleton ..).trans (congrArg Option.toList ?_)
    unfold decoderInput
    dsimp only
    rw [pending, decide_eq_true fits]
    exact if_pos (by decide)
  | cons next rest ih =>
    rw [flatten_cons, length_append] at fits
    have room : c.hdrBlock.length + fragment.length ≤ hdrBlockMax := by omega
    have appended := processOneFrame_continues (f := ⟨.continuation, 0, sid, fragment⟩) pending rfl
      unflagged room
    have more := ih next (c := { c with hdrBlock := c.hdrBlock ++ fragment }) pending
      (by rw [length_append]; omega)
    have collected : Conn.handleHeaderBlock { c with hdrBlock := c.hdrBlock ++ fragment } = _ :=
      funext fun sid => funext fun block => funext fun flags =>
        handleHeaderBlock_collecting c (c.hdrBlock ++ fragment) c.hdrBlockSid c.hdrBlockFlags
          c.hdrBlockPending sid block flags
    rw [flatten_cons, ← append_assoc]
    refine ⟨?_, ?_⟩
    · show Conn.processFrames c (⟨.continuation, 0, sid, fragment⟩ :: continuations sid _) = _
      rw [processFrames, appended]
      refine more.1.trans ?_
      rw [collected]
      rfl
    show Conn.decoderInputs c (⟨.continuation, 0, sid, fragment⟩ :: continuations sid _) = _
    rw [decoderInputs, appended, decoderInput_append]
    exact more.2

open HeaderFraming in
/-- **Continuations that do not fit**: the decoder gets nothing. -/
theorem continuations_long (rest : List Octets) (pending : c.hdrBlockPending = true) (sid : ℕ)
    (room : c.hdrBlock.length ≤ hdrBlockMax)
    (long : hdrBlockMax < c.hdrBlock.length + rest.flatten.length) :
    c.decoderInputs (continuations sid rest) = [] := by
  induction rest generalizing c with
  | nil => rfl
  | cons fragment rest ih =>
    rw [flatten_cons, length_append] at long
    rw [continuations, decoderInputs]
    by_cases fits : c.hdrBlock.length + fragment.length ≤ hdrBlockMax
    · rcases rest with _ | ⟨next, rest⟩
      · rw [flatten_nil, length_nil] at long
        omega
      rw [show flagIf (next :: rest).isEmpty flagEndHeaders = 0 from rfl, decoderInput_append,
        processOneFrame_continues pending rfl unflagged fits]
      refine ih (c := { c with hdrBlock := c.hdrBlock ++ fragment }) pending ?_ ?_ <;>
        rw [length_append]
      · exact fits
      · omega
    unfold decoderInput
    rw [processOneFrame_long pending rfl (Nat.not_le.mp fits)]
    rw [decide_eq_false fits, Bool.and_false]
    rfl

end Conn

/-! ## The octets behind the offset -/

namespace HeaderFraming

theorem has_flags (endStream endHeaders padded priority : Bool) :
    let flags := flagIf endStream flagEndStream ||| flagIf endHeaders flagEndHeaders |||
      flagIf padded flagPadded ||| flagIf priority flagPriority
    has flags flagEndHeaders = endHeaders ∧ has flags flagPadded = padded ∧
      has flags flagPriority = priority := by
  revert endStream endHeaders padded priority
  decide

variable (h : HeaderFraming)

theorem has_flags_endHeaders : has h.flags flagEndHeaders = h.rest.isEmpty := (has_flags ..).1

/-- What is skipped in front: the length of the padding, as much as there is padding,
and the priority. -/
theorem headersBlockOffset_payload (more : Octets) :
    Conn.headersBlockOffset (h.payload ++ more) h.flags =
      some (h.padLength.length + h.pad.length + h.prio.length) := by
  obtain ⟨-, padded, priority⟩ :=
    has_flags h.endStream h.rest.isEmpty h.padding.isSome h.priority.isSome
  obtain ⟨sid, endStream, padding, prio, first, rest⟩ := h
  unfold Conn.headersBlockOffset
  rw [flags, padded, priority]
  rcases padding with _ | ⟨octets, short⟩ <;> rcases prio with _ | ⟨prio, five⟩
  · rfl
  · simp [payload, padLength, pad, HeaderFraming.prio, five]
  · simp [payload, padLength, pad, HeaderFraming.prio, Nat.mod_eq_of_lt short]
    omega
  · simp [payload, padLength, pad, HeaderFraming.prio, five, Nat.mod_eq_of_lt short]
    rw [if_neg (by omega), bind_some, if_neg (by omega)]

/-- **What the decoder gets**: the first fragment with its padding behind it, without
as many octets in front as there is padding, and the other fragments. -/
theorem blockInput_payload (more : Octets) : Conn.blockInput (h.payload ++ more) h.flags =
      some ((h.first ++ h.pad).drop h.pad.length ++ more) := by
  rw [Conn.blockInput, headersBlockOffset_payload, map_some]
  congr 1
  have front : h.padLength ++ h.prio ++ (h.first ++ h.pad ++ more) = h.payload ++ more := by
    simp only [payload, append_assoc]
  have enough : h.pad.length ≤ (h.first ++ h.pad).length := by
    rw [length_append]
    omega
  rw [← front, ← drop_append_of_le_length enough]
  rw [show h.padLength.length + h.pad.length + h.prio.length =
    (h.padLength ++ h.prio).length + h.pad.length by rw [length_append]; omega]
  exact drop_length_add_append _

/-- The condition: behind as many octets as there is padding, the first fragment with
its padding goes on with the fragment, and the payloads of several frames fit the
buffer together. -/
def Agrees : Prop :=
  (h.first ++ h.pad).drop h.pad.length = h.first ∧
    (h.rest = [] ∨ h.payload.length + h.rest.flatten.length ≤ hdrBlockMax)

instance : Decidable h.Agrees := inferInstanceAs (Decidable (_ ∧ _))

theorem blockInput_payload_eq_block_iff :
    Conn.blockInput (h.payload ++ h.rest.flatten) h.flags = some h.block ↔
      (h.first ++ h.pad).drop h.pad.length = h.first := by
  rw [blockInput_payload, some_inj, block, append_left_inj]

/-- The plain frame hands the block to the decoder. -/
theorem blockInput_plain : Conn.blockInput h.plain.payload h.plain.flags = some h.block := by
  have input := h.plain.blockInput_payload []
  rw [append_nil] at input
  rw [input]
  simp [plain, pad]

end HeaderFraming

/-! ## Transparency -/

namespace Conn

open HeaderFraming

/-- HEADERS without END_HEADERS is kept, unless it is too long. -/
theorem processOneFrame_opens {c : Conn} {f : Frame} (quiet : c.hdrBlockPending = false)
    (type : f.type = .headers) (more : has f.flags flagEndHeaders = false) :
    c.processOneFrame f =
      if hdrBlockMax < f.payload.length then (c, false)
      else (c.collecting f.payload f.sid f.flags true, true) := by
  unfold processOneFrame handleHeadersFrame
  rw [type]
  dsimp only
  rw [if_neg (by rw [quiet]; decide), if_neg (by rw [more]; decide)]
  rfl

theorem processFrames_plain {c : Conn} (h : HeaderFraming) (quiet : c.hdrBlockPending = false) :
    c.processFrames h.plain.frames = c.handleHeaderBlock h.sid h.plain.payload h.plain.flags := by
  have ends : has h.plain.flags flagEndHeaders = true := h.plain.has_flags_endHeaders
  refine (processFrames_singleton ..).trans ?_
  unfold processOneFrame handleHeadersFrame
  dsimp only
  rw [if_neg (by rw [quiet]; decide), if_pos ends]
  rfl

/-- **The block in one frame.** -/
theorem transparent_single {c : Conn} {h : HeaderFraming} (quiet : c.hdrBlockPending = false)
    (single : h.rest = []) : c.Transparent h ↔ h.Agrees := by
  have ends : has h.flags flagEndHeaders = true := by
    rw [has_flags_endHeaders, single]
    rfl
  have frames : h.frames = [⟨.headers, h.flags, h.sid, h.payload⟩] := by
    rw [HeaderFraming.frames, single]
    rfl
  have input : c.decoderInputs h.frames = (blockInput h.payload h.flags).toList := by
    rw [frames, decoderInputs_singleton, decoderInput]
    rw [quiet, ends]
    rfl
  have passed := h.blockInput_payload_eq_block_iff
  rw [single, flatten_nil, append_nil] at passed
  rw [Transparent, Agrees, input, ← passed, toList_eq_singleton_iff]
  refine and_congr_right fun same => ⟨fun _ => .inl single, fun _ => ?_⟩
  have effect : c.processFrames h.frames = c.handleHeaderBlock h.sid h.payload h.flags := by
    rw [frames, processFrames_singleton]
    unfold processOneFrame handleHeadersFrame
    dsimp only
    rw [if_neg (by rw [quiet]; decide), if_pos ends]
  rw [effect, processFrames_plain h quiet,
    handleHeaderBlock_of_input (same.trans h.blockInput_plain.symm)]
  exact ⟨rfl, rfl⟩

section Split

variable {c : Conn} {h : HeaderFraming} (quiet : c.hdrBlockPending = false) (split : h.rest ≠ [])

include quiet split

omit quiet in
theorem has_flags_split : has h.flags flagEndHeaders = false :=
  h.has_flags_endHeaders.trans (isEmpty_eq_false_iff.mpr split)

theorem processOneFrame_first : c.processOneFrame ⟨.headers, h.flags, h.sid, h.payload⟩ =
      if hdrBlockMax < h.payload.length then (c, false)
      else (c.collecting h.payload h.sid h.flags true, true) :=
  processOneFrame_opens quiet rfl (has_flags_split split)

omit quiet in
theorem decoderInput_first : c.decoderInput ⟨.headers, h.flags, h.sid, h.payload⟩ = none := by
  rw [decoderInput]
  rw [has_flags_split split, Bool.and_false]
  rfl

/-- The frames behind the first collect the block. -/
theorem frames_split (short : h.payload.length ≤ hdrBlockMax) : c.processFrames h.frames =
        (c.collecting h.payload h.sid h.flags true).processFrames (continuations h.sid h.rest) ∧
      c.decoderInputs h.frames =
        (c.collecting h.payload h.sid h.flags true).decoderInputs (continuations h.sid h.rest) := by
  have first : c.processOneFrame ⟨.headers, h.flags, h.sid, h.payload⟩ =
      (c.collecting h.payload h.sid h.flags true, true) := by
    rw [processOneFrame_first quiet split, if_neg (Nat.not_lt.mpr short)]
  refine ⟨?_, ?_⟩
  · rw [frames, processFrames, first]
  · rw [frames, decoderInputs, first, decoderInput_first split]
    rfl

/-- The block in several frames that fit the buffer. -/
theorem frames_fit (fits : h.payload.length + h.rest.flatten.length ≤ hdrBlockMax) :
    let block := h.payload ++ h.rest.flatten
    let done := c.handleHeaderBlock h.sid block h.flags
    c.processFrames h.frames = (done.1.collecting block h.sid h.flags false, done.2) ∧
      c.decoderInputs h.frames = (blockInput block h.flags).toList := by
  have short : h.payload.length ≤ hdrBlockMax := by omega
  obtain ⟨fragment, rest, pieces⟩ := exists_cons_of_ne_nil split
  have run := continuations_fit fragment rest
    (c := c.collecting h.payload h.sid h.flags true) rfl h.sid (by rw [← pieces]; exact fits)
  rw [← pieces] at run
  dsimp only at run
  rw [handleHeaderBlock_collecting] at run
  obtain ⟨first, inputs⟩ := frames_split quiet split short
  exact ⟨first.trans run.1, inputs.trans run.2⟩

/-- **The block in several frames.** -/
theorem transparent_split : c.Transparent h ↔ h.Agrees := by
  by_cases fits : h.payload.length + h.rest.flatten.length ≤ hdrBlockMax
  · obtain ⟨effect, inputs⟩ := frames_fit quiet split fits
    rw [Transparent, Agrees, inputs, toList_eq_singleton_iff, h.blockInput_payload_eq_block_iff]
    refine and_congr_right fun same => ⟨fun _ => .inr fits, fun _ => ?_⟩
    have block := h.blockInput_payload_eq_block_iff.mpr same
    obtain ⟨-, pending⟩ := c.handleHeaderBlock_kept h.sid (h.payload ++ h.rest.flatten) h.flags
    rw [quiet] at pending
    rw [effect, processFrames_plain h quiet,
      ← handleHeaderBlock_of_input (block.trans h.blockInput_plain.symm)]
    refine ⟨?_, rfl⟩
    dsimp only [collecting, forgetBlock]
    rw [pending]
  have nothing : c.decoderInputs h.frames = [] := by
    by_cases short : h.payload.length ≤ hdrBlockMax
    · rw [(frames_split quiet split short).2]
      exact continuations_long h.rest rfl h.sid short (Nat.not_le.mp fits)
    rw [frames, decoderInputs, processOneFrame_first quiet split, if_pos (Nat.not_le.mp short),
      decoderInput_first split]
    rfl
  constructor
  · rintro ⟨inputs, -⟩
    rw [nothing] at inputs
    cases inputs
  rintro ⟨-, single | fit⟩
  · exact absurd single split
  · exact absurd fit fits

end Split

end Conn

/-- **When framing is transparent.** The frames of a header block hand the block to
the decoder and have the effect of one plain frame if and only if the framing meets
the condition. -/
theorem header_framing_transparent_iff (c : Conn) (h : HeaderFraming)
    (quiet : c.hdrBlockPending = false) : c.Transparent h ↔ h.Agrees := by
  by_cases single : h.rest = []
  · exact Conn.transparent_single quiet single
  · exact Conn.transparent_split quiet single

/-- The fields of a response, of which the second is a literal, in three fragments and
with a priority. -/
def splitFraming : HeaderFraming where
  sid := 1
  endStream := false
  padding := some ⟨[], by decide⟩
  priority := some ⟨[0, 0, 0, 0, 16], rfl⟩
  first := [0x88]
  rest := [[0x0f, 0x10], 16 :: ascii "application/grpc"]

theorem splitFraming_transparent :
    (Conn.fresh []).hdrBlockPending = false ∧ (Conn.fresh []).Transparent splitFraming :=
  ⟨rfl, (header_framing_transparent_iff (Conn.fresh []) splitFraming rfl).mpr (by decide)⟩

/-- The headers of a response with two octets of padding. -/
def paddedFraming : HeaderFraming where
  sid := 1
  endStream := false
  padding := some ⟨[0, 0], by decide⟩
  priority := none
  first := 0x88 :: 0x0f :: 0x10 :: 16 :: ascii "application/grpc"
  rest := []

/-- A connection with a stream whose request is sent. -/
def waitingConn : Conn := (((Conn.fresh []).streamAlloc .unary).map Prod.snd).getD (Conn.fresh [])

/-- **Padding breaks framing.** The decoder gets the block without its first two
octets and with the padding, and the stream does not see its headers. -/
theorem paddedFraming_not_transparent :
    waitingConn.hdrBlockPending = false ∧
      waitingConn.decoderInputs paddedFraming.frames =
        [0x10 :: 16 :: ascii "application/grpc" ++ [0, 0]] ∧
      (waitingConn.processFrames paddedFraming.frames).2 = false ∧
      (waitingConn.processFrames paddedFraming.plain.frames).2 = true ∧
      ((waitingConn.processFrames paddedFraming.plain.frames).1.streams 0).state = .headers ∧
      ¬ waitingConn.Transparent paddedFraming := by
  have inputs : waitingConn.decoderInputs paddedFraming.frames =
      [0x10 :: 16 :: ascii "application/grpc" ++ [0, 0]] := by decide +kernel
  refine ⟨by decide +kernel, inputs, by decide +kernel, by decide +kernel, by decide +kernel, ?_⟩
  rintro ⟨passed, -⟩
  rw [inputs] at passed
  revert passed
  decide +kernel

end Strimserver.H2c
