import Strimserver.H2c.Connection

/-!
# Frames on the wire

`frame_write` and the incremental frame reader of `h2c.c`. The reader is called again
and again by `process_one_frame`. It reads the nine octets of the header, and then the
payload, and it can be suspended between any two octets: a `read` returns a part of what
it was asked for, is interrupted, or has nothing to return for now. What was read so far
is kept in the reader, and the fields of the header are derived from its octets again
when no octet of the payload is there.

`readFrames_written` is the round trip. However the octets of the written frames arrive,
what the reader has yielded and what is still to come are the written frames.
-/

namespace Strimserver.H2c

open Hpack List

/-! ## Types of frames -/

/-- The octet of a type. -/
def FrameType.code : FrameType → UInt8
  | data => 0
  | headers => 1
  | priority => 2
  | rstStream => 3
  | settings => 4
  | pushPromise => 5
  | ping => 6
  | goaway => 7
  | windowUpdate => 8
  | continuation => 9
  | unknown code => code

def FrameType.ofCode (code : UInt8) : FrameType :=
  match code with
  | 0 => .data
  | 1 => .headers
  | 2 => .priority
  | 3 => .rstStream
  | 4 => .settings
  | 5 => .pushPromise
  | 6 => .ping
  | 7 => .goaway
  | 8 => .windowUpdate
  | 9 => .continuation
  | code => .unknown code

/-! ## Writing -/

/-- The header that `frame_write` writes. -/
def Frame.header (f : Frame) : Octets :=
  [UInt8.ofNat (f.payload.length >>> 16), UInt8.ofNat (f.payload.length >>> 8),
    UInt8.ofNat f.payload.length, f.type.code, f.flags] ++ be32 f.sid

/-- The octets of `frame_write`, which refuses a payload whose length has more than 24
bits. -/
def Frame.write (f : Frame) : Option Octets :=
  if 0xffffff < f.payload.length then none else some (f.header ++ f.payload)

/-- Calls of `frame_write` one after another, up to the first that fails. -/
def writeFrames : List Frame → Option Octets
  | [] => some []
  | f :: fs => f.write.bind fun first => (writeFrames fs).map (first ++ ·)

/-- A frame that can be sent: its type is that of an octet, and the stream identifier and
the length have the bits that the header has for them. -/
structure Frame.Sendable (f : Frame) : Prop where
  type : FrameType.ofCode f.type.code = f.type
  sid : f.sid < 2 ^ 31
  length : f.payload.length < 2 ^ 24

/-! ## Reading -/

/-- What `read` returns. Octets are at least one and at most one more than the number, and
never more than were asked for and are there. -/
inductive Reply where
  | octets (n : ℕ)
  /-- `EINTR`. -/
  | interrupted
  /-- `EAGAIN` or `EWOULDBLOCK`. -/
  | again
  /-- Another error, or the end of the connection. -/
  | broken
  deriving DecidableEq

/-- `struct frame_reader`, with the parts of `hdr` and `payload` that are filled. -/
structure FrameReader where
  hdr : Octets
  payload : Octets
  payloadLen : ℕ
  type : UInt8
  flags : UInt8
  sid : ℕ

namespace FrameReader

/-- The reader of a new connection. -/
def zero : FrameReader := ⟨[], [], 0, 0, 0, 0⟩

/-- `frame_reader_reset`. -/
def reset (r : FrameReader) : FrameReader := { r with hdr := [], payload := [] }

def derive (r : FrameReader) : FrameReader :=
  match r.hdr with
  | [a, b, c, type, flags, w, x, y, z] =>
    { r with
      payloadLen := a.toNat <<< 16 ||| b.toNat <<< 8 ||| c.toNat
      type, flags, sid := readBe32 w x y z }
  | _ => r

/-- The part of a round before its `read`. -/
def prepare (r : FrameReader) : FrameReader :=
  if r.hdr.length < 9 then r else if r.payload.length = 0 then r.derive else r

/-- The header is complete, and it announces no payload. -/
def bare (r : FrameReader) : Bool :=
  decide (9 ≤ r.hdr.length ∧ r.payload.length = 0 ∧ r.payloadLen = 0)

/-- What a `read` is asked for. -/
def want (r : FrameReader) : ℕ :=
  if r.hdr.length < 9 then 9 - r.hdr.length else r.payloadLen - r.payload.length

/-- The octets that a `read` has returned. -/
def store (r : FrameReader) (octets : Octets) : FrameReader :=
  if r.hdr.length < 9 then { r with hdr := r.hdr ++ octets }
  else { r with payload := r.payload ++ octets }

/-- The test after a `read` of the payload. -/
def full (r : FrameReader) : Bool := decide (9 ≤ r.hdr.length ∧ r.payloadLen ≤ r.payload.length)

def frame (r : FrameReader) : Frame := ⟨.ofCode r.type, r.flags, r.sid, r.payload⟩

/-- The octets of a frame that is not complete. -/
def held (r : FrameReader) : Octets := r.hdr ++ r.payload

end FrameReader

/-- The return values 1, 0 and -1 of `frame_reader_fill`. -/
inductive Filled where
  | ready
  | more
  | failed
  deriving DecidableEq

/-- `frame_reader_fill`, with what its calls of `read` return and the octets on the wire: the return
value, the reader and the octets that are left. Without a reply left or octets on the wire, `read`
has nothing to return for now. -/
def frameReaderFill (replies : List Reply) (r : FrameReader) (wire : Octets) :
    Filled × FrameReader × Octets :=
  let r := r.prepare
  if r.bare then (.ready, r, wire)
  else
    match replies with
    | [] => (.more, r, wire)
    | .again :: _ => (.more, r, wire)
    | .interrupted :: replies => frameReaderFill replies r wire
    | .broken :: _ => (.failed, r, wire)
    | .octets n :: replies =>
      let got := wire.take (min (n + 1) r.want)
      if got = [] then (.more, r, wire)
      else
        let payload := decide (9 ≤ r.hdr.length)
        let r := r.store got
        if payload && r.full then (.ready, r, wire.drop got.length)
        else frameReaderFill replies r (wire.drop got.length)

/-- What calls of `process_one_frame` have done. -/
structure Reading where
  /-- The frames that were handled. -/
  frames : List Frame
  reader : FrameReader
  /-- The octets that are left on the wire. -/
  wire : Octets

/-- Calls of `process_one_frame`, each with what its calls of `read` return. -/
def readFrames (r : FrameReader) (wire : Octets) : List (List Reply) → Reading
  | [] => ⟨[], r, wire⟩
  | replies :: calls =>
    match frameReaderFill replies r wire with
    | (.ready, r, wire) =>
      let rest := readFrames r.reset wire calls
      { rest with frames := r.frame :: rest.frames }
    | (.more, r, wire) => readFrames r wire calls
    | (.failed, r, wire) => ⟨[], r, wire⟩

/-! ## The octets of frames -/

def Frame.onWire (f : Frame) : Octets := f.header ++ f.payload

def framesOctets (fs : List Frame) : Octets := (fs.map Frame.onWire).flatten

theorem framesOctets_cons (f : Frame) (fs : List Frame) :
    framesOctets (f :: fs) = f.header ++ (f.payload ++ framesOctets fs) := by
  rfl

variable {r : FrameReader} {fs : List Frame} {wire : Octets} {replies : List Reply}

theorem writeFrames_eq (sendable : ∀ f ∈ fs, f.Sendable) :
    writeFrames fs = some (framesOctets fs) := by
  induction fs with
  | nil => rfl
  | cons f fs ih =>
    have short : ¬ 0xffffff < f.payload.length := by
      have := (sendable f mem_cons_self).length
      omega
    rw [writeFrames, Frame.write, if_neg short, Option.bind_some,
      ih fun f' mem => sendable f' (mem_cons_of_mem f mem), Option.map_some, framesOctets_cons,
      append_assoc]

theorem readLength {n : ℕ} (small : n < 2 ^ 24) :
    (UInt8.ofNat (n >>> 16)).toNat <<< 16 ||| (UInt8.ofNat (n >>> 8)).toNat <<< 8 |||
      (UInt8.ofNat n).toNat = n := by
  have top : n >>> 24 = 0 := by
    rw [Nat.shiftRight_eq_div_pow]
    exact Nat.div_eq_of_lt small
  have whole := readBe32_be32 (small.trans (by decide))
  rw [top] at whole
  simpa [readBe32] using whole

/-! ## The reader between two calls -/

namespace FrameReader

variable {r : FrameReader}

/-- The reader is in front of a frame or in the middle of one. -/
inductive Partial (r : FrameReader) : Prop where
  | header (short : r.hdr.length < 9) (empty : r.payload = [])
  | payload (whole : r.hdr.length = 9) (derived : r.derive = r)
      (less : r.payload.length < r.payloadLen)

/-- All octets of a frame are there. -/
structure Complete (r : FrameReader) : Prop where
  whole : r.hdr.length = 9
  derived : r.derive = r
  all : r.payload.length = r.payloadLen

theorem derive_eq (whole : r.hdr.length = 9) (payload : Octets) :
    r.derive.hdr = r.hdr ∧ r.derive.payload = r.payload ∧ r.derive.derive = r.derive ∧
      derive { r with payload } = { r.derive with payload } := by
  obtain ⟨hdr, _, _⟩ := r
  match hdr, whole with
  | [a, b, c, type, flags, w, x, y, z], _ => exact ⟨rfl, rfl, rfl, rfl⟩

/-- A header that was derived from the octets of a frame. -/
theorem header_of_derived {f : Frame} (sendable : f.Sendable) (whole : r.hdr.length = 9)
    (derived : r.derive = r) (octets : r.held ++ wire = framesOctets (f :: fs)) :
    r.payload ++ wire = f.payload ++ framesOctets fs ∧ r.payloadLen = f.payload.length ∧
      FrameType.ofCode r.type = f.type ∧ r.flags = f.flags ∧ r.sid = f.sid := by
  rw [framesOctets_cons, held, append_assoc] at octets
  obtain ⟨header, behind⟩ := append_inj octets whole
  rw [← derived, derive, header]
  exact ⟨behind, readLength sendable.length, sendable.type, rfl,
    readBe32_be32 (sendable.sid.trans (by decide))⟩

/-- When all octets have arrived, no frame is left and nothing is held. -/
theorem Partial.done (part : r.Partial) (sendable : ∀ f ∈ fs, f.Sendable)
    (octets : r.held = framesOctets fs) : fs = [] ∧ r.held = [] := by
  rcases fs with _ | ⟨f, fs⟩
  · exact ⟨rfl, octets⟩
  exfalso
  cases part with
  | header short empty =>
    have length := congrArg List.length octets
    rw [held, empty, framesOctets_cons, length_append, length_append] at length
    have nine : f.header.length = 9 := rfl
    simp only [length_nil] at length
    omega
  | payload whole derived less =>
    rw [← append_nil r.held] at octets
    obtain ⟨behind, length, -⟩ := header_of_derived (sendable f mem_cons_self) whole derived octets
    have lengths := congrArg List.length behind
    rw [length_append, length_append] at lengths
    simp only [length_nil] at lengths
    omega

theorem Partial.reset (r : FrameReader) : r.reset.Partial := .header (Nat.succ_pos 8) rfl

theorem Partial.prepare_eq (part : r.Partial) : r.prepare = r ∧ r.bare = false := by
  cases part with
  | header short =>
    exact ⟨if_pos short, decide_eq_false fun bare => absurd bare.1 (Nat.not_le.mpr short)⟩
  | payload whole derived less =>
    refine ⟨?_, decide_eq_false fun bare => ?_⟩
    · rw [prepare, if_neg (by omega), derived, ite_self]
    · omega

theorem Partial.want_pos (part : r.Partial) : 0 < r.want := by
  unfold want
  cases part with
  | header short empty =>
    rw [if_pos short]
    omega
  | payload whole derived less =>
    rw [if_neg (by omega)]
    omega

/-- Octets of a header, not more than are missing. -/
theorem store_header (short : r.hdr.length < 9) (empty : r.payload = []) {got : Octets}
    (few : got.length ≤ r.want) :
    (r.store got).held = r.held ++ got ∧
      ((r.store got).Partial ∨ (r.store got).hdr.length = 9 ∧ (r.store got).payload = []) := by
  rw [want, if_pos short] at few
  rw [store, if_pos short, held, held]
  dsimp only
  refine ⟨by rw [empty, append_nil, append_nil], ?_⟩
  have length : (r.hdr ++ got).length = r.hdr.length + got.length := length_append
  by_cases more : (r.hdr ++ got).length < 9
  · exact .inl (.header more empty)
  · exact .inr ⟨by omega, empty⟩

/-- Octets of a payload, not more than are missing. -/
theorem store_payload (whole : r.hdr.length = 9) (derived : r.derive = r) {got : Octets}
    (few : got.length ≤ r.want) (less : r.payload.length < r.payloadLen) :
    (r.store got).held = r.held ++ got ∧ ((r.store got).full = true ∧ (r.store got).Complete ∨
        (r.store got).full = false ∧ (r.store got).Partial) := by
  have long : ¬ r.hdr.length < 9 := by omega
  rw [want, if_neg long] at few
  have derived' : derive { r with payload := r.payload ++ got } =
      { r with payload := r.payload ++ got } := by
    rw [(derive_eq whole _).2.2.2, derived]
  have length : (r.payload ++ got).length = r.payload.length + got.length := length_append
  rw [store, if_neg long, held, held, append_assoc]
  refine ⟨rfl, ?_⟩
  have bound : (r.payload ++ got).length ≤ r.payloadLen := by omega
  by_cases all : r.payloadLen ≤ (r.payload ++ got).length
  · exact .inl ⟨decide_eq_true ⟨whole.ge, all⟩, whole, derived', Nat.le_antisymm bound all⟩
  · exact .inr ⟨decide_eq_false fun full => all full.2, .payload whole derived' (Nat.not_le.mp all)⟩

end FrameReader

/-! ## A call -/

/-- What a call ends with while the octets of frames arrive. -/
inductive FillOutcome (fs : List Frame) : Filled × FrameReader × Octets → Prop where
  | ready {r : FrameReader} {wire : Octets} {fs' : List Frame} (first : fs = r.frame :: fs')
      (octets : wire = framesOctets fs') : FillOutcome fs (.ready, r, wire)
  | more {r : FrameReader} {wire : Octets} (part : r.Partial)
      (octets : r.held ++ wire = framesOctets fs) : FillOutcome fs (.more, r, wire)

theorem FillOutcome.of_complete (sendable : ∀ f ∈ fs, f.Sendable) (complete : r.Complete)
    (octets : r.held ++ wire = framesOctets fs) : FillOutcome fs (.ready, r, wire) := by
  rcases fs with _ | ⟨f, fs⟩
  · have length := congrArg List.length octets
    rw [FrameReader.held, length_append, length_append, complete.whole] at length
    simp [framesOctets] at length
  obtain ⟨behind, length, type, flags, sid⟩ := FrameReader.header_of_derived
    (sendable f mem_cons_self) complete.whole complete.derived octets
  obtain ⟨payload, rest⟩ := append_inj behind (complete.all.trans length)
  refine .ready ?_ rest
  rw [FrameReader.frame, type, flags, sid, payload]

/-- The reader at the start of a round: between two calls, or with a header that has just
been completed. -/
def FrameReader.Entry (r : FrameReader) : Prop := r.Partial ∨ r.hdr.length = 9 ∧ r.payload = []

theorem FrameReader.Entry.prepare (entry : r.Entry) : r.prepare.held = r.held ∧
      (r.prepare.bare = true ∧ r.prepare.Complete ∨
        r.prepare.bare = false ∧ r.prepare.Partial) := by
  rcases entry with part | ⟨whole, empty⟩
  · obtain ⟨same, bare⟩ := part.prepare_eq
    rw [same]
    exact ⟨rfl, .inr ⟨bare, part⟩⟩
  -- A header that has just been completed.
  obtain ⟨hdr, payload, derived, -⟩ := derive_eq whole []
  have prepared : r.prepare = r.derive := by
    rw [FrameReader.prepare, if_neg (by omega), if_pos (by rw [empty]; rfl)]
  rw [prepared]
  refine ⟨by rw [held, hdr, payload]; rfl, ?_⟩
  by_cases none : r.derive.payloadLen = 0
  · left
    refine ⟨decide_eq_true ⟨by rw [hdr, whole], by rw [payload, empty]; rfl, none⟩,
      by rw [hdr, whole], derived, ?_⟩
    rw [payload, empty, none]
    rfl
  right
  refine ⟨decide_eq_false fun bare => none bare.2.2, .payload (by rw [hdr, whole]) derived ?_⟩
  rw [payload, empty]
  exact Nat.pos_of_ne_zero none

theorem frameReaderFill_of_bare (bare : r.prepare.bare = true) (replies : List Reply)
    (wire : Octets) : frameReaderFill replies r wire = (.ready, r.prepare, wire) := by
  unfold frameReaderFill
  exact if_pos bare

/-- Octets that a `read` has returned, of those on the wire. -/
theorem FrameReader.Partial.store (part : r.Partial) (wire : Octets) {k : ℕ} (few : k ≤ r.want) :
    (r.store (wire.take k)).held ++ wire.drop (wire.take k).length = r.held ++ wire ∧
      ((decide (9 ≤ r.hdr.length) && (r.store (wire.take k)).full) = true ∧
          (r.store (wire.take k)).Complete ∨
        (decide (9 ≤ r.hdr.length) && (r.store (wire.take k)).full) = false ∧
          (r.store (wire.take k)).Entry) := by
  have less : (wire.take k).length ≤ r.want := (length_take_le ..).trans few
  have whole : wire.take k ++ wire.drop (wire.take k).length = wire := by
    rw [length_take]
    rcases Nat.le_total k wire.length with less | more
    · rw [Nat.min_eq_left less, take_append_drop]
    · rw [Nat.min_eq_right more, drop_length, take_of_length_le more, append_nil]
  cases part with
  | header short empty =>
    obtain ⟨held, entry⟩ := store_header short empty less
    rw [held, append_assoc, whole, decide_eq_false (Nat.not_le.mpr short)]
    exact ⟨rfl, .inr ⟨rfl, entry⟩⟩
  | payload nine derived more =>
    obtain ⟨held, filled⟩ := store_payload nine derived less more
    rw [held, append_assoc, whole, decide_eq_true nine.ge, Bool.true_and]
    exact ⟨rfl, filled.imp id (And.imp id .inl)⟩

/-- **A call of `frame_reader_fill`.** -/
theorem frameReaderFill_outcome (sendable : ∀ f ∈ fs, f.Sendable) (unbroken : .broken ∉ replies)
    (entry : r.Entry) (octets : r.held ++ wire = framesOctets fs) :
    FillOutcome fs (frameReaderFill replies r wire) := by
  induction replies generalizing r wire with
  | nil =>
    obtain ⟨held, ⟨bare, complete⟩ | ⟨bare, part⟩⟩ := entry.prepare
    · rw [frameReaderFill_of_bare bare]
      exact .of_complete sendable complete (by rwa [held])
    unfold frameReaderFill
    rw [if_neg (by rw [bare]; decide)]
    exact .more part (by rwa [held])
  | cons reply replies ih =>
    obtain ⟨held, ⟨bare, complete⟩ | ⟨bare, part⟩⟩ := entry.prepare
    · rw [frameReaderFill_of_bare bare]
      exact .of_complete sendable complete (by rwa [held])
    rw [← held] at octets
    unfold frameReaderFill
    rw [if_neg (by rw [bare]; decide)]
    generalize r.prepare = r at part octets ⊢
    have unbroken' : .broken ∉ replies := fun mem => unbroken (mem_cons_of_mem reply mem)
    cases reply with
    | again => exact .more part octets
    | interrupted => exact ih unbroken' (.inl part) octets
    | broken => exact absurd mem_cons_self unbroken
    | octets n =>
      dsimp only
      split
      · exact .more part octets
      obtain ⟨held, filled⟩ := part.store wire (Nat.min_le_right (n + 1) r.want)
      rw [← held] at octets
      rcases filled with ⟨full, complete⟩ | ⟨missing, entry⟩
      · rw [if_pos full]
        exact .of_complete sendable complete octets
      · rw [if_neg (by rw [missing]; decide)]
        exact ih unbroken' entry octets

/-- A call gets octets before it has to return for want of them. -/
def delivers : List Reply → Bool
  | .octets _ :: _ => true
  | .interrupted :: replies => delivers replies
  | _ => false

theorem frameReaderFill_wire_le (replies : List Reply) (r : FrameReader) (wire : Octets) :
    (frameReaderFill replies r wire).2.2.length ≤ wire.length := by
  induction replies generalizing r wire with
  | nil =>
    unfold frameReaderFill
    dsimp only
    split <;> exact Nat.le_refl _
  | cons reply replies ih =>
    unfold frameReaderFill
    dsimp only
    split
    · exact Nat.le_refl _
    cases reply with
    | again | broken => exact Nat.le_refl _
    | interrupted => exact ih ..
    | octets =>
      have shorter (k : ℕ) : (wire.drop k).length ≤ wire.length := by
        rw [length_drop]
        exact Nat.sub_le ..
      dsimp only
      split
      · exact Nat.le_refl _
      split
      · exact shorter _
      · exact (ih ..).trans (shorter _)

/-- **A call that gets octets takes one** at least, if there is one. -/
theorem frameReaderFill_wire_lt (octets : delivers replies = true) (part : r.Partial)
    (some : wire ≠ []) : (frameReaderFill replies r wire).2.2.length < wire.length := by
  obtain ⟨same, bare⟩ := part.prepare_eq
  induction replies with
  | nil => cases octets
  | cons reply replies ih =>
    unfold frameReaderFill
    rw [same, if_neg (by rw [bare]; decide)]
    cases reply with
    | again => cases octets
    | interrupted => exact ih octets
    | broken => cases octets
    | octets n =>
      have positive := part.want_pos
      have length := length_pos_iff.mpr some
      have got : 0 < (wire.take (min (n + 1) r.want)).length := by
        rw [length_take]
        omega
      have shorter : (wire.drop (wire.take (min (n + 1) r.want)).length).length < wire.length := by
        rw [length_drop]
        omega
      dsimp only
      rw [if_neg (length_pos_iff.mp got)]
      split
      · exact shorter
      · exact (frameReaderFill_wire_le ..).trans_lt shorter

/-! ## Runs -/

/-- **The calls of a run**: what was yielded and what is still to come are the frames. With as
many calls that get octets as there are octets, all of them are read. -/
theorem readFrames_spec {r : FrameReader} {wire : Octets} {fs : List Frame}
    {calls : List (List Reply)} (sendable : ∀ f ∈ fs, f.Sendable)
    (unbroken : ∀ replies ∈ calls, .broken ∉ replies) (part : r.Partial)
    (octets : r.held ++ wire = framesOctets fs) :
    (readFrames r wire calls).reader.Partial ∧
      (∃ left, fs = (readFrames r wire calls).frames ++ left ∧
        (readFrames r wire calls).reader.held ++ (readFrames r wire calls).wire =
          framesOctets left) ∧
      (wire.length ≤ calls.countP delivers → (readFrames r wire calls).wire = []) := by
  induction calls generalizing r wire fs with
  | nil =>
    exact ⟨part, ⟨fs, rfl, octets⟩, fun enough => length_eq_zero_iff.mp (Nat.le_zero.mp enough)⟩
  | cons replies calls ih =>
    have rest : ∀ replies ∈ calls, .broken ∉ replies := fun replies' mem =>
      unbroken replies' (mem_cons_of_mem replies mem)
    have call := frameReaderFill_outcome sendable (unbroken replies mem_cons_self)
      (.inl part) octets
    have fewer (enough : wire.length ≤ (replies :: calls).countP delivers) :
        (frameReaderFill replies r wire).2.2.length ≤ calls.countP delivers := by
      rw [countP_cons] at enough
      have le := frameReaderFill_wire_le replies r wire
      by_cases gets : delivers replies = true
      · rw [if_pos gets] at enough
        by_cases empty : wire = []
        · have none := congrArg List.length empty
          rw [length_nil] at none
          omega
        · have lt := frameReaderFill_wire_lt gets part empty
          omega
      · rw [if_neg gets] at enough
        omega
    rw [readFrames]
    generalize frameReaderFill replies r wire = result at call fewer ⊢
    cases call with
    | @ready r' wire' fs' first behind =>
      subst first
      obtain ⟨part', ⟨left, eq, held⟩, all⟩ := ih
        (fun f mem => sendable f (mem_cons_of_mem _ mem)) rest
        (FrameReader.Partial.reset r') behind
      exact ⟨part', ⟨left, congrArg (r'.frame :: ·) eq, held⟩, fun enough => all (fewer enough)⟩
    | more part' octets' =>
      obtain ⟨part', left, all⟩ := ih sendable rest part' octets'
      exact ⟨part', left, fun enough => all (fewer enough)⟩

/-- **The round trip of frames.** Frames that can be sent are written. However their octets arrive,
and wherever the reader is suspended, the frames that it has yielded are the first of them, and the
octets that it holds and those on the wire are those of the others. After as many calls that get
octets as there are octets it has yielded all frames and holds nothing. -/
theorem readFrames_written (fs : List Frame) (sendable : ∀ f ∈ fs, f.Sendable)
    (calls : List (List Reply)) (unbroken : ∀ replies ∈ calls, .broken ∉ replies) :
    ∃ octets, writeFrames fs = some octets ∧
      (∃ left, fs = (readFrames .zero octets calls).frames ++ left ∧
        (readFrames .zero octets calls).reader.held ++ (readFrames .zero octets calls).wire =
          framesOctets left) ∧
      ((readFrames .zero octets calls).wire = [] →
        (readFrames .zero octets calls).frames = fs ∧
          (readFrames .zero octets calls).reader.held = []) ∧
      (octets.length ≤ calls.countP delivers → (readFrames .zero octets calls).wire = []) := by
  have start : FrameReader.zero.Partial := .header (Nat.succ_pos 8) rfl
  have whole : FrameReader.zero.held ++ framesOctets fs = framesOctets fs := rfl
  obtain ⟨part, ⟨left, eq, held⟩, all⟩ := readFrames_spec sendable unbroken start whole
  refine ⟨framesOctets fs, writeFrames_eq sendable, ⟨left, eq, held⟩, fun empty => ?_, all⟩
  rw [empty, append_nil] at held
  have sendable' : ∀ f ∈ left, f.Sendable := fun f member =>
    sendable f (by rw [eq]; exact mem_append_right _ member)
  obtain ⟨rfl, nothing⟩ := part.done sendable' held
  rw [append_nil] at eq
  exact ⟨eq.symm, nothing⟩

/-- A frame without payload behind a DATA frame. The header of the first and its payload are cut;
`read` is interrupted, and has nothing to return for now. -/
theorem readFrames_two_frames :
    ∃ octets, writeFrames [⟨.data, 1, 3, [7, 8]⟩, ⟨.unknown 77, 0, 0, []⟩] = some octets ∧
      (readFrames .zero octets
        [[.octets 3, .interrupted, .again], [.octets 9, .octets 0], [.octets 9],
          [.octets 9]]).frames =
        [⟨.data, 1, 3, [7, 8]⟩, ⟨.unknown 77, 0, 0, []⟩] := by
  obtain ⟨octets, written, -, done, -⟩ := readFrames_written
    [⟨.data, 1, 3, [7, 8]⟩, ⟨.unknown 77, 0, 0, []⟩]
    (by
      intro f member
      rcases mem_pair.mp member with rfl | rfl
      · exact ⟨rfl, by decide, by decide⟩
      · exact ⟨rfl, by decide, by decide⟩)
    [[.octets 3, .interrupted, .again], [.octets 9, .octets 0], [.octets 9], [.octets 9]]
    (by decide)
  refine ⟨octets, written, (done ?_).1⟩
  cases written
  rfl

end Strimserver.H2c
