import Strimserver.H2c.Moves

/-!
# The sending side of a connection

What the server allows the client to send: the send windows, the initial window of new
streams and the largest payload. The steps of a client keep the windows within 32 bits
and the largest payload within the bounds of HTTP/2. Most of them do not touch this side
at all: it is moved by WINDOW_UPDATE and SETTINGS, by new streams, and by sending.
-/

namespace Strimserver.H2c

open Hpack Library Conn

/-! ## Windows of 32 bits -/

/-- The largest window that HTTP/2 allows, which is also the largest of 32 bits. -/
def maxWindow : ℤ := 2 ^ 31 - 1

/-- A number is a signed 32-bit number. -/
def Fits (n : ℤ) : Prop := -2 ^ 31 ≤ n ∧ n ≤ maxWindow

instance (n : ℤ) : Decidable (Fits n) := inferInstanceAs (Decidable (_ ∧ _))

theorem fits_int32 (n : ℤ) : Fits (int32 n) := by
  unfold Fits int32 maxWindow
  have low := Int.le_bmod (x := n) (m := 2 ^ 32) (by decide)
  have high := Int.bmod_lt (x := n) (m := 2 ^ 32) (by decide)
  norm_num at low high ⊢
  omega

/-- The stored number is the exact one just if it fits. -/
theorem int32_eq_self_iff (n : ℤ) : int32 n = n ↔ Fits n := by
  constructor
  · intro eq
    rw [← eq]
    exact fits_int32 n
  rintro ⟨low, high⟩
  unfold maxWindow at high
  exact Int.bmod_eq_of_le (by norm_num at *; omega) (by norm_num at *; omega)

/-- Wrapping is the same before and after an addition. -/
theorem int32_add_int32 (a b : ℤ) : int32 (a + int32 b) = int32 (a + b) := Int.add_bmod_bmod ..

theorem int32_int32_sub (a b : ℤ) : int32 (int32 a - b) = int32 (a - b) := Int.bmod_sub_bmod ..

/-! ## What the server allows -/

/-- What the server allows the client to send. -/
@[ext]
structure Allowance where
  conn : ℤ
  initial : ℤ
  streams : Slot → ℤ
  maxFrame : ℕ

/-- The windows are of 32 bits, and the largest payload is one that HTTP/2 allows. -/
structure Allowance.Within (a : Allowance) : Prop where
  conn : Fits a.conn
  initial : Fits a.initial
  streams : ∀ i, Fits (a.streams i)
  maxFrame : 16384 ≤ a.maxFrame ∧ a.maxFrame ≤ 16777215

namespace Conn

/-- What the server allows on a connection. -/
def allowance (c : Conn) : Allowance :=
  ⟨c.connSendWindow, c.srvInitialWindow, fun i => (c.streams i).sendWindow, c.srvMaxFrame⟩

/-! ## What leaves it alone -/

variable (c : Conn) {type : StreamType} {i : Slot}

theorem set_allowance {s : Stream} (same : s.sendWindow = (c.streams i).sendWindow) :
    (c.set i s).allowance = c.allowance := by
  unfold allowance
  congr 1
  funext j
  by_cases here : j = i
  · subst here
    exact (congrArg Stream.sendWindow (Function.update_self ..)).trans same
  · rw [set_streams_of_ne c here]

theorem frameWrite_allowance (f : Frame) : (c.frameWrite f).1.allowance = c.allowance := by
  unfold frameWrite
  split
  · rfl
  · split <;> rfl

variable (sid : ℕ)

theorem frameWriteRst_allowance (code : H2Code) :
    (c.frameWriteRst sid code).allowance = c.allowance := frameWrite_allowance ..

theorem streamDestroy_allowance (i : Slot) : (c.streamDestroy i).allowance = c.allowance :=
  set_allowance c rfl

theorem completeAllStreams_allowance (status : ℕ) :
    (c.completeAllStreams status).allowance = c.allowance := by
  unfold completeAllStreams allowance
  congr 1
  funext i
  unfold completeStream
  dsimp only
  split <;> rfl

theorem connFail_allowance (code : H2cError) : (c.connFail code).allowance = c.allowance := by
  unfold connFail
  split
  · rfl
  · exact completeAllStreams_allowance ..

theorem steady_allowance : Steady fun c' => c'.allowance = c.allowance where
  write _ same := (frameWrite_allowance ..).trans same
  window _ same := same
  set standing same := (set_allowance _ (congrArg (·.2.2.2.2) standing)).trans same
  reset _ _ _ window _ same :=
    (set_allowance _ (window.trans (by rw [frameWriteRst_streams]))).trans
      ((frameWriteRst_allowance ..).trans same)

theorem handleHeaderBlock_allowance (block : Octets) (flags : UInt8) :
    (c.handleHeaderBlock sid block flags).1.allowance = c.allowance := by
  unfold handleHeaderBlock
  split
  · rfl
  split
  · rfl
  dsimp only
  split
  · rfl
  split
  · rfl
  split
  · rfl
  split
  · exact set_allowance _ rfl
  split
  · rfl
  · exact set_allowance _ rfl

theorem handleRstStream_allowance (payload : Octets) :
    (c.handleRstStream sid payload).1.allowance = c.allowance := by
  unfold handleRstStream
  split
  · rfl
  split
  · rfl
  dsimp only
  split
  · exact streamDestroy_allowance ..
  · exact set_allowance c rfl

/-- Only SETTINGS and WINDOW_UPDATE move what the server allows. -/
theorem processOneFrame_allowance {f : Frame}
    (other : ¬ (f.type = .settings ∨ f.type = .windowUpdate)) :
    (c.processOneFrame f).1.allowance = c.allowance := by
  by_cases header : f.type = .headers ∨ f.type = .continuation
  · have move := processOneFrame_header (c := c) header
    generalize c.processOneFrame f = result at move ⊢
    cases move with
    | refused | collected => rfl
    | handled => exact handleHeaderBlock_allowance ..
  unfold processOneFrame
  cases type : f.type with
  | settings | windowUpdate | headers | continuation => simp [type] at other header
  | ping => exact (steady_allowance c).handlePing _ _ rfl
  | data => exact (steady_allowance c).handleDataFrame _ _ _ rfl
  | rstStream => exact handleRstStream_allowance ..
  | goaway =>
    dsimp only [handleGoaway]
    split
    · rfl
    · exact completeAllStreams_allowance c statusUnavailable
  | priority | pushPromise | unknown => rfl

/-! ## What keeps it within its bounds -/

theorem within_of_eq {c c' : Conn} (same : c'.allowance = c.allowance)
    (within : c.allowance.Within) : c'.allowance.Within := by
  rwa [same]

theorem set_within {c : Conn} (within : c.allowance.Within) (i : Slot) {s : Stream}
    (fits : Fits s.sendWindow) : (c.set i s).allowance.Within where
  conn := within.conn
  initial := within.initial
  maxFrame := within.maxFrame
  streams j := by
    show Fits (Function.update c.streams i s j).sendWindow
    by_cases here : j = i
    · rw [here, Function.update_self]
      exact fits
    · rw [Function.update_of_ne here]
      exact within.streams j

theorem adjustable_within : Adjustable fun c => c.allowance.Within where
  enc _ within := within
  maxStreams _ within := within
  maxFrame low high within := ⟨within.conn, within.initial, within.streams, low, high⟩
  initial _ within := ⟨within.conn, fits_int32 _, within.streams, within.maxFrame⟩
  conn _ within := ⟨fits_int32 _, within.initial, within.streams, within.maxFrame⟩
  stream i _ within := set_within within i (fits_int32 _)
  ready within := within
  ack within := within_of_eq (frameWrite_allowance ..) within

theorem processOneFrame_within (f : Frame) {c : Conn} (within : c.allowance.Within) :
    (c.processOneFrame f).1.allowance.Within := by
  by_cases adjusts : f.type = .settings ∨ f.type = .windowUpdate
  · exact adjustable_within.processOneFrame adjusts within
  · rwa [processOneFrame_allowance c adjusts]

theorem streamAllocFree_within {c c' : Conn} (within : c.allowance.Within)
    (found : c.streamAllocFree type = some (i, c')) : c'.allowance.Within := by
  obtain ⟨j, -, eq⟩ := Option.map_eq_some_iff.mp found
  cases eq
  exact set_within within _ within.initial

theorem streamAlloc_within {c c' : Conn} (within : c.allowance.Within)
    (found : c.streamAlloc type = some (i, c')) : c'.allowance.Within := by
  unfold streamAlloc at found
  split at found
  · rename_i free
    cases found
    exact streamAllocFree_within within free
  split at found
  · refine streamAllocFree_within ?_ found
    rwa [streamDestroy_allowance]
  · cases found

end Conn

/-! ## Sending -/

theorem sends_within (i : Slot) : Sends (fun c => c.allowance.Within) i where
  enc _ within := within
  headers _ within := within_of_eq (frameWrite_allowance ..) within
  chunk {c chunk _} _ covers within := by
    refine within_of_eq (frameWrite_allowance ..) ?_
    have less : ∀ {w : ℤ}, Fits w → chunk ≤ w → Fits (w - chunk) := by
      rintro w ⟨low, high⟩ le
      exact ⟨by omega, by omega⟩
    have debited := set_within within i
      (s := { c.streams i with sendWindow := (c.streams i).sendWindow - chunk })
      (less (within.streams i) covers.1)
    exact ⟨less within.conn covers.2, within.initial, debited.streams, within.maxFrame⟩

/-! ## Steps -/

namespace Client

variable {old new : Client}

theorem afterSend_allowance (old : Client) (i : Slot) (body : Octets) (frameMax : ℕ)
    (sending : Sending) :
    (afterSend old i body frameMax sending).conn.allowance = sending.conn.allowance := by
  cases sending with
  | done =>
    unfold afterSend
    dsimp only
    split <;> rfl
  | blocked => rfl
  | failed => exact streamDestroy_allowance ..

theorem streamClose_allowance (old : Client) (i : Slot) :
    (streamClose old i).conn.allowance = old.conn.allowance := by
  unfold streamClose
  dsimp only
  split
  · refine (streamDestroy_allowance _ i).trans ?_
    split
    · have reset := old.conn.frameWriteRst_allowance (old.conn.streams i).id .cancel
      refine (set_allowance _ ?_).trans reset
      exact (congrFun (congrArg Allowance.streams reset) i).symm
    · exact set_allowance _ rfl
  · rfl

theorem closeStreams_allowance (slots : List Slot) (c : Conn) :
    (closeStreams slots c).allowance = c.allowance := by
  induction slots generalizing c with
  | nil => rfl
  | cons i slots ih =>
    unfold closeStreams
    rw [ih, streamDestroy_allowance]
    split
    · exact frameWriteRst_allowance ..
    · rfl

theorem startRequest_within (within : old.conn.allowance.Within) (type : StreamType)
    (path req : Octets) (resp : Option ℕ) :
    (startRequest old type path req resp).conn.allowance.Within := by
  unfold startRequest
  dsimp only
  split
  · exact within
  split
  · exact within
  split
  · exact within
  rename_i i c found
  rw [afterSend_allowance]
  refine (sends_within i).sendRequest _ _ (within_of_eq (set_allowance c ?_) ?_)
  · rfl
  · exact streamAlloc_within within found

/-- **A step keeps the sending side within its bounds.** -/
theorem step_within {label : Label} (step : old.step label = some new)
    (within : old.conn.allowance.Within) : new.conn.allowance.Within := by
  cases stepped step with
  | frame f =>
    have processed := processOneFrame_within f within
    unfold pollFrame
    split
    · rename_i c accepted
      rwa [accepted] at processed
    rename_i c refused
    rw [refused] at processed
    exact within_of_eq (connFail_allowance ..) processed
  | readError => exact within_of_eq (connFail_allowance ..) within
  | gaveUp => exact within_of_eq (streamDestroy_allowance ..) within
  | cancelled =>
    exact within_of_eq
      ((streamDestroy_allowance ..).trans (frameWriteRst_allowance ..)) within
  | @resumed i =>
    rw [afterSend_allowance]
    exact (sends_within i).sendLoop _ _ _ _ within
  | took =>
    refine within_of_eq ?_ within
    exact (steady_allowance old.conn).streamCreditMessage _ _ (set_allowance _ rfl)
  | unary | streamOpen => exact startRequest_within within ..
  | streamClose => rwa [streamClose_allowance]
  | close => exact within_of_eq (closeStreams_allowance ..) within
  | _ => exact within

/-- In every reachable state the sending side is within its bounds. -/
theorem within_of_reachable {c : Client} (reachable : clients.Reachable c) :
    c.conn.allowance.Within := by
  refine reachable.induct (P := fun c => c.conn.allowance.Within) ?_ ?_
  · rintro c ⟨ns, rfl⟩
    have first : (Conn.fresh ns).allowance.Within :=
      ⟨(by decide : Fits initWindow), (by decide : Fits initWindow), fun _ => (by decide : Fits 0),
        (by decide : 16384 ≤ 16384 ∧ 16384 ≤ 16777215)⟩
    exact within_of_eq (frameWrite_allowance ..) first
  · intro old label new _ step within
    exact step_within step within

end Client

end Strimserver.H2c
