import Strimserver.H2c.SendSide
import Mathlib.Order.Fin.Basic

/-!
# The send windows against exact integers

A WINDOW_UPDATE frame and the setting for the initial window move the send windows by
numbers that the server chooses. The exact windows are sums of integers, where an
increment is the low 31 bits of its payload. The code adds in 32 bits, takes all 32 bits
of an increment, and its tests for a window that is too large never fail.

**Main result** (`send_windows_exact_iff`): from every reachable state, the code moves
the windows as exact integers just if the reserved bit does no harm and every window that
results is one of 32 bits.
-/

namespace Strimserver.H2c

open Hpack Library Function List

/-- A frame that moves send windows, with the four octets of its number. -/
inductive WindowFrame where
  /-- A WINDOW_UPDATE frame. -/
  | update (sid : ℕ) (w x y z : UInt8)
  /-- A SETTINGS frame with SETTINGS_INITIAL_WINDOW_SIZE. -/
  | initial (w x y z : UInt8)

namespace WindowFrame

def IsZero : WindowFrame → Prop
  | update _ w x y z => readBe32 w x y z % 2 ^ 31 = 0
  | initial .. => False

end WindowFrame

/-- No window is too large: that of the connection, those of the open streams, and the
initial one. -/
structure Allowance.Bounded (a : Allowance) (c : Conn) : Prop where
  conn : a.conn ≤ maxWindow
  initial : a.initial ≤ maxWindow
  streams : ∀ i, (c.streams i).inUse = true → a.streams i ≤ maxWindow

namespace Conn

def handleWindowFrame (c : Conn) : WindowFrame → Conn × Bool
  | .update sid w x y z => c.handleWindowUpdate sid [w, x, y, z]
  | .initial w x y z => c.handleSettings [0, 4, w, x, y, z]

/-- The windows behind a frame, as exact integers. -/
def exactly (c : Conn) : WindowFrame → Allowance
  | .update sid w x y z =>
    let inc : ℕ := readBe32 w x y z % 2 ^ 31
    if sid = 0 then { c.allowance with conn := c.connSendWindow + inc }
    else
      { c.allowance with
        streams := fun i =>
          if c.streamFind sid = some i then (c.streams i).sendWindow + inc
          else (c.streams i).sendWindow }
  | .initial w x y z =>
    let val : ℕ := readBe32 w x y z
    { c.allowance with
      initial := val
      streams := fun i =>
        if (c.streams i).inUse then (c.streams i).sendWindow + (val - c.srvInitialWindow)
        else (c.streams i).sendWindow }

/-- A frame moves the windows exactly: it succeeds just if no window gets too large and
the increment is not zero, and then the windows are the exact ones. -/
def MovesExactly (c : Conn) (f : WindowFrame) : Prop :=
  ((c.handleWindowFrame f).2 = true ↔ ¬ f.IsZero ∧ (c.exactly f).Bounded c) ∧
    ((c.handleWindowFrame f).2 = true → (c.handleWindowFrame f).1.allowance = c.exactly f)

/-- The sums stay within 32 bits, and the reserved bit of an increment does no harm. A
frame for a stream that is not open moves nothing, and a SETTINGS frame fails when it
cannot be acknowledged. -/
def SumsFit (c : Conn) : WindowFrame → Prop
  | .update sid w x y z =>
    readBe32 w x y z = 0 ∨
      (readBe32 w x y z < 2 ^ 31 ∧ (c.exactly (.update sid w x y z)).Bounded c) ∨
      (sid ≠ 0 ∧ c.streamFind sid = none ∧ readBe32 w x y z % 2 ^ 31 ≠ 0)
  | .initial w x y z =>
    if c.writable = some 0 then ¬ (c.exactly (.initial w x y z)).Bounded c
    else
      (c.exactly (.initial w x y z)).Bounded c ∧
        ∀ i, (c.streams i).inUse = true → -2 ^ 31 ≤ (c.exactly (.initial w x y z)).streams i

/-! ## Numbers of 32 bits -/

theorem readBe32_lt (a b c d : UInt8) : readBe32 a b c d < 2 ^ 32 := by
  have small : ∀ (o : UInt8) (k : ℕ), k ≤ 24 → o.toNat <<< k < 2 ^ 32 := by
    intro o k le
    rw [Nat.shiftLeft_eq]
    calc o.toNat * 2 ^ k ≤ 255 * 2 ^ k := Nat.mul_le_mul_right _ (Nat.le_of_lt_succ o.toNat_lt)
      _ ≤ 255 * 2 ^ 24 := Nat.mul_le_mul_left _ (Nat.pow_le_pow_right (by decide) le)
      _ < 2 ^ 32 := by decide
  have last : d.toNat < 2 ^ 32 := Nat.lt_trans d.toNat_lt (by decide)
  exact Nat.or_lt_two_pow (Nat.or_lt_two_pow (Nat.or_lt_two_pow (small a 24 (by decide))
    (small b 16 (by decide))) (small c 8 (by decide))) last

/-! ## WINDOW_UPDATE -/

variable (c : Conn) {w x y z : UInt8}

theorem handleWindowUpdate_zero (sid : ℕ) (zero : readBe32 w x y z = 0) :
    (c.handleWindowUpdate sid [w, x, y, z]).2 = false := by
  unfold handleWindowUpdate
  dsimp only
  rw [if_pos zero]

/-- The test for a window that is too large does not fail. -/
theorem window_test (n : ℤ) : (!decide (0x7fffffff < int32 n)) = true := by
  have bound := (fits_int32 n).2
  unfold maxWindow at bound
  rw [decide_eq_false (by omega)]
  rfl

theorem handleWindowUpdate_conn (pos : readBe32 w x y z ≠ 0) : c.handleWindowUpdate 0 [w, x, y, z] =
      ({ c with connSendWindow := int32 (c.connSendWindow + int32 (readBe32 w x y z)) }, true) := by
  unfold handleWindowUpdate
  dsimp only
  rw [if_neg pos, if_pos rfl, window_test]

theorem handleWindowUpdate_lost {c : Conn} {sid : ℕ} (stream : sid ≠ 0)
    (lost : c.streamFind sid = none) (pos : readBe32 w x y z ≠ 0) :
    c.handleWindowUpdate sid [w, x, y, z] = (c, true) := by
  unfold handleWindowUpdate
  dsimp only
  rw [if_neg pos, if_neg stream, lost]

theorem handleWindowUpdate_stream {c : Conn} {sid : ℕ} {i : Slot} (stream : sid ≠ 0)
    (found : c.streamFind sid = some i) (pos : readBe32 w x y z ≠ 0) :
    c.handleWindowUpdate sid [w, x, y, z] = (c.set i { c.streams i with
        sendWindow := int32 ((c.streams i).sendWindow + int32 (readBe32 w x y z)) }, true) := by
  unfold handleWindowUpdate
  dsimp only
  rw [if_neg pos, if_neg stream, found]
  dsimp only
  rw [set_streams, window_test]

/-- A window that moves in 32 bits, against the exact sum. -/
theorem moved_eq_iff {window : ℤ} (fits : Fits window) {n : ℕ} (small : n < 2 ^ 32) :
    int32 (window + int32 n) = window + (n % 2 ^ 31 : ℕ) ↔
      n < 2 ^ 31 ∧ window + (n % 2 ^ 31 : ℕ) ≤ maxWindow := by
  by_cases reserved : n < 2 ^ 31
  · rw [Nat.mod_eq_of_lt reserved, int32_add_int32, int32_eq_self_iff]
    have low := fits.1
    exact ⟨fun fit => ⟨reserved, fit.2⟩, fun fit => ⟨by omega, fit.2⟩⟩
  -- With the reserved bit the two differ by half of the range.
  refine iff_of_false (fun eq => ?_) fun fit => reserved fit.1
  rw [int32_add_int32] at eq
  have cast : ((n % 2 ^ 31 : ℕ) : ℤ) = n - 2 ^ 31 := by omega
  have same : (window + n) % 2 ^ 32 = (window + (n % 2 ^ 31 : ℕ)) % 2 ^ 32 := by
    rw [← eq]
    exact (Int.bmod_emod).symm
  rw [cast] at same
  omega

theorem update_exact_iff {c : Conn} (within : c.allowance.Within) (sid : ℕ) (w x y z : UInt8) :
    c.MovesExactly (.update sid w x y z) ↔ c.SumsFit (.update sid w x y z) := by
  have small := readBe32_lt w x y z
  have bounded : ∀ {a : Allowance}, a.conn ≤ maxWindow → a.initial = c.srvInitialWindow →
      (∀ i, (c.streams i).inUse = true → a.streams i ≤ maxWindow) → a.Bounded c :=
    fun conn initial streams => ⟨conn, initial ▸ within.initial.2, streams⟩
  unfold MovesExactly SumsFit handleWindowFrame WindowFrame.IsZero
  dsimp only
  generalize value : readBe32 w x y z = n at *
  by_cases zero : n = 0
  · -- A zero increment fails, as it should.
    subst zero
    rw [handleWindowUpdate_zero c sid value]
    exact iff_of_true ⟨by simp, nofun⟩ (.inl rfl)
  by_cases stream : sid = 0
  · subst stream
    rw [handleWindowUpdate_conn c (value ▸ zero), value]
    have exactly' : c.exactly (.update 0 w x y z) =
        { c.allowance with conn := c.connSendWindow + (n % 2 ^ 31 : ℕ) } := by
      unfold exactly
      dsimp only
      rw [if_pos rfl, value]
    have moved := moved_eq_iff within.conn small
    change int32 (c.connSendWindow + int32 n) = c.connSendWindow + (n % 2 ^ 31 : ℕ) ↔ _ at moved
    constructor
    · rintro ⟨-, same⟩
      have conn := congrArg Allowance.conn (same rfl)
      rw [exactly'] at conn ⊢
      obtain ⟨clear, fit⟩ := moved.mp conn
      exact .inr (.inl ⟨clear, bounded fit rfl fun i _ => (within.streams i).2⟩)
    rintro (nothing | ⟨clear, bound⟩ | ⟨stream, -⟩)
    · exact absurd nothing zero
    · refine ⟨iff_of_true rfl ⟨?_, bound⟩, fun _ => ?_⟩
      · rwa [Nat.mod_eq_of_lt clear]
      have fit := bound.conn
      rw [exactly'] at fit ⊢
      show Allowance.mk _ _ _ _ = _
      rw [moved.mpr ⟨clear, fit⟩]
      rfl
    · exact absurd rfl stream
  cases found : c.streamFind sid with
  | none =>
    rw [handleWindowUpdate_lost stream found (value ▸ zero)]
    have exactly' : c.exactly (.update sid w x y z) = c.allowance := by
      unfold exactly
      dsimp only
      rw [if_neg stream, found]
      rfl
    rw [exactly']
    have bound : c.allowance.Bounded c := bounded within.conn.2 rfl fun i _ => (within.streams i).2
    constructor
    · rintro ⟨succeeds, -⟩
      exact .inr (.inr ⟨stream, rfl, (succeeds.mp rfl).1⟩)
    rintro (nothing | ⟨clear, -⟩ | ⟨-, -, pos⟩)
    · exact absurd nothing zero
    · refine ⟨iff_of_true rfl ⟨?_, bound⟩, fun _ => rfl⟩
      rwa [Nat.mod_eq_of_lt clear]
    · exact ⟨iff_of_true rfl ⟨pos, bound⟩, fun _ => rfl⟩
  | some i =>
    rw [handleWindowUpdate_stream stream found (value ▸ zero), value]
    have exactly' : c.exactly (.update sid w x y z) = { c.allowance with
        streams := Function.update c.allowance.streams i
          ((c.streams i).sendWindow + (n % 2 ^ 31 : ℕ)) } := by
      unfold exactly
      dsimp only
      rw [if_neg stream, found, value]
      congr 1
      funext j
      by_cases here : j = i
      · subst here
        rw [if_pos rfl, update_self]
      · rw [if_neg fun eq => here (Option.some.inj eq).symm, update_of_ne here]
        rfl
    have stored : ∀ s : Stream, (c.set i s).allowance = { c.allowance with
        streams := Function.update c.allowance.streams i s.sendWindow } := by
      intro s
      unfold allowance
      congr 1
      funext j
      exact apply_update (fun _ => Stream.sendWindow) c.streams i s j
    have moved := moved_eq_iff (within.streams i) small
    change int32 ((c.streams i).sendWindow + int32 n) =
      (c.streams i).sendWindow + (n % 2 ^ 31 : ℕ) ↔ _ at moved
    constructor
    · rintro ⟨succeeds, same⟩
      have window := congrFun (congrArg Allowance.streams (same rfl)) i
      rw [exactly', stored] at window
      dsimp only at window
      rw [update_self, update_self] at window
      exact .inr (.inl ⟨(moved.mp window).1, (succeeds.mp rfl).2⟩)
    rintro (nothing | ⟨clear, bound⟩ | ⟨-, lost, -⟩)
    · exact absurd nothing zero
    · refine ⟨iff_of_true rfl ⟨?_, bound⟩, fun _ => ?_⟩
      · rwa [Nat.mod_eq_of_lt clear]
      have fit := bound.streams i (streamFind_spec found).1
      rw [exactly'] at fit ⊢
      dsimp only at fit
      rw [update_self] at fit
      rw [stored, moved.mpr ⟨clear, fit⟩]
    · cases lost

/-! ## SETTINGS_INITIAL_WINDOW_SIZE -/

/-- The loop over the streams visits them all. -/
theorem shiftWindows_eq (delta : ℤ) (slots : List Slot) (nodup : slots.Nodup) (c : Conn) :
    shiftWindows delta slots c = ({ c with
          streams := fun j =>
            if j ∈ slots ∧ (c.streams j).inUse = true then
              { c.streams j with sendWindow := int32 ((c.streams j).sendWindow + delta) }
            else c.streams j }, true) := by
  induction slots generalizing c with
  | nil => simp [shiftWindows]
  | cons i slots ih =>
    obtain ⟨fresh, nodup⟩ := nodup_cons.mp nodup
    unfold shiftWindows
    dsimp only
    split
    · rename_i inUse
      have test := (fits_int32 ((c.streams i).sendWindow + delta)).2
      unfold maxWindow at test
      rw [if_neg (by
        rw [set_streams]
        dsimp only
        omega), ih nodup]
      refine Prod.ext ?_ rfl
      show Conn.mk .. = Conn.mk ..
      congr 1
      funext j
      show (if j ∈ slots ∧ (Function.update c.streams i _ j).inUse = true then _ else _) = _
      by_cases here : j = i
      · subst here
        rw [if_neg fun both => fresh both.1, if_pos ⟨mem_cons_self, inUse⟩]
        exact update_self ..
      have other : ∀ s : Stream, (c.set i s).streams j = c.streams j :=
        fun s => set_streams_of_ne c here s
      simp only [mem_cons, here, false_or, update_of_ne here, other]
    rename_i idle
    rw [ih nodup]
    refine Prod.ext ?_ rfl
    show Conn.mk .. = Conn.mk ..
    congr 1
    funext j
    by_cases here : j = i
    · subst here
      rw [if_neg fun both => fresh both.1, if_neg fun both => idle both.2]
    · simp only [mem_cons, here, false_or]

/-- The streams behind a new initial window. -/
def shifted (c : Conn) (val : ℕ) : Conn :=
  { c with
    srvInitialWindow := int32 val
    streams := fun i =>
      if (c.streams i).inUse = true then
        { c.streams i with
          sendWindow := int32 ((c.streams i).sendWindow + (val - c.srvInitialWindow)) }
      else c.streams i }

variable (w x y z : UInt8)

theorem applySettings_initial :
    applySettings [0, 4, w, x, y, z] c = (c.shifted (readBe32 w x y z), true) := by
  have shift : c.applySetting ((0 : UInt8).toNat <<< 8 ||| (4 : UInt8).toNat) (readBe32 w x y z) =
      (c.shifted (readBe32 w x y z), true) := by
    show c.applySetting 4 _ = _
    unfold applySetting shifted
    rw [shiftWindows_eq _ _ (nodup_finRange 8)]
    simp only [mem_finRange, true_and, int32_int32_sub, int32_add_int32]
  rw [applySettings, shift]
  rfl

/-- A frame that is short enough is written unless the socket is full. -/
theorem frameWrite_short {f : Frame} (short : f.payload.length ≤ 0xffffff) :
    (c.frameWrite f).2 = !decide (c.writable = some 0) := by
  unfold frameWrite
  rw [if_neg (Nat.not_lt.mpr short)]
  split
  · rename_i full
    rw [decide_eq_true full]
    rfl
  · rename_i n room
    rw [room, decide_eq_false (by simp)]
    rfl
  rename_i free
  rw [free]
  rfl

/-- A new initial window succeeds just if it can be acknowledged. -/
theorem handleSettings_initial :
    (c.handleSettings [0, 4, w, x, y, z]).2 = !decide (c.writable = some 0) ∧
      (c.handleSettings [0, 4, w, x, y, z]).1.allowance =
        (c.shifted (readBe32 w x y z)).allowance := by
  have ack := frameWrite_short (c.shifted (readBe32 w x y z))
    (f := ⟨.settings, flagAck, 0, []⟩) (Nat.zero_le _)
  have same := frameWrite_allowance (c.shifted (readBe32 w x y z)) ⟨.settings, flagAck, 0, []⟩
  unfold handleSettings
  rw [if_neg (by simp), applySettings_initial]
  dsimp only
  split
  · rename_i failed
    rw [failed] at ack same
    exact ⟨ack, same⟩
  rename_i written
  rw [written] at ack same
  exact ⟨ack, same⟩

variable (val : ℕ)

theorem shifted_initial : (c.shifted val).allowance.initial = int32 val := by
  simp only [allowance, shifted]

theorem shifted_streams {i : Slot} (inUse : (c.streams i).inUse = true) :
    (c.shifted val).allowance.streams i =
      int32 ((c.streams i).sendWindow + (val - c.srvInitialWindow)) := by
  show Stream.sendWindow (if _ then _ else _) = _
  rw [if_pos inUse]

/-- The stored windows are the exact ones just if these fit. -/
theorem shifted_exact_iff :
    (c.shifted (readBe32 w x y z)).allowance = c.exactly (.initial w x y z) ↔
      Fits (readBe32 w x y z) ∧
        ∀ i, (c.streams i).inUse = true → Fits ((c.exactly (.initial w x y z)).streams i) := by
  have exact_streams : ∀ {i}, (c.streams i).inUse = true →
      (c.exactly (.initial w x y z)).streams i =
        (c.streams i).sendWindow + (readBe32 w x y z - c.srvInitialWindow) := by
    intro i inUse
    exact if_pos inUse
  constructor
  · intro same
    refine ⟨?_, fun i inUse => ?_⟩
    · rw [← int32_eq_self_iff, ← shifted_initial, same]
      rfl
    · rw [← int32_eq_self_iff, exact_streams inUse, ← shifted_streams c _ inUse, same,
        exact_streams inUse]
  rintro ⟨initial, streams⟩
  refine Allowance.ext rfl ?_ (funext fun i => ?_) rfl
  · rw [shifted_initial, (int32_eq_self_iff _).mpr initial]
    rfl
  by_cases inUse : (c.streams i).inUse = true
  · have fits := streams i inUse
    rw [exact_streams inUse] at fits ⊢
    rw [shifted_streams c _ inUse, (int32_eq_self_iff _).mpr fits]
  · exact (congrArg Stream.sendWindow (if_neg inUse)).trans (if_neg inUse).symm

theorem initial_exact_iff : c.MovesExactly (.initial w x y z) ↔ c.SumsFit (.initial w x y z) := by
  obtain ⟨succeeds, stored⟩ := handleSettings_initial c w x y z
  unfold MovesExactly SumsFit handleWindowFrame WindowFrame.IsZero
  dsimp only
  rw [succeeds, stored, shifted_exact_iff]
  by_cases mute : c.writable = some 0
  · rw [if_pos mute, decide_eq_true mute]
    constructor
    · rintro ⟨fails, -⟩ bound
      exact absurd (fails.mpr ⟨not_false, bound⟩) (by decide)
    · intro unbounded
      exact ⟨iff_of_false (by decide) fun both => unbounded both.2,
        fun done => absurd done (by decide)⟩
  rw [if_neg mute, decide_eq_false mute]
  constructor
  · rintro ⟨succeeds, fits⟩
    exact ⟨(succeeds.mp rfl).2, fun i inUse => ((fits rfl).2 i inUse).1⟩
  rintro ⟨bound, low⟩
  refine ⟨iff_of_true rfl ⟨not_false, bound⟩, fun _ => ⟨⟨?_, bound.initial⟩, fun i inUse => ?_⟩⟩
  · exact (by decide : (-2 ^ 31 : ℤ) ≤ 0).trans (Int.natCast_nonneg _)
  · exact ⟨low i inUse, bound.streams i inUse⟩

end Conn

/-- **The send windows are exact** just if the sums stay within 32 bits and the reserved
bit does no harm. -/
theorem send_windows_exact_iff {c : Client} (reachable : clients.Reachable c) (f : WindowFrame) :
    c.conn.MovesExactly f ↔ c.conn.SumsFit f := by
  have within := Client.within_of_reachable reachable
  cases f with
  | update sid w x y z => exact Conn.update_exact_iff within sid w x y z
  | initial w x y z => exact c.conn.initial_exact_iff w x y z

/-- A unary call that waits for its response, and an increment for its stream. -/
theorem send_windows_exact_open :
    ∃ c, clients.Reachable c ∧ c.conn.streamFind 1 = some 0 ∧
      c.conn.MovesExactly (.update 1 0 0 0 5) := by
  have run : (clients.exec (.connecting (ascii "k8s"))
      [.frame ⟨.settings, 0, 0, []⟩, .check, .unary (ascii "/v/A") [1, 2, 3] none]).any (fun c =>
        decide (c.conn.streamFind 1 = some 0 ∧
          (c.conn.exactly (.update 1 0 0 0 5)).conn ≤ maxWindow ∧
          (c.conn.exactly (.update 1 0 0 0 5)).initial ≤ maxWindow ∧
          ∀ i, (c.conn.streams i).inUse = true →
            (c.conn.exactly (.update 1 0 0 0 5)).streams i ≤ maxWindow)) = true := by
    decide +kernel
  obtain ⟨c, reachable, facts⟩ := Machine.Reachable.of_any run ⟨_, rfl⟩
  obtain ⟨found, conn, initial, streams⟩ := of_decide_eq_true facts
  exact ⟨c, reachable, found, (send_windows_exact_iff reachable _).mpr
    (.inr (.inl ⟨by decide, conn, initial, streams⟩))⟩

/-- **A window wraps around.** The largest increment on a new connection is accepted, and leaves a
negative window where the exact one is too large. An increment with the reserved bit lowers the
window. -/
theorem send_window_wraps :
    clients.Reachable (.connecting []) ∧
      ¬ (Client.connecting []).conn.MovesExactly (.update 0 0x7f 0xff 0xff 0xff) ∧
      ((Client.connecting []).conn.handleWindowUpdate 0 [0x7f, 0xff, 0xff, 0xff]).2 = true ∧
      ((Client.connecting []).conn.handleWindowUpdate 0
        [0x7f, 0xff, 0xff, 0xff]).1.connSendWindow = -2147418114 ∧
      ((Client.connecting []).conn.handleWindowUpdate 0 [0x80, 0, 0, 1]).2 = true ∧
      ((Client.connecting []).conn.handleWindowUpdate 0 [0x80, 0, 0, 1]).1.connSendWindow =
        -2147418112 := by
  refine ⟨.initial ⟨[], rfl⟩, fun exact' => ?_, by decide, by decide, by decide, by decide⟩
  have same := congrArg Allowance.conn (exact'.2 (by decide))
  exact absurd same (by decide)

end Strimserver.H2c
