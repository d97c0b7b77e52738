import Mathlib.Tactic.Ring
import Strimserver.Hpack.Huffman

/-!
# Integers

`hpack_read_int` and `hpack_write_int_ex` of `h2c.c`, and the integers of
section 5.1 of RFC 7541: a value below the mask of the prefix stands in the
first octet, and any other is the mask plus the little-endian number in base 128
that follows, whose octets but the last have their highest bit set.

The reader stops after five octets of that number and refuses values from 2³¹
on, so its 64-bit sum does not wrap. The reference has no such limits; it counts
the octets, so that the limits can be stated about what it reads.
-/

namespace Strimserver.Hpack

open List Option

/-! ## Octets as numbers -/

/-- A statement about all octets. -/
theorem forall_octet {P : UInt8 → Prop} (all : ∀ i : Fin 256, P (UInt8.ofFin i)) (b : UInt8) :
    P b := all b.toFin

theorem octet_and_low (b : UInt8) : (b &&& 0x7f).toNat = b.toNat % 128 :=
  forall_octet (P := fun b => (b &&& 0x7f).toNat = b.toNat % 128) (by decide +kernel) b

theorem octet_and_high (b : UInt8) : b &&& 0x80 = 0 ↔ b.toNat < 128 :=
  forall_octet (P := fun b => b &&& 0x80 = 0 ↔ b.toNat < 128) (by decide +kernel) b

/-! ## Reading -/

/-- The loop of `hpack_read_int` over the octets after the first: the value and
the offset behind it. -/
def hpackReadIntLoop : Octets → (off value shift : ℕ) → Option (ℕ × ℕ)
  | [], _, _, _ => none
  | b :: rest, off, value, shift =>
    let value := value + (b &&& 0x7f).toNat <<< shift
    if b &&& 0x80 = 0 then some (value, off + 1)
    else if 28 < shift + 7 then none
    else hpackReadIntLoop rest (off + 1) value (shift + 7)

/-- `hpack_read_int`: the value and the number of octets that were consumed. -/
def hpackReadInt (input : Octets) (width : ℕ) : Option (ℕ × ℕ) :=
  let mask := 2 ^ width - 1
  match input with
  | [] => none
  | b :: rest =>
    let value := b.toNat &&& mask
    if value < mask then some (value, 1)
    else
      match hpackReadIntLoop rest 1 value 0 with
      | none => none
      | some (value, off) => if 0x7fffffff < value then none else some (value, off)

/-- An integer as it was read: its value, and the number of octets that follow
the first. -/
structure WireInt where
  value : ℕ
  octets : ℕ
  deriving DecidableEq

namespace Reference

/-- The octets after the first. -/
def readContinuation : Octets → Option (WireInt × Octets)
  | [] => none
  | b :: rest =>
    if b.toNat < 128 then some (⟨b.toNat, 1⟩, rest)
    else (readContinuation rest).map fun read =>
      (⟨b.toNat % 128 + 128 * read.1.value, read.1.octets + 1⟩, read.2)

/-- An integer with a prefix of the given width, and the octets behind it. -/
def readInteger (width : ℕ) : Octets → Option (WireInt × Octets)
  | [] => none
  | b :: rest =>
    if b.toNat % 2 ^ width < 2 ^ width - 1 then some (⟨b.toNat % 2 ^ width, 0⟩, rest)
    else (readContinuation rest).map fun read =>
      (⟨2 ^ width - 1 + read.1.value, read.1.octets⟩, read.2)

end Reference

variable {input rest : Octets} {w : WireInt}

theorem readContinuation_rest (read : Reference.readContinuation input = some (w, rest)) :
    0 < w.octets ∧ rest = input.drop w.octets ∧ w.octets ≤ input.length := by
  induction input generalizing w with
  | nil => cases read
  | cons b input ih =>
    unfold Reference.readContinuation at read
    split at read
    · cases read
      exact ⟨Nat.one_pos, rfl, by simp⟩
    obtain ⟨⟨w', rest'⟩, read', eq⟩ := map_eq_some_iff.mp read
    cases eq
    obtain ⟨-, dropped, le⟩ := ih read'
    exact ⟨Nat.succ_pos _, dropped, by simpa using le⟩

variable {width : ℕ} {enc : Octets}

theorem readInteger_rest (read : Reference.readInteger width input = some (w, rest)) :
    rest = input.drop (w.octets + 1) ∧ w.octets + 1 ≤ input.length := by
  rcases input with _ | ⟨b, input⟩
  · cases read
  rw [Reference.readInteger] at read
  split at read
  · cases read
    exact ⟨rfl, by simp⟩
  obtain ⟨⟨w', rest'⟩, read', eq⟩ := map_eq_some_iff.mp read
  cases eq
  obtain ⟨-, dropped, le⟩ := readContinuation_rest read'
  exact ⟨dropped, by simpa using le⟩

/-- The loop reads the reference's number while no more than five octets come. -/
theorem hpackReadIntLoop_eq (off value k : ℕ)
    (read : Reference.readContinuation input = some (w, rest)) (short : k + w.octets ≤ 5) :
    hpackReadIntLoop input off value (7 * k) =
      some (value + w.value * 2 ^ (7 * k), off + w.octets) := by
  induction input generalizing w off value k with
  | nil => cases read
  | cons b input ih =>
    unfold Reference.readContinuation at read
    unfold hpackReadIntLoop
    simp only [octet_and_high, octet_and_low, Nat.shiftLeft_eq]
    split_ifs at read with last
    · cases read
      rw [if_pos last, Nat.mod_eq_of_lt last]
    obtain ⟨⟨w', rest'⟩, read', eq⟩ := map_eq_some_iff.mp read
    cases eq
    have positive := (readContinuation_rest read').1
    have within : ¬ 28 < 7 * k + 7 := by
      simp only at short
      omega
    have next : 7 * k + 7 = 7 * (k + 1) := by omega
    rw [if_neg last, if_neg within, next, ih _ _ _ read' (by simp only at short; omega)]
    have power : 2 ^ (7 * (k + 1)) = 128 * 2 ^ (7 * k) := by
      rw [Nat.mul_succ, Nat.pow_add, Nat.mul_comm]
    rw [power]
    congr 2
    · ring
    · simp only
      omega

/-- **Reading an integer.** Up to five octets and below 2³¹ the reader returns the
value that the reference reads, and consumes its octets. -/
theorem hpackReadInt_eq (read : Reference.readInteger width input = some (w, rest))
    (short : w.octets ≤ 5) (small : w.value < 2 ^ 31) :
    hpackReadInt input width = some (w.value, w.octets + 1) := by
  rcases input with _ | ⟨b, input⟩
  · cases read
  rw [Reference.readInteger] at read
  unfold hpackReadInt
  simp only [Nat.and_two_pow_sub_one_eq_mod]
  split_ifs at read with below
  · cases read
    rw [if_pos below]
  obtain ⟨⟨w', rest'⟩, read', eq⟩ := map_eq_some_iff.mp read
  cases eq
  have mask : b.toNat % 2 ^ width = 2 ^ width - 1 := by omega
  have loop := hpackReadIntLoop_eq 1 (b.toNat % 2 ^ width) 0 read' (by simpa using short)
  rw [if_neg below]
  rw [Nat.mul_zero, Nat.pow_zero, Nat.mul_one, mask] at loop
  rw [mask, loop]
  have fits : ¬ 0x7fffffff < 2 ^ width - 1 + w'.value := by
    simp only at small
    omega
  dsimp only
  rw [if_neg fits, Nat.add_comm 1]

/-- The loop of `hpack_read_int` with its sum in 64 bits. -/
def hpackReadIntLoop64 : Octets → (off value shift : ℕ) → Option (ℕ × ℕ)
  | [], _, _, _ => none
  | b :: rest, off, value, shift =>
    let value := (value + (b &&& 0x7f).toNat <<< shift) % 2 ^ 64
    if b &&& 0x80 = 0 then some (value, off + 1)
    else if 28 < shift + 7 then none
    else hpackReadIntLoop64 rest (off + 1) value (shift + 7)

/-- The sum does not wrap: it stays a little above the octets that were read. -/
theorem hpackReadIntLoop64_eq (input : Octets) {off value shift : ℕ} (few : shift ≤ 28)
    (small : value < 2 ^ (shift + 8)) :
    hpackReadIntLoop64 input off value shift = hpackReadIntLoop input off value shift := by
  induction input generalizing off value shift with
  | nil => rfl
  | cons b input ih =>
    have bound : value + (b.toNat % 128) * 2 ^ shift < 2 ^ (shift + 7 + 8) := by
      have digit := Nat.mul_le_mul_right (2 ^ shift) (show b.toNat % 128 ≤ 127 by omega)
      rw [Nat.pow_add] at small
      rw [Nat.add_assoc, Nat.pow_add]
      omega
    have below : 2 ^ (shift + 7 + 8) ≤ 2 ^ 64 := Nat.pow_le_pow_right (by decide) (by omega)
    unfold hpackReadIntLoop64 hpackReadIntLoop
    simp only [octet_and_low, Nat.shiftLeft_eq, Nat.mod_eq_of_lt (bound.trans_le below)]
    split_ifs with last beyond
    · rfl
    · rfl
    · exact ih (Nat.not_lt.mp beyond) bound

/-- What the loop has read is the reference's number. -/
theorem hpackReadIntLoop_sound {off value k v n : ℕ}
    (read : hpackReadIntLoop input off value (7 * k) = some (v, n)) :
    ∃ w, n = off + w.octets ∧ v = value + w.value * 2 ^ (7 * k) ∧
      Reference.readContinuation (input.take w.octets) = some (w, []) := by
  induction input generalizing off value k with
  | nil => cases read
  | cons b input ih =>
    unfold hpackReadIntLoop at read
    simp only [octet_and_high, octet_and_low, Nat.shiftLeft_eq] at read
    split_ifs at read with last
    · cases read
      refine ⟨⟨b.toNat, 1⟩, rfl, by rw [Nat.mod_eq_of_lt last], ?_⟩
      simp [Reference.readContinuation, last]
    obtain ⟨w, rfl, rfl, more⟩ := ih (k := k + 1) read
    refine ⟨⟨b.toNat % 128 + 128 * w.value, w.octets + 1⟩, Nat.add_right_comm .., by ring, ?_⟩
    rw [take_succ_cons, Reference.readContinuation, if_neg last, more, map_some]

/-- **What is read is exact**, and was there. -/
theorem hpackReadInt_sound {v n : ℕ} (read : hpackReadInt input width = some (v, n)) :
    n ≤ input.length ∧ Reference.readInteger width (input.take n) = some (⟨v, n - 1⟩, []) := by
  rcases input with _ | ⟨b, input⟩
  · cases read
  suffices exact : Reference.readInteger width ((b :: input).take n) = some (⟨v, n - 1⟩, []) by
    have inside : n - 1 + 1 ≤ ((b :: input).take n).length := (readInteger_rest exact).2
    rw [length_take] at inside
    exact ⟨by omega, exact⟩
  unfold hpackReadInt at read
  simp only [Nat.and_two_pow_sub_one_eq_mod] at read
  split_ifs at read with below
  · cases read
    simp [Reference.readInteger, below]
  split at read
  · cases read
  rename_i loop
  split_ifs at read
  cases read
  obtain ⟨w, rfl, rfl, more⟩ := hpackReadIntLoop_sound (k := 0) loop
  have mask : b.toNat % 2 ^ width = 2 ^ width - 1 := by omega
  rw [Nat.add_comm 1, take_succ_cons, Reference.readInteger, if_neg below, more, mask]
  simp

/-! ## Writing -/

/-- The loop of `hpack_write_int_ex` and the octet after it, with the room that
is left. A 32-bit value takes at most five octets, which bounds the loop. -/
def hpackWriteIntLoop : ℕ → (cap value : ℕ) → Option Octets
  | 0, _, _ => none
  | fuel + 1, cap, value =>
    if 0x80 ≤ value then
      if cap = 0 then none
      else (hpackWriteIntLoop fuel (cap - 1) (value >>> 7)).map
        (UInt8.ofNat ((value &&& 0x7f) ||| 0x80) :: ·)
    else if cap = 0 then none
    else some [UInt8.ofNat value]

/-- `hpack_write_int_ex`, with the octets that were written; the return value
zero is no result. -/
def hpackWriteIntEx (cap value width pattern : ℕ) : Option Octets :=
  let mask := 2 ^ width - 1
  if value < mask then
    if cap = 0 then none else some [UInt8.ofNat (pattern ||| value)]
  else if cap = 0 then none
  else (hpackWriteIntLoop 5 (cap - 1) (value - mask)).map (UInt8.ofNat (pattern ||| mask) :: ·)

theorem low_or_high (v : ℕ) : (v &&& 0x7f) ||| 0x80 = v % 128 + 128 := by
  have low : v &&& 0x7f = v % 128 := Nat.and_two_pow_sub_one_eq_mod v 7
  have lt : v % 128 < 2 ^ 7 := Nat.mod_lt _ (by decide)
  have joined : 128 + v % 128 = 128 ||| v % 128 := Nat.two_pow_add_eq_or_of_lt lt 1
  rw [low, Nat.or_comm, ← joined, Nat.add_comm]

theorem readContinuation_written {fuel cap v : ℕ}
    (written : hpackWriteIntLoop fuel cap v = some enc) (rest : Octets) :
    Reference.readContinuation (enc ++ rest) = some (⟨v, enc.length⟩, rest) := by
  induction fuel generalizing cap v enc with
  | zero => cases written
  | succ fuel ih =>
    unfold hpackWriteIntLoop at written
    split at written
    · split at written
      · cases written
      obtain ⟨enc', written', rfl⟩ := map_eq_some_iff.mp written
      have octet : (UInt8.ofNat ((v &&& 0x7f) ||| 0x80)).toNat = v % 128 + 128 := by
        rw [low_or_high, UInt8.toNat_ofNat']
        omega
      have more : ¬ v % 128 + 128 < 128 := by omega
      rw [cons_append, Reference.readContinuation, octet, if_neg more, ih written']
      simp only [map_some, length_cons, Nat.shiftRight_eq_div_pow]
      congr 3
      omega
    rename_i last
    split at written <;> cases written
    have octet : (UInt8.ofNat v).toNat = v := by
      rw [UInt8.toNat_ofNat']
      omega
    rw [singleton_append, Reference.readContinuation, octet, if_pos (Nat.not_le.mp last)]
    rfl

/-- **Writing and reading an integer.** The first octet is the pattern plus the
value, or plus the mask; the reference reads the value back. -/
theorem readInteger_written {cap value pattern : ℕ}
    (written : hpackWriteIntEx cap value width pattern = some enc)
    (aligned : pattern % 2 ^ width = 0) (fits : pattern + 2 ^ width ≤ 256) :
    ∃ b tail, enc = b :: tail ∧ b.toNat = pattern + min value (2 ^ width - 1) ∧
      ∀ rest, Reference.readInteger width (enc ++ rest) = some (⟨value, tail.length⟩, rest) := by
  have first : ∀ v, v < 2 ^ width → (UInt8.ofNat (pattern ||| v)).toNat = pattern + v := by
    intro v lt
    obtain ⟨k, rfl⟩ := Nat.dvd_of_mod_eq_zero aligned
    rw [← Nat.two_pow_add_eq_or_of_lt lt k, UInt8.toNat_ofNat']
    omega
  have low : ∀ v, v < 2 ^ width → (pattern + v) % 2 ^ width = v := by
    intro v lt
    rw [Nat.add_mod, aligned, Nat.zero_add, Nat.mod_mod, Nat.mod_eq_of_lt lt]
  unfold hpackWriteIntEx at written
  dsimp only at written
  split at written
  · rename_i below
    have lt : value < 2 ^ width := by omega
    split at written <;> cases written
    refine ⟨_, [], rfl, ?_, fun rest => ?_⟩
    · rw [first value lt, Nat.min_eq_left (Nat.le_of_lt below)]
    rw [singleton_append, Reference.readInteger, first value lt, low value lt, if_pos below]
    rfl
  rename_i above
  have lt : 2 ^ width - 1 < 2 ^ width := by omega
  have le := Nat.not_lt.mp above
  split at written
  · cases written
  obtain ⟨tail, written', rfl⟩ := map_eq_some_iff.mp written
  refine ⟨_, tail, rfl, ?_, fun rest => ?_⟩
  · rw [first _ lt, Nat.min_eq_right le]
  rw [cons_append, Reference.readInteger, first _ lt, low _ lt, if_neg (Nat.lt_irrefl _),
    readContinuation_written written' rest, map_some, Nat.add_sub_cancel' le]

end Strimserver.Hpack
