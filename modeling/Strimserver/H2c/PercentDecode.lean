import Mathlib.Data.List.Basic
import Strimserver.Library.Octets

/-!
# The message of a status

`percent_decode` undoes the encoding of `grpc-message`. It looks two octets ahead for an
escape. The reads of the model are checked, so that one behind the input would show;
`unescape` says what a text stands for, stray percent signs included.
-/

namespace Strimserver.H2c

open List Option

/-! ## The function -/

/-- The value of a hexadecimal digit. -/
def hexValue (c : UInt8) : Option ℕ :=
  if 0x30 ≤ c ∧ c ≤ 0x39 then some (c.toNat - 0x30)
  else if 0x61 ≤ c ∧ c ≤ 0x66 then some (c.toNat - 0x61 + 10)
  else if 0x41 ≤ c ∧ c ≤ 0x46 then some (c.toNat - 0x41 + 10)
  else none

/-- The octet of two digits. -/
def escaped (hi lo : UInt8) : Option UInt8 := do
  let hv ← hexValue hi
  let lv ← hexValue lo
  return UInt8.ofNat (hv <<< 4 ||| lv)

/-- A round of `percent_decode`: the octet it writes, and how far it goes. Nothing is returned
when a read is not inside the input. -/
def percentRound (input : Octets) (i : ℕ) : Option (UInt8 × ℕ) := do
  let c ← input[i]?
  if c = 0x25 ∧ i + 2 < input.length then
    let hi ← input[i + 1]?
    let lo ← input[i + 2]?
    return ((escaped hi lo).map (·, 3)).getD (c, 1)
  else return (c, 1)

/-- The loop of `percent_decode`. -/
def percentLoop (input : Octets) (outCap : ℕ) : ℕ → ℕ → Octets → Option Octets
  | 0, _, _ => none
  | fuel + 1, i, out =>
    if i < input.length ∧ out.length + 1 < outCap then
      (percentRound input i).bind fun (b, n) => percentLoop input outCap fuel (i + n) (out ++ [b])
    else some out

/-- `percent_decode`: the text before the terminator. -/
def percentDecode (input : Octets) (outCap : ℕ) : Option Octets :=
  percentLoop input outCap (input.length + 1) 0 []

/-! ## What a text stands for -/

/-- What an octet stands for with a text behind it, and how much of the text belongs to it: a
percent sign without two digits behind it stands for itself. -/
def reading (c : UInt8) : Octets → UInt8 × ℕ
  | hi :: lo :: _ => if c = 0x25 then ((escaped hi lo).map (·, 2)).getD (c, 0) else (c, 0)
  | _ => (c, 0)

def unescape : Octets → Octets
  | [] => []
  | c :: text => (reading c text).1 :: unescape (text.drop (reading c text).2)
  termination_by text => text.length
  decreasing_by
    rw [length_drop, length_cons]
    omega

/-- The encodings of a message: a printable octet other than the percent sign may stand for
itself, and every octet may be escaped. -/
inductive Encodes : Octets → Octets → Prop where
  | nil : Encodes [] []
  | literal {c : UInt8} {m text : Octets} (printable : 0x20 ≤ c ∧ c ≤ 0x7E) (other : c ≠ 0x25) :
      Encodes m text → Encodes (c :: m) (c :: text)
  | escape {c hi lo : UInt8} {m text : Octets} (high : hexValue hi = some (c.toNat / 16))
      (low : hexValue lo = some (c.toNat % 16)) :
      Encodes m text → Encodes (c :: m) (0x25 :: hi :: lo :: text)

theorem Encodes.unescape_eq {m text : Octets} (encodes : Encodes m text) : unescape text = m := by
  induction encodes with
  | nil => rw [unescape]
  | @literal c m text printable other _ ih =>
    have plain : reading c text = (c, 0) := by
      unfold reading
      split
      · exact if_neg other
      · rfl
    rw [unescape, plain, drop_zero, ih]
  | @escape c hi lo m text high low _ ih =>
    have octet : (c.toNat / 16) <<< 4 ||| c.toNat % 16 = c.toNat := by
      rw [← Nat.shiftLeft_add_eq_or_of_lt (show c.toNat % 16 < 2 ^ 4 by omega), Nat.shiftLeft_eq]
      omega
    have digits : escaped hi lo = some c := by
      rw [escaped, high, low]
      exact congrArg some ((congrArg UInt8.ofNat octet).trans UInt8.ofNat_toNat)
    rw [unescape, reading, if_pos rfl, digits]
    exact congrArg (c :: ·) ih

/-! ## The loop -/

/-- **A round** reads inside the input, and takes an escape for its octet. -/
theorem percentRound_eq {input text : Octets} {i : ℕ} {c : UInt8} (at' : input.drop i = c :: text) :
    percentRound input i = some ((reading c text).1, (reading c text).2 + 1) := by
  have get (j : ℕ) : input[i + j]? = (c :: text)[j]? := by rw [← at', List.getElem?_drop]
  have length : text.length + 1 = input.length - i := by rw [← length_drop, at']; rfl
  rw [percentRound, show input[i]? = some c from get 0, bind_eq_bind, bind_some]
  rcases text with _ | ⟨hi, _ | ⟨lo, text⟩⟩
  · exact if_neg fun both => by simp at length; omega
  · exact if_neg fun both => by simp at length; omega
  simp only [length_cons] at length
  rw [reading, show input[i + 1]? = some hi from get 1, show input[i + 2]? = some lo from get 2]
  by_cases percent : c = 0x25
  · rw [if_pos ⟨percent, by omega⟩, if_pos percent, bind_some, bind_some]
    cases escaped hi lo <;> rfl
  · rw [if_neg fun both => percent both.1, if_neg percent]
    rfl

/-- The loop writes what the rest of the input stands for, as far as there is room. -/
theorem percentLoop_eq {input out : Octets} {outCap i fuel : ℕ}
    (enough : (input.drop i).length < fuel) : percentLoop input outCap fuel i out =
      some (out ++ (unescape (input.drop i)).take (outCap - 1 - out.length)) := by
  induction fuel generalizing i out with
  | zero => cases enough
  | succ fuel ih =>
    by_cases room : out.length + 1 < outCap
    swap
    · rw [percentLoop, if_neg fun both => room both.2, show outCap - 1 - out.length = 0 by omega,
        take_zero, append_nil]
    rcases at' : input.drop i with _ | ⟨c, text⟩
    · rw [percentLoop, if_neg fun both => absurd both.1 (Nat.not_lt.mpr (drop_eq_nil_iff.mp at')),
        unescape, take_nil, append_nil]
    have inside : i < input.length := by
      rw [← drop_eq_nil_iff.not.trans Nat.not_le, at']
      nofun
    rw [at', length_cons] at enough
    rw [percentLoop, if_pos ⟨inside, room⟩, percentRound_eq at', bind_some, unescape]
    generalize reading c text = read
    dsimp only
    have next : input.drop (i + (read.2 + 1)) = text.drop read.2 := by
      rw [← drop_drop, at', drop_succ_cons]
    rw [ih (by rw [next, length_drop]; omega), next, length_append, length_singleton,
      show outCap - 1 - out.length = outCap - 1 - (out.length + 1) + 1 by omega, take_succ_cons,
      append_assoc]
    rfl

/-- **Percent decoding.** Every encoding of a message decodes to it when there is room. Any input is
read inside its bounds and gives what it stands for as far as there is room. -/
theorem percent_decode_inverts :
    (∀ m text outCap, 0 ∉ m → Encodes m text → m.length < outCap →
      percentDecode text outCap = some m) ∧
    ∀ input outCap, 0 < outCap →
      percentDecode input outCap = some ((unescape input).take (outCap - 1)) := by
  have decoded (input : Octets) (outCap : ℕ) :
      percentDecode input outCap = some ((unescape input).take (outCap - 1)) :=
    percentLoop_eq (Nat.lt_succ_self _)
  refine ⟨fun m text outCap _ encodes room => ?_, fun input outCap _ => decoded input outCap⟩
  rw [decoded, encodes.unescape_eq, take_of_length_le (Nat.le_sub_one_of_lt room)]

/-- A stray percent sign before an escape, and an escape that is cut off. -/
theorem percent_decode_stray :
    Encodes (ascii "a%") (ascii "a%25") ∧ percentDecode (ascii "a%25") 512 = some (ascii "a%") ∧
      percentDecode (ascii "%%41%4") 512 = some (ascii "%A%4") :=
  have encodes : Encodes (ascii "a%") (ascii "a%25") :=
    .literal (by decide) (by decide) (.escape (by decide) (by decide) .nil)
  ⟨encodes, percent_decode_inverts.1 _ _ _ (by decide) encodes (by decide), by decide +kernel⟩

end Strimserver.H2c
