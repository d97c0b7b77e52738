import Mathlib.Data.FinEnum
import Strimserver.Library.Octets

/-!
# Base64

`strim_base64_encode` and `strim_base64_decode` of `ws_crypto.c`, group by group.

What is decoded is what was encoded. But a group is checked by itself: padding is accepted in
every group and not only at the end, so the decoder takes more than the padded strings of
RFC 4648, and as many as sixteen groups for the sixteen octets of a key.
-/

namespace Strimserver.Http

open List Option

/-! ## The functions -/

/-- `b64_alphabet`. -/
def b64Alphabet : Octets := ascii "ABCDEFGHIJKLMNOPQRSTUVWXYZabcdefghijklmnopqrstuvwxyz0123456789+/"

/-- `b64_alphabet[v & 0x3f]`. -/
def b64Char (v : ℕ) : UInt8 := b64Alphabet.getD (v &&& 0x3F) 0

/-- `b64_value`. -/
def b64Value (c : UInt8) : Option ℕ :=
  if 0x41 ≤ c ∧ c ≤ 0x5A then some (c.toNat - 0x41)
  else if 0x61 ≤ c ∧ c ≤ 0x7A then some (c.toNat - 0x61 + 26)
  else if 0x30 ≤ c ∧ c ≤ 0x39 then some (c.toNat - 0x30 + 52)
  else if c = 0x2B then some 62
  else if c = 0x2F then some 63
  else none

/-- The groups of `strim_base64_encode`. -/
def encodeGroups : Octets → Octets
  | a :: b :: c :: rest =>
    let v := a.toNat <<< 16 ||| b.toNat <<< 8 ||| c.toNat
    b64Char (v >>> 18) :: b64Char (v >>> 12) :: b64Char (v >>> 6) :: b64Char v :: encodeGroups rest
  | [a, b] =>
    let v := a.toNat <<< 16 ||| b.toNat <<< 8
    [b64Char (v >>> 18), b64Char (v >>> 12), b64Char (v >>> 6), 0x3D]
  | [a] =>
    let v := a.toNat <<< 16
    [b64Char (v >>> 18), b64Char (v >>> 12), 0x3D, 0x3D]
  | [] => []

/-- `strim_base64_encode`. -/
def base64Encode (cap : ℕ) (src : Octets) : Option Octets :=
  if cap < 4 * ((src.length + 2) / 3) + 1 then none else some (encodeGroups src)

/-- The value of a character that may be a pad. -/
def padValue (c : UInt8) : Option ℕ := if c = 0x3D then some 0 else b64Value c

/-- The octets of a group of `strim_base64_decode`. -/
def decodeGroup (a b c d : UInt8) : Option Octets := do
  let v0 ← b64Value a
  let v1 ← b64Value b
  let v2 ← padValue c
  let v3 ← padValue d
  if c = 0x3D ∧ d ≠ 0x3D then none
  else some (UInt8.ofNat (v0 <<< 2 ||| v1 >>> 4) ::
    ((if c ≠ 0x3D then [UInt8.ofNat (v1 <<< 4 ||| v2 >>> 2)] else []) ++
      if d ≠ 0x3D then [UInt8.ofNat (v2 <<< 6 ||| v3)] else []))

/-- The loop of `strim_base64_decode`, with `o` octets written. -/
def decodeGroups (cap : ℕ) : ℕ → Octets → Option Octets
  | _, [] => some []
  | o, a :: b :: c :: d :: rest => do
    let out ← decodeGroup a b c d
    if cap < o + out.length then none
    else
      let more ← decodeGroups cap (o + out.length) rest
      some (out ++ more)
  | _, _ => none

/-- `strim_base64_decode`. -/
def base64Decode (cap : ℕ) (input : Octets) : Option Octets :=
  if input.length = 0 ∨ input.length % 4 ≠ 0 then none else decodeGroups cap 0 input

/-- The test of a key in `dispatch_subscribe`, with a buffer of 16 octets. -/
def keyAccepted (key : Octets) : Bool := (base64Decode 16 key).any fun out => out.length = 16

/-! ## The round trip -/

theorem b64Value_b64Char (v : ℕ) : b64Value (b64Char v) = some (v % 64) := by
  have table : ∀ n < 64, b64Value (b64Alphabet.getD n 0) = some n := by decide +kernel
  rw [b64Char, Nat.and_two_pow_sub_one_eq_mod v 6]
  exact table (v % 64) (Nat.mod_lt _ (by decide))

theorem b64Char_ne_pad (v : ℕ) : b64Char v ≠ 0x3D := by
  intro pad
  have value := b64Value_b64Char v
  rw [pad] at value
  cases value

theorem word_eq (a b c : UInt8) :
    a.toNat <<< 16 ||| b.toNat <<< 8 ||| c.toNat = a.toNat * 65536 + b.toNat * 256 + c.toNat := by
  have second := b.toNat_lt
  have third := c.toNat_lt
  rw [Nat.or_assoc, ← Nat.shiftLeft_add_eq_or_of_lt third, Nat.shiftLeft_eq b.toNat,
    ← Nat.shiftLeft_add_eq_or_of_lt (by omega), Nat.shiftLeft_eq]
  omega

/-- The octets of three, from the sextets of their word. -/
theorem octets_of_sextets (a b c : UInt8) : let v := a.toNat <<< 16 ||| b.toNat <<< 8 ||| c.toNat
    UInt8.ofNat ((v >>> 18 % 64) <<< 2 ||| (v >>> 12 % 64) >>> 4) = a ∧
      UInt8.ofNat ((v >>> 12 % 64) <<< 4 ||| (v >>> 6 % 64) >>> 2) = b ∧
      UInt8.ofNat ((v >>> 6 % 64) <<< 6 ||| v % 64) = c := by
  have octet : ∀ {x : ℕ} {o : UInt8}, x % 256 = o.toNat → UInt8.ofNat x = o :=
    fun same => UInt8.toNat_inj.mp (UInt8.toNat_ofNat'.trans same)
  have first := a.toNat_lt
  have second := b.toNat_lt
  have third := c.toNat_lt
  rw [word_eq]
  simp only [Nat.shiftRight_eq_div_pow]
  refine ⟨octet ?_, octet ?_, octet ?_⟩
  · rw [← Nat.shiftLeft_add_eq_or_of_lt (by omega), Nat.shiftLeft_eq]
    omega
  · rw [← Nat.shiftLeft_add_eq_or_of_lt (by omega), Nat.shiftLeft_eq]
    omega
  · rw [← Nat.shiftLeft_add_eq_or_of_lt (by omega), Nat.shiftLeft_eq]
    omega

variable {a b c d : UInt8} {out : Octets} {pads : ℕ}

theorem decodeGroups_cons {cap o : ℕ} {more rest : Octets} (group : decodeGroup a b c d = some out)
    (room : o + out.length ≤ cap) (behind : decodeGroups cap (o + out.length) rest = some more) :
    decodeGroups cap o (a :: b :: c :: d :: rest) = some (out ++ more) := by
  rw [decodeGroups, group, bind_eq_bind, bind_some, if_neg (by omega), behind]
  rfl

/-- What is decoded from the groups is what was encoded, as long as there is room. -/
theorem decodeGroups_encodeGroups (cap : ℕ) (src : Octets) (o : ℕ) (room : o + src.length ≤ cap) :
    decodeGroups cap o (encodeGroups src) = some src := by
  fun_induction encodeGroups src generalizing o with
  | case1 a b c rest v ih =>
    obtain ⟨first, second, third⟩ := octets_of_sextets a b c
    have group :
        decodeGroup (b64Char (v >>> 18)) (b64Char (v >>> 12)) (b64Char (v >>> 6)) (b64Char v) =
        some [a, b, c] := by
      simp only [decodeGroup, padValue, b64Value_b64Char, b64Char_ne_pad, bind_eq_bind, bind_some,
        if_false, if_true, ne_eq, not_false_eq_true, false_and, v, first, second, third]
      rfl
    simp only [length_cons] at room
    exact decodeGroups_cons group (by simp only [length_cons, length_nil]; omega)
      (ih _ (by simp only [length_cons, length_nil]; omega))
  | case2 a b v =>
    obtain ⟨first, second, -⟩ := octets_of_sextets a b 0
    simp only [UInt8.toNat_zero, Nat.or_zero] at first second
    have group : decodeGroup (b64Char (v >>> 18)) (b64Char (v >>> 12)) (b64Char (v >>> 6)) 0x3D =
        some [a, b] := by
      simp only [decodeGroup, padValue, b64Value_b64Char, b64Char_ne_pad, bind_eq_bind, bind_some,
        if_false, if_true, ne_eq, not_false_eq_true, not_true_eq_false, false_and, v, first, second]
      rfl
    exact decodeGroups_cons group room rfl
  | case3 a v =>
    obtain ⟨first, -⟩ := octets_of_sextets a 0 0
    simp only [UInt8.toNat_zero, Nat.zero_shiftLeft, Nat.or_zero] at first
    have group : decodeGroup (b64Char (v >>> 18)) (b64Char (v >>> 12)) 0x3D 0x3D = some [a] := by
      simp only [decodeGroup, padValue, b64Value_b64Char, bind_eq_bind, bind_some, if_false,
        if_true, ne_eq, not_true_eq_false, and_false, v, first]
      rfl
    exact decodeGroups_cons group room rfl
  | case4 => rfl

theorem length_encodeGroups (src : Octets) :
    (encodeGroups src).length = 4 * ((src.length + 2) / 3) := by
  fun_induction encodeGroups src with
  | case1 a b c rest v ih =>
    simp only [length_cons, ih]
    omega
  | case2 | case3 | case4 => simp

/-- **The round trip.** With the capacities that the functions ask for, what is decoded is what was
encoded, and two strings with one encoding are the same. -/
theorem base64_round_trip :
    (∀ (src : Octets) (cap cap' : ℕ), src ≠ [] → 4 * ((src.length + 2) / 3) + 1 ≤ cap →
      src.length ≤ cap' → ∃ text, base64Encode cap src = some text ∧
      base64Decode cap' text = some src) ∧
    ∀ (src src' : Octets) (cap cap' : ℕ) (text : Octets),
      base64Encode cap src = some text → base64Encode cap' src' = some text → src = src' := by
  refine ⟨fun src cap cap' nonempty enough room => ?_,
    fun src src' cap cap' text first second => ?_⟩
  · have long := length_pos_of_ne_nil nonempty
    refine ⟨encodeGroups src, if_neg (by omega), ?_⟩
    rw [base64Decode, length_encodeGroups, if_neg (by omega)]
    exact decodeGroups_encodeGroups cap' src 0 (by omega)
  -- Both are what the groups are decoded to.
  obtain ⟨_, same⟩ := ite_none_left_eq_some.mp first
  obtain ⟨_, same'⟩ := ite_none_left_eq_some.mp second
  cases same
  have decoded := decodeGroups_encodeGroups (src.length + src'.length) src 0 (by omega)
  rw [← Option.some.inj same', decodeGroups_encodeGroups _ src' 0 (by omega)] at decoded
  exact (Option.some.inj decoded).symm

/-! ## The language -/

/-- A string of the alphabet with a number of pads behind it. -/
def Padded (pads : ℕ) (s : Octets) : Prop :=
  ∃ body, s = body ++ List.replicate pads 0x3D ∧ ∀ c ∈ body, (b64Value c).isSome = true

/-- RFC 4648, section 4: whole groups, and at most two pads at the very end. -/
def IsBase64 (s : Octets) : Prop := s.length % 4 = 0 ∧ ∃ pads ≤ 2, Padded pads s

theorem padded_cons_iff {s : Octets} (long : pads ≤ s.length) :
    Padded pads (c :: s) ↔ (b64Value c).isSome = true ∧ Padded pads s := by
  constructor
  · rintro ⟨body, same, valid⟩
    cases body with
    | nil =>
      have lengths := congrArg List.length same
      simp only [length_cons, nil_append, length_replicate] at lengths
      omega
    | cons c' body =>
      obtain ⟨rfl, rfl⟩ := cons_eq_cons.mp same
      rw [forall_mem_cons] at valid
      exact ⟨valid.1, body, rfl, valid.2⟩
  · rintro ⟨first, body, rfl, valid⟩
    exact ⟨c :: body, rfl, forall_mem_cons.mpr ⟨first, valid⟩⟩

theorem padded_self_iff {s : Octets} (length : s.length = pads) :
    Padded pads s ↔ s = List.replicate pads 0x3D := by
  constructor
  · rintro ⟨body, same, -⟩
    have lengths := congrArg List.length same
    rw [length_append, length_replicate] at lengths
    rw [eq_nil_of_length_eq_zero (by omega : body.length = 0)] at same
    exact same
  · exact fun same => ⟨[], same, nofun⟩

theorem padded_group_iff :
    pads ≤ 2 ∧ Padded pads [a, b, c, d] ↔
      (b64Value a).isSome = true ∧ (b64Value b).isSome = true ∧
        ((pads = 0 ∧ (b64Value c).isSome = true ∧ (b64Value d).isSome = true) ∨
          (pads = 1 ∧ (b64Value c).isSome = true ∧ d = 0x3D) ∨
          (pads = 2 ∧ c = 0x3D ∧ d = 0x3D)) := by
  constructor
  · rintro ⟨few, padded⟩
    obtain rfl | rfl | rfl : pads = 0 ∨ pads = 1 ∨ pads = 2 := by omega
    all_goals
      simp [padded_cons_iff, padded_self_iff] at padded
      simp [padded]
  · rintro ⟨first, second, ⟨rfl, third, fourth⟩ | ⟨rfl, third, rfl⟩ | ⟨rfl, rfl, rfl⟩⟩ <;>
      simp [padded_cons_iff, padded_self_iff, *]

/-- A group by itself is taken just if it is padded at its end. -/
theorem decodeGroup_iff (a b c d : UInt8) (pads : ℕ) :
    (∃ out, decodeGroup a b c d = some out ∧ out.length + pads = 3) ↔
      pads ≤ 2 ∧ Padded pads [a, b, c, d] := by
  have pad : b64Value 0x3D = none := rfl
  rw [decodeGroup, padValue, padValue, padded_group_iff]
  by_cases third : c = 0x3D <;> by_cases fourth : d = 0x3D
  · subst third fourth
    cases b64Value a <;> cases b64Value b <;> simp [pad]
    omega
  · subst third
    cases b64Value a <;> cases b64Value b <;> cases b64Value d <;> simp [pad, fourth]
  · subst fourth
    cases b64Value a <;> cases b64Value b <;> cases b64Value c <;> simp [pad, third]
    omega
  · cases b64Value a <;> cases b64Value b <;> cases b64Value c <;> cases b64Value d <;>
      simp [third, fourth]

variable {cap o pads : ℕ} {s : Octets}

theorem decodeGroup_length (group : decodeGroup a b c d = some out) :
    0 < out.length ∧ out.length ≤ 3 := by
  obtain ⟨v0, -, group⟩ := bind_eq_some_iff.mp group
  obtain ⟨v1, -, group⟩ := bind_eq_some_iff.mp group
  obtain ⟨v2, -, group⟩ := bind_eq_some_iff.mp group
  obtain ⟨v3, -, group⟩ := bind_eq_some_iff.mp group
  obtain ⟨-, same⟩ := ite_none_left_eq_some.mp group
  cases same
  split_ifs <;> simp

/-- Pads only in the last group. -/
def PadsLast (s : Octets) : Prop := ∀ c ∈ s.take (s.length - 4), c ≠ 0x3D

theorem padsLast_cons (long : 4 ≤ s.length) (last : PadsLast (a :: b :: c :: d :: s)) :
    c ≠ 0x3D ∧ d ≠ 0x3D ∧ PadsLast s := by
  obtain ⟨k, length⟩ := Nat.exists_eq_add_of_le' long
  have taken : (a :: b :: c :: d :: s).take ((a :: b :: c :: d :: s).length - 4) =
      a :: b :: c :: d :: s.take (s.length - 4) := by
    simp [length]
  rw [PadsLast, taken] at last
  simp only [forall_mem_cons] at last
  exact last.2.2

theorem padded_append_group (long : pads ≤ s.length) :
    Padded pads (a :: b :: c :: d :: s) ↔ Padded 0 [a, b, c, d] ∧ Padded pads s := by
  rw [padded_cons_iff (by simp only [length_cons]; omega),
    padded_cons_iff (by simp only [length_cons]; omega),
    padded_cons_iff (by simp only [length_cons]; omega), padded_cons_iff long]
  simp [padded_cons_iff, padded_self_iff, and_assoc]

/-- What is taken with pads only in the last group is padded at its end. -/
theorem padded_of_decodeGroups (nonempty : s ≠ []) (whole : s.length % 4 = 0) (last : PadsLast s)
    (decoded : decodeGroups cap o s = some out) :
    ∃ pads ≤ 2, Padded pads s ∧ out.length + pads = 3 * (s.length / 4) := by
  fun_induction decodeGroups cap o s generalizing out with
  | case1 => exact (nonempty rfl).elim
  | case2 o a b c d rest ih =>
    obtain ⟨first, group, decoded⟩ := bind_eq_some_iff.mp decoded
    obtain ⟨_, decoded⟩ := ite_none_left_eq_some.mp decoded
    obtain ⟨more, behind, same⟩ := bind_eq_some_iff.mp decoded
    cases same
    have short := (decodeGroup_length group).2
    obtain ⟨few, padded⟩ := (decodeGroup_iff a b c d (3 - first.length)).mp ⟨first, group, by omega⟩
    cases rest with
    | nil =>
      cases behind
      exact ⟨_, few, padded, by simp; omega⟩
    | cons e rest =>
      have length : 4 ≤ (e :: rest).length := by
        simp only [length_cons] at whole ⊢
        omega
      obtain ⟨third, fourth, last⟩ := padsLast_cons length last
      have full : 3 - first.length = 0 := by
        obtain ⟨_, _, full | one | two⟩ := padded_group_iff.mp ⟨few, padded⟩
        · exact full.1
        · exact (fourth one.2.2).elim
        · exact (fourth two.2.2).elim
      obtain ⟨pads, few', padded', lengths⟩ := ih first (cons_ne_nil _ _)
        (by simp only [length_cons] at whole ⊢; omega) last behind
      rw [full] at padded
      refine ⟨pads, few', (padded_append_group (by omega)).mpr ⟨padded, padded'⟩, ?_⟩
      simp only [length_append, length_cons] at lengths ⊢
      omega
  | case3 => cases decoded

/-- The last case of the loop, less than a group. -/
theorem length_mod_ne_zero (nonempty : s ≠ [])
    (short : ∀ a b c d rest, s = a :: b :: c :: d :: rest → False) : s.length % 4 ≠ 0 := by
  match s, nonempty, short with
  | [_], _, _ | [_, _], _, _ | [_, _, _], _, _ => simp
  | a :: b :: c :: d :: rest, _, short => exact (short a b c d rest rfl).elim

/-- What is padded at its end is taken when there is room. -/
theorem decodeGroups_of_padded (few : pads ≤ 2) (padded : Padded pads s) (nonempty : s ≠ [])
    (whole : s.length % 4 = 0) (room : o + 3 * (s.length / 4) ≤ cap + pads) :
    ∃ out, decodeGroups cap o s = some out ∧ out.length + pads = 3 * (s.length / 4) := by
  fun_induction decodeGroups cap o s with
  | case1 => exact (nonempty rfl).elim
  | case2 o a b c d rest ih =>
    simp only [length_cons] at room whole
    cases rest with
    | nil =>
      obtain ⟨out, group, length⟩ := (decodeGroup_iff a b c d pads).mpr ⟨few, padded⟩
      simp only [length_nil] at room
      exact ⟨_, decodeGroups_cons group (by omega) rfl, by simp; omega⟩
    | cons e rest =>
      simp only [length_cons] at room whole
      obtain ⟨first, padded⟩ := (padded_append_group (by simp only [length_cons]; omega)).mp padded
      obtain ⟨out, group, length⟩ := (decodeGroup_iff a b c d 0).mpr ⟨Nat.zero_le _, first⟩
      obtain ⟨more, behind, lengths⟩ := ih out padded (cons_ne_nil _ _)
        (by simp only [length_cons]; omega) (by simp only [length_cons]; omega)
      refine ⟨_, decodeGroups_cons group (by omega) behind, ?_⟩
      simp only [length_append, length_cons] at lengths ⊢
      omega
  | case3 s _ nonempty short => exact absurd whole (length_mod_ne_zero nonempty short)

/-- Each group is padded at its end, if it stood by itself. -/
def GroupsPadded : Octets → Prop
  | a :: b :: c :: d :: rest => (∃ pads ≤ 2, Padded pads [a, b, c, d]) ∧ GroupsPadded rest
  | _ => True

theorem groupsPadded_of_decodeGroups (decoded : decodeGroups cap o s = some out) :
    GroupsPadded s := by
  fun_induction decodeGroups cap o s generalizing out with
  | case1 => trivial
  | case2 o a b c d rest ih =>
    obtain ⟨first, group, decoded⟩ := bind_eq_some_iff.mp decoded
    obtain ⟨-, decoded⟩ := ite_none_left_eq_some.mp decoded
    obtain ⟨more, behind, -⟩ := bind_eq_some_iff.mp decoded
    have short := (decodeGroup_length group).2
    exact ⟨⟨_, (decodeGroup_iff a b c d (3 - first.length)).mp ⟨first, group, by omega⟩⟩,
      ih first behind⟩
  | case3 => cases decoded

theorem decodeGroups_of_groupsPadded (whole : s.length % 4 = 0) (padded : GroupsPadded s)
    (room : o + 3 * (s.length / 4) ≤ cap) : ∃ out, decodeGroups cap o s = some out := by
  fun_induction decodeGroups cap o s with
  | case1 => exact ⟨[], rfl⟩
  | case2 o a b c d rest ih =>
    obtain ⟨⟨pads, first⟩, padded⟩ := padded
    obtain ⟨out, group, length⟩ := (decodeGroup_iff a b c d pads).mpr first
    simp only [length_cons] at whole room
    obtain ⟨more, behind⟩ := ih out (by omega) padded (by omega)
    exact ⟨_, decodeGroups_cons group (by omega) behind⟩
  | case3 _ s nonempty short => exact absurd whole (length_mod_ne_zero nonempty short)

theorem padsLast_of_padded (few : pads ≤ 2) (padded : Padded pads s) : PadsLast s := by
  obtain ⟨body, rfl, valid⟩ := padded
  intro c mem pad
  rw [length_append, length_replicate, take_append_of_le_length (by omega)] at mem
  have value := valid c (mem_of_mem_take mem)
  rw [pad] at value
  cases value

/-- **What is accepted**: with enough room the padded strings of RFC 4648, and as a key those of 24
characters with two pads, exactly for the strings that have pads only in the last group where each
group, by itself, is padded at its end. -/
theorem base64_language (s : Octets) (nonempty : s ≠ []) :
    ((∀ cap, 3 * (s.length / 4) ≤ cap → ((base64Decode cap s).isSome = true ↔ IsBase64 s)) ∧
      (keyAccepted s = true ↔ Padded 2 s ∧ s.length = 24)) ↔
    (s.length % 4 = 0 → GroupsPadded s → PadsLast s) := by
  have long := length_pos_of_ne_nil nonempty
  by_cases whole : s.length % 4 = 0
  · have decode : ∀ cap, base64Decode cap s = decodeGroups cap 0 s := fun cap => if_neg (by omega)
    constructor
    · rintro ⟨accepts, -⟩ - groups
      obtain ⟨out, decoded⟩ := decodeGroups_of_groupsPadded whole groups (Nat.zero_add _).le
      obtain ⟨-, pads, few, padded⟩ := (accepts _ le_rfl).mp (by rw [decode, decoded]; rfl)
      exact padsLast_of_padded few padded
    intro last
    have last {cap out} (decoded : decodeGroups cap 0 s = some out) : PadsLast s :=
      last whole (groupsPadded_of_decodeGroups decoded)
    refine ⟨fun cap room => ?_, ?_⟩
    · rw [decode, isSome_iff_exists]
      constructor
      · rintro ⟨out, decoded⟩
        obtain ⟨pads, few, padded, _⟩ :=
          padded_of_decodeGroups nonempty whole (last decoded) decoded
        exact ⟨whole, pads, few, padded⟩
      rintro ⟨_, pads, few, padded⟩
      obtain ⟨out, decoded, _⟩ :=
        decodeGroups_of_padded few padded nonempty whole (by omega : 0 + _ ≤ cap + pads)
      exact ⟨out, decoded⟩
    rw [keyAccepted, decode, Option.any_eq_true]
    constructor
    · rintro ⟨out, decoded, length⟩
      obtain ⟨pads, few, padded, lengths⟩ :=
        padded_of_decodeGroups nonempty whole (last decoded) decoded
      have sixteen := of_decide_eq_true length
      obtain rfl : pads = 2 := by omega
      exact ⟨padded, by omega⟩
    rintro ⟨padded, length⟩
    obtain ⟨out, decoded, lengths⟩ :=
      decodeGroups_of_padded le_rfl padded nonempty whole (by omega : 0 + _ ≤ 16 + 2)
    exact ⟨out, decoded, decide_eq_true (by omega)⟩
  have decode : ∀ cap, base64Decode cap s = none := fun cap => if_pos (.inr whole)
  refine iff_of_true ⟨fun cap _ => ?_, ?_⟩ fun whole' => absurd whole' whole
  · rw [decode]
    exact iff_of_false Bool.false_ne_true fun standard => whole standard.1
  · rw [keyAccepted, decode]
    exact iff_of_false Bool.false_ne_true fun key => whole (by omega)

/-- A key of 22 characters and two pads, and a pad in the first of two groups that is no group. -/
theorem base64_language_key :
    IsBase64 (ascii "dGhlIHNhbXBsZSBub25jZQ==") ∧
      (base64Decode 6 (ascii "A=AAAAAA") = none ∧ ¬ IsBase64 (ascii "A=AAAAAA")) := by
  have key := (base64_language (ascii "dGhlIHNhbXBsZSBub25jZQ==") (by decide)).mpr
    fun _ _ => by unfold PadsLast; decide +kernel
  have inner := (base64_language (ascii "A=AAAAAA") (by decide)).mpr fun _ groups => by
    obtain ⟨pads, group⟩ := groups.1
    cases (padded_group_iff.mp group).2.1
  exact ⟨(key.1 18 (by decide)).mp (by decide), by decide,
    fun standard => Bool.false_ne_true ((inner.1 6 (by decide)).mpr standard)⟩

/-- Two groups with pads are decoded, and sixteen of them are a key. -/
theorem inner_pads_accepted :
    base64Decode 2 (ascii "AA==AA==") = some [0, 0] ∧ ¬ IsBase64 (ascii "AA==AA==") ∧
      keyAccepted (List.replicate 16 (ascii "AA==")).flatten = true := by
  refine ⟨by decide, ?_, by decide⟩
  rintro ⟨_, pads, few, padded⟩
  have first := ((padded_append_group (few.trans (by decide))).mp padded).1
  obtain ⟨_, _, four | ⟨absurd, _⟩ | ⟨absurd, _⟩⟩ := padded_group_iff.mp ⟨Nat.zero_le 2, first⟩
  · cases four.2.1
  · cases absurd
  · cases absurd

/-! ## The buffer of the handshake -/

/-- `WS_GUID`. -/
def wsGuid : Octets := ascii "258EAFA5-E914-47DA-95CA-C5AB0DC85B11"

/-- The octets that `dispatch_subscribe` writes into `hb`, in their order. -/
def handshakeInput (key : Octets) : Octets := key ++ wsGuid

/-- A group brings at least one octet, whatever its pads. -/
theorem length_le_of_decodeGroups (decoded : decodeGroups cap o s = some out) :
    s.length ≤ 4 * out.length := by
  fun_induction decodeGroups cap o s generalizing out with
  | case1 => exact Nat.zero_le _
  | case2 o a b c d rest ih =>
    obtain ⟨first, group, decoded⟩ := bind_eq_some_iff.mp decoded
    obtain ⟨-, decoded⟩ := ite_none_left_eq_some.mp decoded
    obtain ⟨more, behind, same⟩ := bind_eq_some_iff.mp decoded
    cases same
    have length := ih first behind
    have positive := (decodeGroup_length group).1
    simp only [length_cons, length_append]
    omega
  | case3 => cases decoded

/-- **The handshake fits its buffer** of 128 octets, since a key that is accepted has at most
64 characters. -/
theorem handshake_fits {key : Octets} (accepted : keyAccepted key = true) :
    key.length ≤ 64 ∧ (handshakeInput key).length ≤ 128 := by
  obtain ⟨out, decoded, sixteen⟩ := (Option.any_eq_true ..).mp accepted
  obtain ⟨-, decoded⟩ := ite_none_left_eq_some.mp decoded
  have length := length_le_of_decodeGroups decoded
  rw [of_decide_eq_true sixteen] at length
  refine ⟨length, ?_⟩
  rw [handshakeInput, length_append, show wsGuid.length = 36 by decide]
  omega

/-- A key of 64 characters, with pads in each group. -/
theorem handshake_fits_padded :
    keyAccepted (List.replicate 16 (ascii "AA==")).flatten = true ∧
      (handshakeInput (List.replicate 16 (ascii "AA==")).flatten).length ≤ 128 :=
  have accepted := by decide
  ⟨accepted, (handshake_fits accepted).2⟩

end Strimserver.Http
