import Mathlib.Data.List.FinRange
import Strimserver.Library.Octets

/-!
# The buffers of the chain id

The alternate controller folds the diff ids of an image into its chain id, in two buffers of
the same size: `tmp` takes the text that is hashed, `chain` the id so far. The model records
every index that is written. The test before the fold's copy leaves out the terminator, so a
text that fills `tmp` exactly is written one octet too far.

The hash is any function to 32 octets; no index depends on it.
-/

namespace Strimserver.Alternate

open List

/-! ## The fold -/

/-- `CC_CTR_DIGEST_MAX`, the size of `tmp` and of `chain`. -/
def digestMax : ℕ := 256

/-- The two buffers. -/
inductive Buffer where
  | tmp
  | chain
  deriving DecidableEq

/-- What is written, and the chain id unless it is too big. -/
abbrev Written := List (Buffer × ℕ) × Option Octets

/-- `copy_str` to `chain`, with the terminator. -/
def copyToChain (src : Octets) : Written :=
  if digestMax < src.length + 1 then ([], none)
  else ((List.range (src.length + 1)).map (.chain, ·), some src)

/-- The loop over the digest, with `chain` so far. -/
def appendHex (chain : Octets) : List UInt8 → Written
  | [] => ([(.chain, chain.length)], some chain)
  | d :: digest =>
    if digestMax ≤ chain.length + 2 then ([(.chain, 0)], none)
    else
      let next := appendHex (chain ++ [hexChar (d.toNat / 16), hexChar (d.toNat % 16)]) digest
      ((.chain, chain.length) :: (.chain, chain.length + 1) :: next.1, next.2)

variable (hash : Octets → Fin 32 → UInt8)

/-- A round of the fold. -/
def chainRound (chain id : Octets) : Written :=
  if digestMax < chain.length + 1 + id.length then ([(.tmp, 0)], none)
  else
    let tmp := List.range chain.length ++ chain.length ::
      (List.range (id.length + 1)).map (chain.length + 1 + ·)
    let start := copyToChain (ascii "sha256:")
    let next := start.2.elim ([], none)
      (appendHex · ((List.finRange 32).map (hash (chain ++ 0x20 :: id))))
    (tmp.map (.tmp, ·) ++ start.1 ++ next.1, next.2)

/-- The fold over the other ids. -/
def chainRounds (chain : Octets) : List Octets → Written
  | [] => ([], some chain)
  | id :: ids =>
    let round := chainRound hash chain id
    let next := round.2.elim ([], none) (chainRounds · ids)
    (round.1 ++ next.1, next.2)

/-- The fold of `cc_ctr_resolve_chainid`, up to the copy to the caller. -/
def resolveChainid : List Octets → Written
  | [] => ([], some [])
  | id :: ids =>
    let start := copyToChain id
    let next := start.2.elim ([], none) (chainRounds hash · ids)
    (start.1 ++ next.1, next.2)

/-! ## Bounds -/

/-- The lengths of the texts that are hashed, behind a chain id of a length; the next one has 71
octets. -/
def combined (length : ℕ) : List Octets → List ℕ
  | [] => []
  | id :: ids => (length + 1 + id.length) :: combined 71 ids

def hashedLengths : List Octets → List ℕ
  | [] => []
  | id :: ids => combined id.length ids

/-- Every write is inside its buffer. -/
def InBounds (w : Written) : Prop := ∀ write ∈ w.1, write.2 < digestMax

theorem appendHex_spec (chain : Octets) (digest : List UInt8)
    (room : chain.length + 2 * digest.length < digestMax) :
    InBounds (appendHex chain digest) ∧ ∃ text : Octets,
      (appendHex chain digest).2 = some text ∧ text.length = chain.length + 2 * digest.length := by
  induction digest generalizing chain with
  | nil => exact ⟨by simpa [InBounds, appendHex] using room, chain, rfl, rfl⟩
  | cons d digest ih =>
    rw [length_cons] at room
    have longer (x y : UInt8) : (chain ++ [x, y]).length = chain.length + 2 := length_append
    obtain ⟨inside, text, result, length⟩ :=
      ih (chain ++ [hexChar (d.toNat / 16), hexChar (d.toNat % 16)]) (by rw [longer]; omega)
    rw [appendHex, if_neg (by omega)]
    refine ⟨?_, text, result, by rw [length, longer, length_cons]; omega⟩
    simp only [InBounds, forall_mem_cons]
    exact ⟨by omega, by omega, inside⟩

/-- A round writes in bounds unless the text fills `tmp`, and leaves 71 octets unless the text
is too long for it. -/
theorem chainRound_spec (chain id : Octets) :
    (InBounds (chainRound hash chain id) ↔ chain.length + 1 + id.length ≠ digestMax) ∧
      if digestMax < chain.length + 1 + id.length then (chainRound hash chain id).2 = none
      else ∃ text : Octets, (chainRound hash chain id).2 = some text ∧ text.length = 71 := by
  unfold chainRound
  split_ifs with long
  · exact ⟨iff_of_true (by simp [InBounds, digestMax]) long.ne', rfl⟩
  have seven : (ascii "sha256:").length = 7 := by decide
  have digest : ((List.finRange 32).map (hash (chain ++ 0x20 :: id))).length = 32 := by
    rw [length_map, length_finRange]
  generalize (List.finRange 32).map (hash (chain ++ 0x20 :: id)) = octets at digest ⊢
  have start : copyToChain (ascii "sha256:") =
      ((List.range 8).map (.chain, ·), some (ascii "sha256:")) := by
    rw [copyToChain, seven]
    rfl
  obtain ⟨inside, text, result, length⟩ := appendHex_spec (ascii "sha256:") octets
    (by rw [seven, digest]; decide)
  rw [start]
  refine ⟨?_, text, result, by rw [length, seven, digest]⟩
  simp only [InBounds, forall_mem_append, forall_mem_map, forall_mem_cons, mem_range]
  constructor
  · intro ⟨⟨⟨_, _, last⟩, _⟩, _⟩
    exact (last id.length (Nat.lt_succ_self _)).ne
  · intro fits
    have chainSide : ∀ i < 8, i < digestMax := by decide
    exact ⟨⟨⟨fun _ _ => by omega, by omega, fun _ _ => by omega⟩, chainSide⟩, inside⟩

theorem chainRounds_spec (chain : Octets) (ids : List Octets) :
    (InBounds (chainRounds hash chain ids) ↔
        digestMax ∉ (combined chain.length ids).takeWhile (· ≤ digestMax)) ∧
      ((chainRounds hash chain ids).2 = none ↔ ∃ n ∈ combined chain.length ids, digestMax < n) := by
  induction ids generalizing chain with
  | nil => exact ⟨iff_of_true nofun nofun, by simp [chainRounds, combined]⟩
  | cons id ids ih =>
    obtain ⟨inside, round⟩ := chainRound_spec hash chain id
    rw [chainRounds, combined, exists_mem_cons_iff, InBounds, forall_mem_append]
    split_ifs at round with long
    · rw [round, takeWhile_cons_of_neg (by simpa using long)]
      exact ⟨iff_of_true ⟨inside.mpr long.ne', nofun⟩ nofun, iff_of_true rfl (.inl long)⟩
    obtain ⟨text, result, length⟩ := round
    obtain ⟨inside', none⟩ := ih text
    rw [length] at inside' none
    rw [result, takeWhile_cons_of_pos (by simpa using long), mem_cons, not_or]
    exact ⟨and_congr (inside.trans ne_comm) inside', none.trans (or_iff_right long).symm⟩

/-- **The buffers of the chain id.** Every write is in bounds exactly if no text up to the first
that is too long for `tmp` fills it, and the chain id is refused exactly when a text is too long. -/
theorem chain_buffers (hash : Octets → Fin 32 → UInt8) {ids : List Octets}
    (short : ∀ id ∈ ids, id.length < digestMax) :
    (InBounds (resolveChainid hash ids) ↔
        digestMax ∉ (hashedLengths ids).takeWhile (· ≤ digestMax)) ∧
      ((resolveChainid hash ids).2 = none ↔ ∃ n ∈ hashedLengths ids, digestMax < n) := by
  cases ids with
  | nil => exact ⟨iff_of_true nofun nofun, by simp [resolveChainid, hashedLengths]⟩
  | cons first ids =>
    have room := short first mem_cons_self
    obtain ⟨inside, none⟩ := chainRounds_spec hash first ids
    rw [resolveChainid, copyToChain, if_neg (by omega)]
    refine ⟨forall_mem_append.trans ((and_iff_right ?_).trans inside), none⟩
    simp only [forall_mem_map, mem_range]
    exact fun _ _ => by omega

/-- Three ids of which the second is refused, so that the third does not get to fill `tmp`. -/
theorem chain_buffers_refused :
    InBounds (resolveChainid (fun _ _ => 0)
        [.replicate 255 0x61, .replicate 255 0x62, .replicate 184 0x63]) ∧
      (resolveChainid (fun _ _ => 0)
        [.replicate 255 0x61, .replicate 255 0x62, .replicate 184 0x63]).2 = none := by
  obtain ⟨inside, refused⟩ := chain_buffers (fun _ _ => 0)
    (show ∀ id ∈ ([.replicate 255 0x61, .replicate 255 0x62, .replicate 184 0x63] : List Octets),
      id.length < digestMax by decide +kernel)
  exact ⟨inside.mpr (by decide +kernel), refused.mpr (by decide +kernel)⟩

/-- Two ids of 255 octets in all fill `tmp` with the blank between them: the terminator is
written behind it, and the chain id is not refused. -/
theorem chain_buffer_overflows :
    (.tmp, digestMax) ∈
        (resolveChainid (fun _ _ => 0) [List.replicate 127 0x61, List.replicate 128 0x62]).1 ∧
      (resolveChainid (fun _ _ => 0) [List.replicate 127 0x61, List.replicate 128 0x62]).2.isSome =
        true := by
  decide +kernel

end Strimserver.Alternate
