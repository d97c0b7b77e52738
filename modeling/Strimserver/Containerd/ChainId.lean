import Strimserver.Library.Octets

/-!
# SHA-256 and chain ids

`sha256.c`, and `compute_chain_id` of `containerd_client.c`: the id of the file system that
the layers of an image make, a fold of SHA-256 over the ids of the layers.
-/

namespace Strimserver.Containerd

/-! ## SHA-256 -/

/-- Rotation to the right. -/
def rotr (x n : UInt32) : UInt32 := x >>> n ||| x <<< (32 - n)

def ch (x y z : UInt32) : UInt32 := x &&& y ^^^ ~~~x &&& z

def maj (x y z : UInt32) : UInt32 := x &&& y ^^^ x &&& z ^^^ y &&& z

def sig0 (x : UInt32) : UInt32 := rotr x 2 ^^^ rotr x 13 ^^^ rotr x 22

def sig1 (x : UInt32) : UInt32 := rotr x 6 ^^^ rotr x 11 ^^^ rotr x 25

def sig2 (x : UInt32) : UInt32 := rotr x 7 ^^^ rotr x 18 ^^^ x >>> 3

def sig3 (x : UInt32) : UInt32 := rotr x 17 ^^^ rotr x 19 ^^^ x >>> 10

/-- `K`. -/
def roundConstants : List UInt32 :=
  [0x428a2f98, 0x71374491, 0xb5c0fbcf, 0xe9b5dba5, 0x3956c25b, 0x59f111f1, 0x923f82a4, 0xab1c5ed5,
    0xd807aa98, 0x12835b01, 0x243185be, 0x550c7dc3, 0x72be5d74, 0x80deb1fe, 0x9bdc06a7, 0xc19bf174,
    0xe49b69c1, 0xefbe4786, 0x0fc19dc6, 0x240ca1cc, 0x2de92c6f, 0x4a7484aa, 0x5cb0a9dc, 0x76f988da,
    0x983e5152, 0xa831c66d, 0xb00327c8, 0xbf597fc7, 0xc6e00bf3, 0xd5a79147, 0x06ca6351, 0x14292967,
    0x27b70a85, 0x2e1b2138, 0x4d2c6dfc, 0x53380d13, 0x650a7354, 0x766a0abb, 0x81c2c92e, 0x92722c85,
    0xa2bfe8a1, 0xa81a664b, 0xc24b8b70, 0xc76c51a3, 0xd192e819, 0xd6990624, 0xf40e3585, 0x106aa070,
    0x19a4c116, 0x1e376c08, 0x2748774c, 0x34b0bcb5, 0x391c0cb3, 0x4ed8aa4a, 0x5b9cca4f, 0x682e6ff3,
    0x748f82ee, 0x78a5636f, 0x84c87814, 0x8cc70208, 0x90befffa, 0xa4506ceb, 0xbef9a3f7, 0xc67178f2]

/-- `be32_load`. -/
def be32Load (p : Octets) : UInt32 :=
  (p.getD 0 0).toUInt32 <<< 24 ||| (p.getD 1 0).toUInt32 <<< 16 ||| (p.getD 2 0).toUInt32 <<< 8 |||
    (p.getD 3 0).toUInt32

/-- `w[16..63]`, one word at a time. -/
def extendSchedule : ℕ → List UInt32 → List UInt32
  | 0, w => w
  | n + 1, w =>
    let i := w.length
    extendSchedule n (w ++ [sig3 (w.getD (i - 2) 0) + w.getD (i - 7) 0 + sig2 (w.getD (i - 15) 0) +
      w.getD (i - 16) 0])

/-- The working variables `a` to `hh`. -/
structure Working where
  (a b c d e f g h : UInt32)

/-- A round of `sha256_block`. -/
def Working.round (v : Working) (k w : UInt32) : Working :=
  let t1 := v.h + sig1 v.e + ch v.e v.f v.g + k + w
  let t2 := sig0 v.a + maj v.a v.b v.c
  ⟨t1 + t2, v.a, v.b, v.c, v.d + t1, v.e, v.f, v.g⟩

/-- `sha256_block`. -/
def sha256Block (h : Working) (block : Octets) : Working :=
  let w := extendSchedule 48 ((List.range 16).map fun i => be32Load (block.drop (4 * i)))
  let v := (List.zip roundConstants w).foldl (fun v (k, w) => v.round k w) h
  ⟨h.a + v.a, h.b + v.b, h.c + v.c, h.d + v.d, h.e + v.e, h.f + v.f, h.g + v.g, h.h + v.h⟩

/-- The eight octets of `bitlen`. -/
def bitlenOctets (bitlen : ℕ) : Octets :=
  (List.range 8).map fun i => UInt8.ofNat ((bitlen % 2 ^ 64) >>> (56 - 8 * i))

/-- The blocks that are made of `pad`. -/
def padBlocks (rem : Octets) (bitlen : ℕ) : List Octets :=
  if rem.length < 56 then
    [rem ++ 0x80 :: List.replicate (55 - rem.length) 0 ++ bitlenOctets bitlen]
  else
    let pad := rem ++ 0x80 :: List.replicate (119 - rem.length) 0 ++ bitlenOctets bitlen
    [pad.take 64, pad.drop 64]

/-- The octets of a word. -/
def wordOctets (x : UInt32) : Octets :=
  [(x >>> 24).toUInt8, (x >>> 16).toUInt8, (x >>> 8).toUInt8, x.toUInt8]

/-- `strim_sha256`. -/
def strimSha256 (data : Octets) : Octets :=
  let full := data.length / 64
  let blocks := (List.range full).map fun i => (data.drop (64 * i)).take 64
  let h := (blocks ++ padBlocks (data.drop (64 * full)) (data.length * 8)).foldl sha256Block
    ⟨0x6a09e667, 0xbb67ae85, 0x3c6ef372, 0xa54ff53a, 0x510e527f, 0x9b05688c, 0x1f83d9ab, 0x5be0cd19⟩
  [h.a, h.b, h.c, h.d, h.e, h.f, h.g, h.h].flatMap wordOctets

/-- `strim_sha256_format`. -/
def strimSha256Format (digest : Octets) : Octets :=
  ascii "sha256:" ++ digest.flatMap fun (b : UInt8) =>
    [hexChar (b >>> 4).toNat, hexChar (b &&& 0xf).toNat]

/-! ## Chain ids -/

/-- A round of `compute_chain_id`. -/
def chainStep (chain diffId : Octets) : Octets :=
  strimSha256Format (strimSha256 (chain ++ 0x20 :: diffId))

/-- `compute_chain_id`. -/
def computeChainId : List Octets → Option Octets
  | [] => none
  | diffId :: diffIds => some (diffIds.foldl chainStep diffId)

example : strimSha256Format (strimSha256 (ascii "abc")) =
    ascii "sha256:ba7816bf8f01cfea414140de5dae2223b00361a396177a9cb410ff61f20015ad" := by
  decide +kernel

end Strimserver.Containerd
