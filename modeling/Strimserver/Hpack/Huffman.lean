import Strimserver.Library.Octets
import Strimserver.Library.Trie
import Mathlib.Data.List.Chain
import Mathlib.Data.List.Perm.Subperm
import Mathlib.Algebra.Group.Nat.Defs

/-!
# Huffman-coded strings

`huff_build` and `huff_decode` of `h2c.c` with the table of `h2c_huff.inc`, and
the decoding that RFC 7541 describes: the bits are cut into code words of the
table, the symbol EOS is an error, and at most seven bits are left, all of them
ones.

The decoder walks a trie and gives up when it leaves it. The reference only
compares the bits read so far with the code words, and rejects at the end; the
two agree because the code word of EOS is thirty ones, so that bits which could
be padding never leave the trie.
-/

namespace Strimserver.Hpack

open Library List

/-! ## The table -/

/-- `struct huff_code`. -/
structure HuffCode where
  code : ℕ
  bits : ℕ

/-- `HUFF_TABLE`, the code words of the octets in order and of EOS. -/
def huffTable : List HuffCode :=
  [⟨8184, 13⟩, ⟨8388568, 23⟩, ⟨268435426, 28⟩, ⟨268435427, 28⟩, ⟨268435428, 28⟩, ⟨268435429, 28⟩,
    ⟨268435430, 28⟩, ⟨268435431, 28⟩, ⟨268435432, 28⟩, ⟨16777194, 24⟩, ⟨1073741820, 30⟩,
    ⟨268435433, 28⟩, ⟨268435434, 28⟩, ⟨1073741821, 30⟩, ⟨268435435, 28⟩, ⟨268435436, 28⟩,
    ⟨268435437, 28⟩, ⟨268435438, 28⟩, ⟨268435439, 28⟩, ⟨268435440, 28⟩, ⟨268435441, 28⟩,
    ⟨268435442, 28⟩, ⟨1073741822, 30⟩, ⟨268435443, 28⟩, ⟨268435444, 28⟩, ⟨268435445, 28⟩,
    ⟨268435446, 28⟩, ⟨268435447, 28⟩, ⟨268435448, 28⟩, ⟨268435449, 28⟩, ⟨268435450, 28⟩,
    ⟨268435451, 28⟩, ⟨20, 6⟩, ⟨1016, 10⟩, ⟨1017, 10⟩, ⟨4090, 12⟩, ⟨8185, 13⟩, ⟨21, 6⟩, ⟨248, 8⟩,
    ⟨2042, 11⟩, ⟨1018, 10⟩, ⟨1019, 10⟩, ⟨249, 8⟩, ⟨2043, 11⟩, ⟨250, 8⟩, ⟨22, 6⟩, ⟨23, 6⟩, ⟨24, 6⟩,
    ⟨0, 5⟩, ⟨1, 5⟩, ⟨2, 5⟩, ⟨25, 6⟩, ⟨26, 6⟩, ⟨27, 6⟩, ⟨28, 6⟩, ⟨29, 6⟩, ⟨30, 6⟩, ⟨31, 6⟩, ⟨92, 7⟩,
    ⟨251, 8⟩, ⟨32764, 15⟩, ⟨32, 6⟩, ⟨4091, 12⟩, ⟨1020, 10⟩, ⟨8186, 13⟩, ⟨33, 6⟩, ⟨93, 7⟩, ⟨94, 7⟩,
    ⟨95, 7⟩, ⟨96, 7⟩, ⟨97, 7⟩, ⟨98, 7⟩, ⟨99, 7⟩, ⟨100, 7⟩, ⟨101, 7⟩, ⟨102, 7⟩, ⟨103, 7⟩, ⟨104, 7⟩,
    ⟨105, 7⟩, ⟨106, 7⟩, ⟨107, 7⟩, ⟨108, 7⟩, ⟨109, 7⟩, ⟨110, 7⟩, ⟨111, 7⟩, ⟨112, 7⟩, ⟨113, 7⟩,
    ⟨114, 7⟩, ⟨252, 8⟩, ⟨115, 7⟩, ⟨253, 8⟩, ⟨8187, 13⟩, ⟨524272, 19⟩, ⟨8188, 13⟩, ⟨16380, 14⟩,
    ⟨34, 6⟩, ⟨32765, 15⟩, ⟨3, 5⟩, ⟨35, 6⟩, ⟨4, 5⟩, ⟨36, 6⟩, ⟨5, 5⟩, ⟨37, 6⟩, ⟨38, 6⟩, ⟨39, 6⟩,
    ⟨6, 5⟩, ⟨116, 7⟩, ⟨117, 7⟩, ⟨40, 6⟩, ⟨41, 6⟩, ⟨42, 6⟩, ⟨7, 5⟩, ⟨43, 6⟩, ⟨118, 7⟩, ⟨44, 6⟩,
    ⟨8, 5⟩, ⟨9, 5⟩, ⟨45, 6⟩, ⟨119, 7⟩, ⟨120, 7⟩, ⟨121, 7⟩, ⟨122, 7⟩, ⟨123, 7⟩, ⟨32766, 15⟩,
    ⟨2044, 11⟩, ⟨16381, 14⟩, ⟨8189, 13⟩, ⟨268435452, 28⟩, ⟨1048550, 20⟩, ⟨4194258, 22⟩,
    ⟨1048551, 20⟩, ⟨1048552, 20⟩, ⟨4194259, 22⟩, ⟨4194260, 22⟩, ⟨4194261, 22⟩, ⟨8388569, 23⟩,
    ⟨4194262, 22⟩, ⟨8388570, 23⟩, ⟨8388571, 23⟩, ⟨8388572, 23⟩, ⟨8388573, 23⟩, ⟨8388574, 23⟩,
    ⟨16777195, 24⟩, ⟨8388575, 23⟩, ⟨16777196, 24⟩, ⟨16777197, 24⟩, ⟨4194263, 22⟩, ⟨8388576, 23⟩,
    ⟨16777198, 24⟩, ⟨8388577, 23⟩, ⟨8388578, 23⟩, ⟨8388579, 23⟩, ⟨8388580, 23⟩, ⟨2097116, 21⟩,
    ⟨4194264, 22⟩, ⟨8388581, 23⟩, ⟨4194265, 22⟩, ⟨8388582, 23⟩, ⟨8388583, 23⟩, ⟨16777199, 24⟩,
    ⟨4194266, 22⟩, ⟨2097117, 21⟩, ⟨1048553, 20⟩, ⟨4194267, 22⟩, ⟨4194268, 22⟩, ⟨8388584, 23⟩,
    ⟨8388585, 23⟩, ⟨2097118, 21⟩, ⟨8388586, 23⟩, ⟨4194269, 22⟩, ⟨4194270, 22⟩, ⟨16777200, 24⟩,
    ⟨2097119, 21⟩, ⟨4194271, 22⟩, ⟨8388587, 23⟩, ⟨8388588, 23⟩, ⟨2097120, 21⟩, ⟨2097121, 21⟩,
    ⟨4194272, 22⟩, ⟨2097122, 21⟩, ⟨8388589, 23⟩, ⟨4194273, 22⟩, ⟨8388590, 23⟩, ⟨8388591, 23⟩,
    ⟨1048554, 20⟩, ⟨4194274, 22⟩, ⟨4194275, 22⟩, ⟨4194276, 22⟩, ⟨8388592, 23⟩, ⟨4194277, 22⟩,
    ⟨4194278, 22⟩, ⟨8388593, 23⟩, ⟨67108832, 26⟩, ⟨67108833, 26⟩, ⟨1048555, 20⟩, ⟨524273, 19⟩,
    ⟨4194279, 22⟩, ⟨8388594, 23⟩, ⟨4194280, 22⟩, ⟨33554412, 25⟩, ⟨67108834, 26⟩, ⟨67108835, 26⟩,
    ⟨67108836, 26⟩, ⟨134217694, 27⟩, ⟨134217695, 27⟩, ⟨67108837, 26⟩, ⟨16777201, 24⟩,
    ⟨33554413, 25⟩, ⟨524274, 19⟩, ⟨2097123, 21⟩, ⟨67108838, 26⟩, ⟨134217696, 27⟩, ⟨134217697, 27⟩,
    ⟨67108839, 26⟩, ⟨134217698, 27⟩, ⟨16777202, 24⟩, ⟨2097124, 21⟩, ⟨2097125, 21⟩, ⟨67108840, 26⟩,
    ⟨67108841, 26⟩, ⟨268435453, 28⟩, ⟨134217699, 27⟩, ⟨134217700, 27⟩, ⟨134217701, 27⟩,
    ⟨1048556, 20⟩, ⟨16777203, 24⟩, ⟨1048557, 20⟩, ⟨2097126, 21⟩, ⟨4194281, 22⟩, ⟨2097127, 21⟩,
    ⟨2097128, 21⟩, ⟨8388595, 23⟩, ⟨4194282, 22⟩, ⟨4194283, 22⟩, ⟨33554414, 25⟩, ⟨33554415, 25⟩,
    ⟨16777204, 24⟩, ⟨16777205, 24⟩, ⟨67108842, 26⟩, ⟨8388596, 23⟩, ⟨67108843, 26⟩, ⟨134217702, 27⟩,
    ⟨67108844, 26⟩, ⟨67108845, 26⟩, ⟨134217703, 27⟩, ⟨134217704, 27⟩, ⟨134217705, 27⟩,
    ⟨134217706, 27⟩, ⟨134217707, 27⟩, ⟨268435454, 28⟩, ⟨134217708, 27⟩, ⟨134217709, 27⟩,
    ⟨134217710, 27⟩, ⟨134217711, 27⟩, ⟨134217712, 27⟩, ⟨67108846, 26⟩, ⟨1073741823, 30⟩]

/-- The lowest `n` bits of a number, the most significant first. -/
def natBits : ℕ → ℕ → List Bool
  | 0, _ => []
  | n + 1, v => v.testBit n :: natBits n v

/-- The bits of an octet, the most significant first. -/
def octetBits (b : UInt8) : List Bool := natBits 8 b.toNat

/-- The code words with their symbols. -/
def huffWords : List (List Bool × ℕ) :=
  huffTable.zipIdx.map fun entry => (natBits entry.1.bits entry.1.code, entry.2)

/-- The entry of EOS. -/
def huffEos : ℕ := 256

/-- `H2C_HUFF_NODES`. -/
def huffNodesMax : ℕ := 1024

/-! ## The decoder -/

/-- `huff_build`. There is no trie when the node array overflows. -/
def huffBuild : Option (List (TrieNode ℕ)) := Trie.build huffNodesMax huffWords

/-- The local variables of `huff_decode`; `out` is what has been emitted. -/
structure HuffState where
  node : ℕ
  out : Octets
  padOnes : Bool
  depth : ℕ

/-- The body of the loops of `huff_decode` for one bit. -/
def huffStep (nodes : List (TrieNode ℕ)) (outCap : ℕ) (s : HuffState) (bit : Bool) :
    Option HuffState :=
  match Trie.child nodes s.node bit with
  | none => none
  | some next =>
    match Trie.sym nodes next with
    | none => some { s with node := next, padOnes := s.padOnes && bit, depth := s.depth + 1 }
    | some sym =>
      if sym = huffEos then none
      else if outCap ≤ s.out.length then none
      else some { node := 0, out := s.out ++ [UInt8.ofNat sym], padOnes := true, depth := 0 }

/-- The end of `huff_decode`. -/
def huffFinish (s : HuffState) : Option Octets :=
  if s.node ≠ 0 ∧ (s.padOnes = false ∨ 7 < s.depth) then none else some s.out

/-- `huff_decode`. -/
def huffDecode (input : Octets) (outCap : ℕ) : Option Octets :=
  huffBuild.bind fun nodes =>
    ((input.flatMap octetBits).foldlM (huffStep nodes outCap) ⟨0, [], true, 0⟩).bind huffFinish

/-! ## The reference -/

def huffSymbol (word : List Bool) : Option ℕ :=
  (huffWords.find? fun entry => decide (entry.1 = word)).map Prod.snd

namespace Reference

/-- One more bit: the bits since the last symbol, and the octets so far. -/
def huffStep (s : List Bool × Octets) (bit : Bool) : Option (List Bool × Octets) :=
  match huffSymbol (s.1 ++ [bit]) with
  | none => some (s.1 ++ [bit], s.2)
  | some sym => if sym = huffEos then none else some ([], s.2 ++ [UInt8.ofNat sym])

/-- The padding is at most seven ones. -/
def huffFinish (s : List Bool × Octets) : Option Octets :=
  if s.1.all id = true ∧ s.1.length ≤ 7 then some s.2 else none

/-- The octets of a Huffman-coded string. -/
def huffDecode (input : Octets) : Option Octets :=
  ((input.flatMap octetBits).foldlM huffStep ([], [])).bind huffFinish

end Reference

/-! ## The trie of the table -/

@[simp] theorem natBits_length (n v : ℕ) : (natBits n v).length = n := by
  induction n with
  | zero => rfl
  | succ n ih => rw [natBits, length_cons, ih]

theorem natBits_take {n k : ℕ} (le : k ≤ n) (v : ℕ) :
    (natBits n v).take k = natBits k (v >>> (n - k)) := by
  induction n generalizing k with
  | zero =>
    obtain rfl := Nat.le_zero.mp le
    rfl
  | succ n ih =>
    rcases k with _ | k
    · rfl
    have le : k ≤ n := Nat.le_of_succ_le_succ le
    have shift : n + 1 - (k + 1) = n - k := by omega
    rw [natBits, natBits, take_succ_cons, ih le, shift, Nat.testBit_shiftRight,
      Nat.sub_add_cancel le]

theorem shiftRight_sub_lt {n k v : ℕ} (le : k ≤ n) (lt : v < 2 ^ n) : v >>> (n - k) < 2 ^ k := by
  rw [Nat.shiftRight_eq_div_pow, Nat.div_lt_iff_lt_mul (Nat.two_pow_pos _), ← Nat.pow_add,
    Nat.add_sub_cancel' le]
  exact lt

theorem natBits_testBit {n v w : ℕ} (same : natBits n v = natBits n w) :
    ∀ i < n, v.testBit i = w.testBit i := by
  induction n with
  | zero =>
    intro i lt
    exact absurd lt (Nat.not_lt_zero i)
  | succ n ih =>
    intro i lt
    obtain ⟨head, tail⟩ := List.cons.inj same
    rcases Nat.lt_succ_iff_lt_or_eq.mp lt with before | rfl
    · exact ih tail i before
    · exact head

theorem natBits_injective {n v w : ℕ} (vLt : v < 2 ^ n) (wLt : w < 2 ^ n)
    (same : natBits n v = natBits n w) : v = w := by
  apply Nat.eq_of_testBit_eq
  intro i
  rcases Nat.lt_or_ge i n with inside | outside
  · exact natBits_testBit same i inside
  have le : 2 ^ n ≤ 2 ^ i := Nat.pow_le_pow_right (by decide) outside
  rw [Nat.testBit_lt_two_pow (Nat.lt_of_lt_of_le vLt le),
    Nat.testBit_lt_two_pow (Nat.lt_of_lt_of_le wLt le)]

theorem huffTable_fits : ∀ c ∈ huffTable, c.bits ≤ 30 ∧ c.code < 2 ^ c.bits := by decide +kernel

/-- Code words of one length increase with the symbol. -/
theorem huffTable_increasing : ∀ n ∈ List.range 31,
    ((huffTable.filter fun c => decide (c.bits = n)).map HuffCode.code).IsChain (· < ·) := by
  decide +kernel

theorem huffWords_fst : huffWords.map Prod.fst = huffTable.map fun c => natBits c.bits c.code := by
  unfold huffWords
  rw [map_map]
  exact (map_map (f := Prod.fst) (g := fun c : HuffCode => natBits c.bits c.code)).symm.trans
    (congrArg _ (zipIdx_map_fst 0 huffTable))

theorem huffWords_distinct : (huffWords.map Prod.fst).Nodup := by
  rw [huffWords_fst]
  apply pairwise_map.mpr
  apply pairwise_iff_getElem.mpr
  intro i j hi hj lt same
  have fits := huffTable_fits _ (getElem_mem hi)
  have fits' := huffTable_fits _ (getElem_mem hj)
  have bits : huffTable[j].bits = huffTable[i].bits := by
    simpa using (congrArg List.length same).symm
  have chain := huffTable_increasing huffTable[i].bits
    (mem_range.mpr (Nat.lt_succ_of_le fits.1))
  have sorted := pairwise_iff_getElem.mp
    (pairwise_filter.mp (pairwise_map.mp (isChain_iff_pairwise.mp chain)))
    i j hi hj lt (decide_eq_true rfl) (decide_eq_true bits)
  rw [bits] at same fits'
  exact Nat.ne_of_lt sorted (natBits_injective fits.2 fits'.2 same)

/-- The least prefix of each length. The prefixes of one length are the numbers
from there to the greatest of that length. -/
def huffFloor : List ℕ :=
  [0, 0, 0, 0, 0, 0, 20, 92, 248, 508, 1016, 2042, 4090, 8184, 16380, 32764, 65534, 131068, 262136,
    524272, 1048550, 2097116, 4194258, 8388568, 16777194, 33554412, 67108832, 134217694, 268435426,
    536870910, 1073741820]

theorem huffFloor_le : ∀ c ∈ huffTable, ∀ k ∈ List.range (c.bits + 1),
    huffFloor.getD k 0 ≤ c.code >>> (c.bits - k) := by
  decide +kernel

/-- All prefixes of the code words. -/
def huffPaths : List (List Bool) :=
  (List.range 31).flatMap fun k =>
    (List.range' (huffFloor.getD k 0) (2 ^ k - huffFloor.getD k 0)).map (natBits k)

theorem huffPaths_length : huffPaths.length ≤ huffNodesMax := by
  have lengths : huffPaths.length =
      ((List.range 31).map fun k => 2 ^ k - huffFloor.getD k 0).sum := by
    simp [huffPaths, length_flatMap]
  rw [lengths]
  decide +kernel

theorem mem_huffPaths {q : List Bool} (path : Trie.IsPath huffWords q) : q ∈ huffPaths := by
  obtain ⟨c, among, sub⟩ : ∃ c ∈ huffTable, q <+: natBits c.bits c.code := by
    rcases path with rfl | ⟨w, among, sub⟩
    · exact ⟨⟨8184, 13⟩, mem_cons_self, nil_prefix⟩
    have mem : w.1 ∈ huffTable.map fun c => natBits c.bits c.code := by
      rw [← huffWords_fst]
      exact mem_map_of_mem among
    obtain ⟨c, among, word⟩ := mem_map.mp mem
    exact ⟨c, among, word ▸ sub⟩
  obtain ⟨bits, code⟩ := huffTable_fits c among
  have le : q.length ≤ c.bits := by simpa using sub.length_le
  have floor := huffFloor_le c among q.length (mem_range.mpr (Nat.lt_succ_of_le le))
  have ceiling := shiftRight_sub_lt le code
  apply mem_flatMap.mpr
  refine ⟨q.length, mem_range.mpr (by omega), ?_⟩
  apply mem_map.mpr
  refine ⟨c.code >>> (c.bits - q.length), List.mem_range'_1.mpr ⟨floor, by omega⟩, ?_⟩
  rw [← natBits_take le, ← prefix_iff_eq_take.mp sub]

theorem huffWords_eos : (List.replicate 30 true, huffEos) ∈ huffWords := by decide +kernel

/-- **The trie of the table.** It is built, its paths are the prefixes of the
code words, and its symbols are those of the code words. -/
theorem huffBuild_represents : ∃ nodes paths syms, huffBuild = some nodes ∧
    Trie.Represents nodes paths syms ∧ (∀ q, q ∈ paths ↔ Trie.IsPath huffWords q) ∧
    ∀ q s, syms q = some s ↔ (q, s) ∈ huffWords := by
  refine Trie.build_represents ?_ huffWords_distinct
  intro qs nodup sub
  have among : qs ⊆ huffPaths := fun q mem => mem_huffPaths (sub q mem)
  exact (nodup.subperm among).length_le.trans huffPaths_length

/-! ## The two decoders agree -/

theorem huffSymbol_eq_some {word : List Bool} {sym : ℕ} :
    huffSymbol word = some sym ↔ (word, sym) ∈ huffWords := by
  unfold huffSymbol
  rw [Option.map_eq_some_iff]
  constructor
  · rintro ⟨entry, found, rfl⟩
    obtain rfl : entry.1 = word := by simpa using List.find?_some found
    exact List.mem_of_find?_eq_some found
  intro mem
  obtain ⟨entry, found⟩ : ∃ entry,
      huffWords.find? (fun entry => decide (entry.1 = word)) = some entry := by
    apply Option.isSome_iff_exists.mp
    rw [List.find?_isSome]
    exact ⟨_, mem, decide_eq_true rfl⟩
  have same : entry.1 = word := by simpa using List.find?_some found
  have entryEq : entry = (word, sym) :=
    inj_on_of_nodup_map huffWords_distinct (List.mem_of_find?_eq_some found) mem same
  exact ⟨entry, found, by rw [entryEq]⟩

variable {p : List Bool} {acc bits : List Bool} {bit : Bool}

theorem isPath_of_append (path : Trie.IsPath huffWords (p ++ [bit])) : Trie.IsPath huffWords p := by
  rcases path with nil | ⟨w, among, sub⟩
  · simp at nil
  · exact .inr ⟨w, among, (prefix_append p [bit]).trans sub⟩

/-- Bits that could be padding begin the code word of EOS. -/
theorem ones_begin_eos (ones : p.all id = true) (short : p.length ≤ 7) :
    p <+: List.replicate 30 true := by
  have eq : p = List.replicate p.length true := by
    apply eq_replicate_iff.mpr
    exact ⟨rfl, fun b mem => all_eq_true.mp ones b mem⟩
  rw [eq]
  exact ⟨List.replicate (30 - p.length) true, by rw [replicate_append_replicate]; congr 1; omega⟩

/-- A bit that leaves the trie ends no code word. -/
theorem reference_huffStep_off (off : ¬ Trie.IsPath huffWords (acc ++ [bit])) (out : Octets) :
    Reference.huffStep (acc, out) bit = some (acc ++ [bit], out) := by
  have noSymbol : huffSymbol (acc ++ [bit]) = none := by
    apply Option.eq_none_iff_forall_not_mem.mpr
    intro sym found
    exact off (.inr ⟨_, huffSymbol_eq_some.mp found, prefix_refl _⟩)
  unfold Reference.huffStep
  rw [noSymbol]

theorem reference_huff_dead : ∀ {acc : List Bool} {out : Octets}, ¬ Trie.IsPath huffWords acc →
      (bits.foldlM Reference.huffStep (acc, out)).bind Reference.huffFinish = none := by
  induction bits with
  | nil =>
    intro acc out off
    have rejected : ¬ (acc.all id = true ∧ acc.length ≤ 7) := fun padding =>
      off (.inr ⟨_, huffWords_eos, ones_begin_eos padding.1 padding.2⟩)
    exact if_neg rejected
  | cons bit bits ih =>
    intro acc out off
    have off' : ¬ Trie.IsPath huffWords (acc ++ [bit]) := fun path => off (isPath_of_append path)
    rw [foldlM_cons, reference_huffStep_off off']
    exact ih off'

/-- The states of the two decoders between two bits. -/
structure HuffRel (paths : List (List Bool)) (s : HuffState) (acc : List Bool) (out : Octets) :
    Prop where
  node : paths[s.node]? = some acc
  out : s.out = out
  padOnes : s.padOnes = acc.all id
  depth : s.depth = acc.length

section Agree

variable {nodes : List (TrieNode ℕ)} {paths : List (List Bool)} {syms : List Bool → Option ℕ}

theorem huffFinish_agree (r : Trie.Represents nodes paths syms) {s : HuffState} {out : Octets}
    (rel : HuffRel paths s acc out) :
    huffFinish s = Reference.huffFinish (acc, out) := by
  unfold huffFinish Reference.huffFinish
  rw [rel.out, rel.padOnes, rel.depth]
  by_cases atRoot : s.node = 0
  · have empty : acc = [] := by
      have found := rel.node
      rw [atRoot, r.root] at found
      exact (Option.some.inj found).symm
    simp [atRoot, empty]
  by_cases padding : acc.all id = true ∧ acc.length ≤ 7
  · rw [if_pos padding, if_neg]
    rintro ⟨-, zero | long⟩
    · rw [padding.1] at zero
      cases zero
    · exact absurd padding.2 (Nat.not_le.mpr long)
  rw [if_neg padding, if_pos]
  refine ⟨atRoot, ?_⟩
  by_cases ones : acc.all id = true
  · exact .inr (Nat.not_le.mp fun short => padding ⟨ones, short⟩)
  · exact .inl (Bool.eq_false_iff.mpr ones)

theorem huffRun_agree (r : Trie.Represents nodes paths syms)
    (members : ∀ q, q ∈ paths ↔ Trie.IsPath huffWords q)
    (symbols : ∀ q s, syms q = some s ↔ (q, s) ∈ huffWords) {cap : ℕ} :
    ∀ {s : HuffState} {acc : List Bool} {out : Octets}, HuffRel paths s acc out →
      out.length + bits.length ≤ cap →
      (bits.foldlM (huffStep nodes cap) s).bind huffFinish =
        (bits.foldlM Reference.huffStep (acc, out)).bind Reference.huffFinish := by
  induction bits with
  | nil =>
    intro s acc out rel _
    exact huffFinish_agree r rel
  | cons bit bits ih =>
    intro s acc out rel room
    rw [length_cons] at room
    rcases next : Trie.child nodes s.node bit with _ | j
    · -- The trie is left here, and the reference rejects in the end.
      have off : ¬ Trie.IsPath huffWords (acc ++ [bit]) := fun path =>
        r.not_mem_of_child_none rel.node next ((members _).mpr path)
      have left : huffStep nodes cap s bit = none := by
        unfold huffStep
        rw [next]
      rw [foldlM_cons, foldlM_cons, left, reference_huffStep_off off]
      exact (reference_huff_dead off).symm
    have path : paths[j]? = some (acc ++ [bit]) := (r.child _ acc rel.node bit j).mp next
    have symbol : Trie.sym nodes j = huffSymbol (acc ++ [bit]) := by
      rw [r.sym j _ path]
      exact Option.ext fun s => (symbols _ s).trans huffSymbol_eq_some.symm
    rw [foldlM_cons, foldlM_cons]
    unfold huffStep Reference.huffStep
    rw [next]
    dsimp only
    rw [symbol]
    rcases huffSymbol (acc ++ [bit]) with _ | sym
    · refine ih ⟨path, rel.out, ?_, ?_⟩ (by omega)
      · simp [rel.padOnes]
      · simp [rel.depth]
    dsimp only
    by_cases eos : sym = huffEos
    · rw [if_pos eos, if_pos eos]
      rfl
    have space : ¬ cap ≤ s.out.length := by
      rw [rel.out]
      omega
    rw [if_neg eos, if_neg space, if_neg eos]
    refine ih ⟨r.root, ?_, rfl, rfl⟩ ?_
    · rw [rel.out]
    · simp only [length_append, length_singleton]
      omega

end Agree

theorem flatMap_octetBits_length (input : Octets) :
    (input.flatMap octetBits).length = 8 * input.length := by
  induction input with
  | nil => rfl
  | cons b input ih =>
    rw [flatMap_cons, length_append, ih, octetBits, natBits_length, length_cons]
    omega

/-- **Huffman decoding.** With room for one octet for every bit the decoder
returns what the reference returns. -/
theorem huffDecode_eq_reference {input : Octets} {outCap : ℕ} (room : 8 * input.length ≤ outCap) :
    huffDecode input outCap = Reference.huffDecode input := by
  obtain ⟨nodes, paths, syms, built, r, members, symbols⟩ := huffBuild_represents
  unfold huffDecode Reference.huffDecode
  rw [built, Option.bind_some]
  refine huffRun_agree r members symbols ⟨r.root, rfl, rfl, rfl⟩ ?_
  rw [flatMap_octetBits_length, length_nil]
  omega

end Strimserver.Hpack
