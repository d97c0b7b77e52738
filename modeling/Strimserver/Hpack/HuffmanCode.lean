import Strimserver.Hpack.Huffman
import Strimserver.Library.PrefixCode

/-!
# The Huffman code

The code words of the table are a prefix code: among the numbers of one length, the code words come
first and what begins a longer code word comes behind them. So the bits of an input are cut into
code words in one way only, and `huff_decode` accepts exactly the inputs that are code words of
octets followed by the padding. -/

namespace Strimserver.Hpack

open Library List Option

def huffCode (b : UInt8) : List Bool := (huffTable[b.toNat]?).elim [] fun c => natBits c.bits c.code

/-- The input is the code words of the octets, and less than eight ones behind them. -/
def HuffmanCoded (input octets : Octets) : Prop :=
  ∃ padding, input.flatMap octetBits = octets.flatMap huffCode ++ padding ∧ padding.length < 8 ∧
    ∀ bit ∈ padding, bit = true

/-! ## The code words are a prefix code -/

theorem mem_huffWords {word : List Bool} {sym : ℕ} :
    (word, sym) ∈ huffWords ↔ ∃ c, huffTable[sym]? = some c ∧ word = natBits c.bits c.code := by
  unfold huffWords
  rw [List.mem_map]
  constructor
  · rintro ⟨⟨c, i⟩, mem, same⟩
    cases same
    exact ⟨c, mem_zipIdx_iff_getElem?.mp mem, rfl⟩
  · rintro ⟨c, found, rfl⟩
    exact ⟨(c, sym), mem_zipIdx_iff_getElem?.mpr found, rfl⟩

/-- The least number of each length that begins a longer code word. -/
def huffCeiling : List ℕ :=
  [0, 0, 0, 0, 0, 10, 46, 124, 254, 508, 1021, 2045, 4092, 8190, 16382, 32767, 65534,
    131068, 262136,
    524275, 1048558, 2097129, 4194284, 8388597, 16777206, 33554416, 67108847, 134217713, 268435455,
    536870910, 1073741824]

theorem huffTable_lt_ceiling :
    ∀ c ∈ huffTable, c.code < huffCeiling.getD c.bits 0 := by decide +kernel

theorem huffCeiling_le : ∀ c ∈ huffTable, ∀ k ∈ List.range c.bits,
    huffCeiling.getD k 0 ≤ c.code >>> (c.bits - k) := by
  decide +kernel

/-- **No code word begins another one.** -/
theorem huffWords_free {w v : List Bool} {s t : ℕ} (first : (w, s) ∈ huffWords)
    (second : (v, t) ∈ huffWords) (sub : w <+: v) : w = v := by
  obtain ⟨c, found, rfl⟩ := mem_huffWords.mp first
  obtain ⟨d, found', rfl⟩ := mem_huffWords.mp second
  have le : c.bits ≤ d.bits := by simpa using sub.length_le
  rcases Nat.eq_or_lt_of_le le with same | shorter
  · exact sub.eq_of_length (by simpa using same)
  have fits := huffTable_fits c (mem_of_getElem? found)
  have fits' := huffTable_fits d (mem_of_getElem? found')
  have taken : natBits c.bits c.code = natBits c.bits (d.code >>> (d.bits - c.bits)) := by
    rw [← natBits_take le, prefix_iff_eq_take.mp sub, natBits_length]
  have same := natBits_injective fits.2 (shiftRight_sub_lt le fits'.2) taken
  have below := huffTable_lt_ceiling c (mem_of_getElem? found)
  have above := huffCeiling_le d (mem_of_getElem? found') c.bits (mem_range.mpr shorter)
  omega

/-- What a code word stands for: an octet, or EOS, which may not be used. -/
def huffMeaning (word : List Bool) : Option (Option UInt8) :=
  (huffSymbol word).map fun sym => if sym = huffEos then none else some (UInt8.ofNat sym)

theorem huffMeaning_some {word : List Bool} {meaning : Option UInt8}
    (means : huffMeaning word = some meaning) : ∃ sym, (word, sym) ∈ huffWords := by
  obtain ⟨sym, found, -⟩ := map_eq_some_iff.mp means
  exact ⟨sym, huffSymbol_eq_some.mp found⟩

theorem huffMeaning_eos : huffMeaning (List.replicate 30 true) = some none := by
  rw [huffMeaning, huffSymbol_eq_some.mpr huffWords_eos]
  rfl

theorem huffMeaning_isPrefixCode : PrefixCode.IsPrefixCode huffMeaning where
  empty := by
    cases means : huffMeaning [] with
    | none => rfl
    | some =>
      obtain ⟨sym, word⟩ := huffMeaning_some means
      cases huffWords_free word huffWords_eos nil_prefix
  free means means' sub := by
    obtain ⟨sym, word⟩ := huffMeaning_some means
    obtain ⟨sym', word'⟩ := huffMeaning_some means'
    exact huffWords_free word word' sub

theorem huffTable_length : huffTable.length = 257 := by decide +kernel

theorem huffMeaning_octet (word : List Bool) (b : UInt8) :
    huffMeaning word = some (some b) ↔ word = huffCode b := by
  constructor
  · intro means
    obtain ⟨sym, found, meaning⟩ := map_eq_some_iff.mp means
    obtain ⟨c, entry, rfl⟩ := mem_huffWords.mp (huffSymbol_eq_some.mp found)
    split_ifs at meaning with eos
    cases meaning
    obtain ⟨inside, -⟩ := List.getElem?_eq_some_iff.mp entry
    rw [huffTable_length] at inside
    have octet : (UInt8.ofNat sym).toNat = sym := by
      have ne : sym ≠ 256 := eos
      exact UInt8.toNat_ofNat_of_lt (show sym < 256 by omega)
    rw [huffCode, octet, entry]
    rfl
  rintro rfl
  have inside : b.toNat < huffTable.length := by
    have lt := b.toNat_lt
    rw [huffTable_length]
    omega
  have entry : huffTable[b.toNat]? = some huffTable[b.toNat] := List.getElem?_eq_getElem inside
  have word : (huffCode b, b.toNat) ∈ huffWords :=
    mem_huffWords.mpr ⟨_, entry, by rw [huffCode, entry]; rfl⟩
  have other : b.toNat ≠ huffEos := Nat.ne_of_lt b.toNat_lt
  rw [huffMeaning, huffSymbol_eq_some.mpr word, map_some, if_neg other, UInt8.ofNat_toNat]

/-! ## What the decoder accepts -/

theorem reference_huffStep_eq : Reference.huffStep = PrefixCode.step huffMeaning := by
  funext s bit
  unfold Reference.huffStep PrefixCode.step huffMeaning
  cases huffSymbol (s.1 ++ [bit]) with
  | none => rfl
  | some =>
    rw [map_some]
    dsimp only
    split_ifs <;> rfl

theorem reference_huffDecode_iff (input octets : Octets) :
    Reference.huffDecode input = some octets ↔ HuffmanCoded input octets := by
  unfold Reference.huffDecode HuffmanCoded
  rw [reference_huffStep_eq, bind_eq_some_iff]
  constructor
  · rintro ⟨⟨rest, out⟩, run, finished⟩
    obtain ⟨⟨ones, short⟩, same⟩ := ite_none_right_eq_some.mp finished
    cases same
    obtain ⟨words, spells, input, -⟩ := huffMeaning_isPrefixCode.decode_eq_some_iff.mp run
    rw [(PrefixCode.spells_iff huffMeaning_octet).mp spells] at input
    exact ⟨rest, input, Nat.lt_succ_of_le short, fun bit mem => all_eq_true.mp ones bit mem⟩
  rintro ⟨padding, input, short, ones⟩
  refine ⟨(padding, octets), ?_, ?_⟩
  · refine huffMeaning_isPrefixCode.decode_eq_some_iff.mpr ⟨octets.map huffCode, ?_, input, ?_⟩
    · exact (PrefixCode.spells_iff huffMeaning_octet).mpr rfl
    intro p sub
    have le := sub.length_le
    have all : p.all id = true := all_eq_true.mpr fun bit mem => ones bit (sub.subset mem)
    refine huffMeaning_isPrefixCode.not_word huffMeaning_eos (ones_begin_eos all (by omega)) ?_
    rintro rfl
    rw [length_replicate] at le
    omega
  · have all : padding.all id = true := all_eq_true.mpr ones
    exact if_pos ⟨all, Nat.le_of_lt_succ short⟩

/-- **Huffman decoding is exact.** The trie of the table is built within its array and has the 257
code words with their symbols. With room for one octet more than there are bits, the decoder returns
octets exactly when the input is their code words and less than eight ones, and these octets are
unique. -/
theorem huffDecode_exact :
    huffTable.length = 257 ∧
    (∃ nodes, huffBuild = some nodes ∧ nodes.length ≤ huffNodesMax ∧
      ∀ word sym, Trie.lookup nodes word = some sym ↔
        ∃ c, huffTable[sym]? = some c ∧ word = natBits c.bits c.code) ∧
    ∀ (input : Octets) (outCap : ℕ), 8 * input.length + 1 ≤ outCap →
      (∀ octets, huffDecode input outCap = some octets ↔ HuffmanCoded input octets) ∧
      ∀ octets octets', HuffmanCoded input octets → HuffmanCoded input octets' →
      octets = octets' := by
  refine ⟨huffTable_length, ?_, fun input outCap room => ?_⟩
  · obtain ⟨nodes, paths, syms, built, r, members, symbols⟩ := huffBuild_represents
    refine ⟨nodes, built, ?_, fun word sym => ?_⟩
    · rw [r.length]
      have among : paths ⊆ huffPaths := fun q member => mem_huffPaths ((members q).mp member)
      exact (r.nodup.subperm among).length_le.trans huffPaths_length
    · rw [r.lookup_eq, symbols, mem_huffWords]
  have decoded : ∀ octets, huffDecode input outCap = some octets ↔ HuffmanCoded input octets := by
    intro octets
    rw [huffDecode_eq_reference (by omega), reference_huffDecode_iff]
  refine ⟨decoded, fun octets octets' first second => ?_⟩
  exact Option.some.inj (((decoded octets).mpr first).symm.trans ((decoded octets').mpr second))

/-- The letter `a` has the code word `00011`, and three ones fill the octet. -/
theorem huffDecode_letter :
    HuffmanCoded [0x1f] [0x61] ∧ huffDecode [0x1f] 9 = some [0x61] := by
  have coded : HuffmanCoded [0x1f] [0x61] := ⟨[true, true, true], by decide, by decide, by decide⟩
  exact ⟨coded, ((huffDecode_exact.2.2 [0x1f] 9 (by decide)).1 [0x61]).mpr coded⟩

end Strimserver.Hpack
