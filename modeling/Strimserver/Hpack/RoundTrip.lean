import Strimserver.Hpack.DecoderCorrect
import Strimserver.Hpack.EncoderSound

/-!
# The encoder and the decoder together

`hpack_encode_field` and `hpack_decode_block` of `h2c.c`, the one reading what the
other wrote. Both change their tables by `dyn_add` alone, so that equal tables stay
equal, also where both leave RFC 7541, for a field that is larger than the table.

What bounds the round trip is the length of a string. `hpack_read_int` refuses
every value above 2³¹ - 1, and `hpack_read_string` returns the octets of a string
and of its length together as an `int`. The length of such a string takes six
octets, which leaves 2³¹ - 7 for the string.
-/

namespace Strimserver.Hpack

open List Option

/-! ## Fields in blocks -/

/-- Calls of `hpack_encode_field` block by block, each block into a buffer of the
given size: the tables after the blocks, and the octets. -/
def hpackEncodeBlocks (d : HpackDyn) (cap : ℕ) :
    List (List Field) → Option (List (HpackDyn × Octets))
  | [] => some []
  | fs :: blocks =>
    match hpackEncodeFields d cap fs with
    | (_, none) => none
    | (d, some out) => (hpackEncodeBlocks d cap blocks).map ((d, out) :: ·)

/-- The longest string that `hpack_read_string` returns. -/
def longestString : ℕ := 2 ^ 31 - 7

/-- The decoder can read both strings. -/
structure Field.Readable (f : Field) : Prop where
  name : f.name.length ≤ longestString
  value : f.value.length ≤ longestString

/-! ## Integers and strings -/

theorem intOctets_length (value width pattern : ℕ) :
    (intOctets value width pattern).length ≤ 6 := by
  rw [intOctets]
  rcases written : hpackWriteIntEx 6 value width pattern with _ | enc
  · exact Nat.zero_le 6
  · exact (hpackWriteIntEx_length written).1

/-- **An integer is read back.** -/
theorem hpackReadInt_written {value : ℕ} (small : value < 2 ^ 31) (width pattern : ℕ)
    (aligned : pattern % 2 ^ width = 0) (fits : pattern + 2 ^ width ≤ 256) (rest : Octets) :
    hpackReadInt (intOctets value width pattern ++ rest) width =
      some (value, (intOctets value width pattern).length) := by
  obtain ⟨b, tail, eq, -, read⟩ :=
    intOctets_spec (small.trans (by decide)) width pattern aligned fits
  have short := intOctets_length value width pattern
  rw [eq, length_cons] at short
  rw [eq, cons_append, hpackReadInt_eq (read rest) (Nat.le_of_succ_le_succ short) small]
  rfl

/-- **A string is read back.** -/
theorem hpackReadString_written {s : Octets} (short : s.length ≤ longestString) (rest : Octets) :
    hpackReadString (stringOctets s ++ rest) = some (s, (stringOctets s).length) := by
  have small : s.length < 2 ^ 31 := Nat.lt_of_le_of_lt short (by decide)
  have readInt := hpackReadInt_written small 7 0 (by decide) (by decide) (s ++ rest)
  obtain ⟨b, tail, eq, first, -⟩ :=
    intOctets_spec (small.trans (by decide)) 7 0 (by decide) (by decide)
  have plain : ¬ b &&& 0x80 ≠ 0 := fun high => by
    have := (octet_patterns b).1.mp high
    omega
  have room : ¬ (s ++ rest).length < s.length := by
    rw [length_append]
    omega
  rw [stringOctets, append_assoc, length_append]
  rw [eq, cons_append] at readInt ⊢
  unfold hpackReadString
  rw [readInt]
  dsimp only
  rw [← cons_append, drop_left, if_neg room, if_neg plain, take_left]

/-! ## Fields -/

section Field

variable {d : HpackDyn} {f : Field}

theorem small_index (wf : d.WellFormed) {test : Field → Bool} {index : ℕ}
    (eq : index = joinIndex (findIndex test hpackStatic) (dynFind test d)) : index < 2 ^ 31 :=
  (joinIndex_le eq wf).trans_lt (by decide)

/-- The index of a pair is the index of that pair for the decoder. -/
theorem fieldIndexed_pairIndex (wf : d.WellFormed) (found : pairIndex d f ≠ 0) :
    fieldIndexed d (pairIndex d f) = some f := by
  have small : pairIndex d f < 2 ^ 31 := small_index wf rfl
  obtain ⟨f', passes, place⟩ := joinIndex_spec (d := d) (Eq.refl (pairIndex d f)) found
  obtain rfl : f' = f := of_decide_eq_true passes
  unfold fieldIndexed
  rcases place with ⟨static, entry⟩ | ⟨dynamic, entry⟩
  · rw [if_pos ⟨Nat.pos_of_ne_zero found, static⟩, entry]
  · have unwrapped : (pairIndex d f' + (2 ^ 32 - 61)) % 2 ^ 32 = pairIndex d f' - 61 := by omega
    rw [if_neg (by omega), unwrapped, dynGet_field, if_neg (by omega), entry]

/-- The index of a name is the index of that name for the decoder. -/
theorem fieldResolveName_nameIndex {name : Octets} (found : nameIndex d name ≠ 0) :
    fieldResolveName d (nameIndex d name) = some name := by
  obtain ⟨f, passes, place⟩ := joinIndex_spec (d := d) (Eq.refl (nameIndex d name)) found
  obtain rfl : f.name = name := of_decide_eq_true passes
  unfold fieldResolveName
  rcases place with ⟨static, entry⟩ | ⟨dynamic, entry⟩
  · rw [if_pos static, entry, map_some]
  have get := dynGet_field d (nameIndex d f.name - 61)
  rw [if_neg (by omega), entry] at get
  obtain ⟨e, found, eq⟩ := map_eq_some_iff.mp get
  rw [if_neg (by omega), found, map_some, eq]

theorem hpackReadLiteral_indexedName (wf : d.WellFormed) (readable : f.Readable)
    (found : nameIndex d f.name ≠ 0) (rest : Octets) :
    hpackReadLiteral d 6 (intOctets (nameIndex d f.name) 6 0x40 ++
      (stringOctets f.value ++ rest)) = some (f, rest) := by
  have small : nameIndex d f.name < 2 ^ 31 := small_index wf rfl
  unfold hpackReadLiteral
  rw [hpackReadInt_written small 6 0x40 (by decide) (by decide)]
  dsimp only
  rw [drop_left, if_neg found, fieldResolveName_nameIndex found]
  dsimp only [map_some]
  rw [hpackReadString_written readable.value, map_some, drop_left]

theorem hpackReadLiteral_literalName (d : HpackDyn) (readable : f.Readable) (rest : Octets) :
    hpackReadLiteral d 6 (intOctets 0 6 0x40 ++
      (stringOctets f.name ++ (stringOctets f.value ++ rest))) = some (f, rest) := by
  unfold hpackReadLiteral
  rw [hpackReadInt_written (by decide) 6 0x40 (by decide) (by decide)]
  dsimp only
  rw [drop_left, if_pos rfl, hpackReadString_written readable.name, map_some, drop_left]
  dsimp only
  rw [hpackReadString_written readable.value, map_some, drop_left]

variable {most fuel : ℕ} {rest : Octets} {acc : List Field}

/-- A round of the loop for a literal that is added to the table. -/
theorem hpackDecodeLoop_incremental (d : HpackDyn) {index : ℕ} (small : index < 2 ^ 32)
    (body : Octets) (room : acc.length < most) :
    hpackDecodeLoop most (fuel + 1) d (intOctets index 6 0x40 ++ body) acc =
      (hpackReadLiteral d 6 (intOctets index 6 0x40 ++ body)).bind fun read =>
        hpackDecodeLoop most fuel (dynAdd d read.1) read.2 (acc ++ [read.1]) := by
  obtain ⟨b, tail, eq, first, -⟩ := intOctets_spec small 6 0x40 (by decide) (by decide)
  obtain ⟨high, literal, -⟩ := octet_patterns b
  rw [eq, cons_append, hpackDecodeLoop, if_neg (Nat.not_le.mpr room), if_neg (by rw [high]; omega),
    if_pos (literal.mpr (by omega))]
  cases hpackReadLiteral d 6 (b :: (tail ++ body)) with
  | none => rfl
  | some => rfl

/-- **One round reads one field**, and changes the table as the encoder did. -/
theorem hpackDecodeLoop_field (wf : d.WellFormed) (readable : f.Readable)
    (room : acc.length < most) :
    hpackDecodeLoop most (fuel + 1) d (fieldOctets d f ++ rest) acc =
      hpackDecodeLoop most fuel (fieldTable d f) rest (acc ++ [f]) := by
  unfold fieldOctets fieldTable
  split
  · rename_i found
    have small : pairIndex d f < 2 ^ 31 := small_index wf rfl
    have read := hpackReadInt_written small 7 0x80 (by decide) (by decide) rest
    obtain ⟨b, tail, eq, first, -⟩ :=
      intOctets_spec (small.trans (by decide)) 7 0x80 (by decide) (by decide)
    have indexed := (octet_patterns b).1.mpr (by omega)
    rw [eq, cons_append] at read ⊢
    rw [hpackDecodeLoop, if_neg (Nat.not_le.mpr room), if_pos indexed, read]
    dsimp only
    rw [fieldIndexed_pairIndex wf found, ← cons_append, drop_left]
  split
  · rename_i found
    have small := nameIndex_lt wf f.name
    rw [append_assoc, hpackDecodeLoop_incremental d small _ room,
      hpackReadLiteral_indexedName wf readable found rest, bind_some]
  rw [append_assoc, append_assoc, hpackDecodeLoop_incremental d (by decide) _ room,
    hpackReadLiteral_literalName d readable rest, bind_some]

theorem fieldOctets_length (wf : d.WellFormed) (f : Field) : 0 < (fieldOctets d f).length := by
  have written : ∀ {index width pattern : ℕ}, index < 2 ^ 32 → pattern % 2 ^ width = 0 →
      pattern + 2 ^ width ≤ 256 → 0 < (intOctets index width pattern).length := by
    intro index width pattern small aligned fits
    obtain ⟨b, tail, eq, -⟩ := intOctets_spec small width pattern aligned fits
    rw [eq]
    exact Nat.succ_pos _
  unfold fieldOctets
  split
  · exact written (joinIndex_lt rfl wf) (by decide) (by decide)
  split
  · rw [length_append]
    exact Nat.add_pos_left (written (joinIndex_lt rfl wf) (by decide) (by decide)) _
  · rw [append_assoc, length_append]
    exact Nat.add_pos_left (written (by decide) (by decide) (by decide)) _

end Field

/-! ## Blocks -/

theorem hpackDecodeLoop_fieldsOctets {d : HpackDyn} (wf : d.WellFormed) {fs acc : List Field}
    (readable : ∀ f ∈ fs, f.Readable) {most fuel : ℕ} (room : acc.length + fs.length ≤ most)
    (enough : (fieldsOctets d fs).length ≤ fuel) :
    hpackDecodeLoop most fuel d (fieldsOctets d fs) acc = some (fieldsTable d fs, acc ++ fs) := by
  induction fs generalizing d acc fuel with
  | nil =>
    rw [append_nil]
    cases fuel with
    | zero => rfl
    | succ => rfl
  | cons f fs ih =>
    have positive := fieldOctets_length wf f
    rw [length_cons] at room
    rw [fieldsOctets, length_append] at enough
    obtain ⟨fuel, rfl⟩ : ∃ n, fuel = n + 1 := ⟨fuel - 1, by omega⟩
    have rest : hpackDecodeLoop most fuel (fieldTable d f) (fieldsOctets (fieldTable d f) fs)
        (acc ++ [f]) = some (fieldsTable (fieldTable d f) fs, acc ++ [f] ++ fs) :=
      ih (fieldTable_wellFormed wf f) (fun f' mem => readable f' (mem_cons_of_mem f mem))
        (by rw [length_append, length_singleton]; omega) (by omega)
    rw [fieldsOctets, hpackDecodeLoop_field wf (readable f mem_cons_self) (by omega), rest,
      append_assoc]
    rfl

theorem fieldsTable_wellFormed {d : HpackDyn} (wf : d.WellFormed) (fs : List Field) :
    (fieldsTable d fs).WellFormed := by
  induction fs generalizing d with
  | nil => exact wf
  | cons f fs ih => exact ih (fieldTable_wellFormed wf f)

/-- **The round trip.** With equal tables, fields that the decoder can read in blocks of at most 32,
and large enough buffers, every block is encoded, the decoder returns its fields in order, and the
tables are equal after it. -/
theorem hpackDecodeBlocks_encoded (d : HpackDyn) (wf : d.WellFormed) (blocks : List (List Field))
    (few : ∀ fs ∈ blocks, fs.length ≤ maxFields) (readable : ∀ fs ∈ blocks, ∀ f ∈ fs, f.Readable) :
    ∃ enough, ∀ cap, enough ≤ cap → ∃ encoded decoded,
      hpackEncodeBlocks d cap blocks = some encoded ∧
        hpackDecodeBlocks d (encoded.map Prod.snd) = some decoded ∧
        decoded.map Prod.snd = blocks ∧ decoded.map Prod.fst = encoded.map Prod.fst := by
  induction blocks generalizing d with
  | nil => exact ⟨0, fun cap _ => ⟨[], [], rfl, rfl, rfl, rfl⟩⟩
  | cons fs blocks ih =>
    obtain ⟨enough, rest⟩ := ih (fieldsTable d fs) (fieldsTable_wellFormed wf fs)
      (fun fs' member => few fs' (mem_cons_of_mem fs member))
      (fun fs' member => readable fs' (mem_cons_of_mem fs member))
    refine ⟨(fieldsOctets d fs).length + enough, fun cap large => ?_⟩
    obtain ⟨encoded, decoded, encode, decode, fields, tables⟩ := rest cap (by omega)
    have readableFirst := readable fs mem_cons_self
    have limit : longestString < 2 ^ 32 := by decide
    have first : hpackEncodeFields d cap fs = (fieldsTable d fs, some (fieldsOctets d fs)) :=
      hpackEncodeFields_fits wf (.of_lengths fun f member =>
        ⟨(readableFirst f member).name.trans_lt limit,
          (readableFirst f member).value.trans_lt limit⟩) (by omega)
    have back : hpackDecodeBlock d (fieldsOctets d fs) maxFields = some (fieldsTable d fs, fs) :=
      hpackDecodeLoop_fieldsOctets wf readableFirst
        (by simpa using few fs mem_cons_self) (Nat.le_refl _)
    refine ⟨(fieldsTable d fs, fieldsOctets d fs) :: encoded, (fieldsTable d fs, fs) :: decoded,
      ?_, ?_, ?_, ?_⟩
    · rw [hpackEncodeBlocks, first]
      dsimp only
      rw [encode, map_some]
    · rw [map_cons, hpackDecodeBlocks, back, bind_some]
      dsimp only
      rw [decode, map_some]
    · rw [map_cons, fields]
    · rw [map_cons, map_cons, tables]

/-- Two blocks: a literal, and the index of the entry that it has left. -/
theorem hpackDecodeBlocks_encoded_twice :
    ∃ enough, ∀ cap, enough ≤ cap → ∃ encoded decoded,
      hpackEncodeBlocks dynReset cap [[.ofStrings "te" "trailers"], [.ofStrings "te" "trailers"]] =
          some encoded ∧
        hpackDecodeBlocks dynReset (encoded.map Prod.snd) = some decoded ∧
        decoded.map Prod.snd = [[.ofStrings "te" "trailers"], [.ofStrings "te" "trailers"]] ∧
        decoded.map Prod.fst = encoded.map Prod.fst :=
  hpackDecodeBlocks_encoded dynReset dynReset_wellFormed _
    (by simp [maxFields])
    (by
      have readable : (Field.ofStrings "te" "trailers").Readable := ⟨by decide, by decide⟩
      simpa using readable)

/-! ## A string that is too long -/

/-- A string of 2³¹ octets is refused: its length is above the limit of
`hpack_read_int`. -/
theorem hpackReadString_long {s : Octets} (long : s.length = 2 ^ 31) :
    hpackReadString (stringOctets s) = none := by
  have octets : intOctets (2 ^ 31) 7 0 = [0x7f, 0x81, 0xff, 0xff, 0xff, 0x07] := by decide
  have refused : hpackReadInt ([0x7f, 0x81, 0xff, 0xff, 0xff, 0x07] ++ s) 7 = none := by
    simp +decide [hpackReadInt, hpackReadIntLoop]
  rw [stringOctets, long, octets]
  unfold hpackReadString
  rw [refused]
  rfl

/-- No index is found for a name that the static table does not have. -/
theorem joinIndex_unknown {name : Octets} (unknown : name ∉ hpackStatic.map Field.name)
    {test : Field → Bool} (named : ∀ f, test f = true → f.name = name) :
    joinIndex (findIndex test hpackStatic) (dynFind test dynReset) = 0 := by
  by_contra found
  obtain ⟨f, passes, ⟨-, entry⟩ | ⟨-, entry⟩⟩ := joinIndex_spec rfl found
  · rw [← named f passes] at unknown
    exact unknown (mem_map_of_mem (mem_of_getElem? entry))
  · cases entry

/-- A field without a NUL and with a value of 2³¹ octets is encoded, and the decoder
fails on it. -/
theorem hpackDecodeBlocks_refuses_encoded :
    ∃ f : Field, 0 ∉ f.name ∧ 0 ∉ f.value ∧ f.value.length = 2 ^ 31 ∧
      ∃ enough, ∀ cap, enough ≤ cap → ∃ encoded,
        hpackEncodeBlocks dynReset cap [[f]] = some encoded ∧
          hpackDecodeBlocks dynReset (encoded.map Prod.snd) = none := by
  obtain ⟨value, plain, length⟩ : ∃ value : Octets, 0 ∉ value ∧ value.length = 2 ^ 31 :=
    ⟨List.replicate (2 ^ 31) 97, fun member => absurd (eq_of_mem_replicate member) (by decide),
      length_replicate⟩
  have unknown : ascii "x" ∉ hpackStatic.map Field.name := by decide
  have plainName : 0 ∉ ascii "x" := by decide
  have shortName : (ascii "x").length < 2 ^ 32 := by decide
  refine ⟨⟨ascii "x", value⟩, plainName, plain, length,
    (fieldOctets dynReset ⟨ascii "x", value⟩).length, fun cap large => ?_⟩
  have encode : hpackEncodeFields dynReset cap [⟨ascii "x", value⟩] =
      (fieldTable dynReset ⟨ascii "x", value⟩,
        some (fieldOctets dynReset ⟨ascii "x", value⟩ ++ [])) := by
    rw [hpackEncodeFields, hpackEncodeField_fits dynReset_wellFormed
      ⟨fun _ _ => shortName, fun _ => length.trans_lt (by decide)⟩ large]
    rfl
  have refused : hpackDecodeBlock dynReset (fieldOctets dynReset ⟨ascii "x", value⟩) maxFields =
      none := by
    have positive := fieldOctets_length dynReset_wellFormed ⟨ascii "x", value⟩
    obtain ⟨fuel, enough⟩ := Nat.exists_eq_add_of_lt positive
    have missingPair : pairIndex dynReset ⟨ascii "x", value⟩ = 0 :=
      joinIndex_unknown unknown fun f passes => congrArg Field.name (of_decide_eq_true passes)
    have missingName : nameIndex dynReset (ascii "x") = 0 :=
      joinIndex_unknown unknown fun f passes => of_decide_eq_true passes
    rw [hpackDecodeBlock, enough, fieldOctets, if_neg (not_not.mpr missingPair),
      if_neg (not_not.mpr missingName), append_assoc,
      hpackDecodeLoop_incremental dynReset (by decide) _ (by decide), hpackReadLiteral,
      hpackReadInt_written (by decide) 6 0x40 (by decide) (by decide)]
    dsimp only
    rw [drop_left, if_pos rfl, hpackReadString_written (by decide), map_some, drop_left]
    dsimp only
    rw [hpackReadString_long length, map_none]
    rfl
  refine ⟨[(fieldTable dynReset ⟨ascii "x", value⟩,
    fieldOctets dynReset ⟨ascii "x", value⟩ ++ [])], ?_, ?_⟩
  · rw [hpackEncodeBlocks, encode]
    rfl
  · rw [map_singleton, hpackDecodeBlocks, append_nil, refused, bind_none]

end Strimserver.Hpack
