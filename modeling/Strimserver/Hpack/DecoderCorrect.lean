import Strimserver.Hpack.Decoder
import Strimserver.Hpack.Reference

/-!
# The decoder against RFC 7541

`hpack_decode_block` differs from the RFC in three places. A field that is larger
than the table and is to be added to it empties the table in the RFC, and leaves
it as it is in `dyn_add`. A size update is compared with the current maximum and
not with the announced limit, so that a table that was shrunk can not grow again.
And an integer with more than five octets after the first is refused, whatever
its value.

The main theorem is about the connections without these: every block is accepted,
with the header list and the dynamic table of the reference.
-/

namespace Strimserver.Hpack

open Library List Option

/-! ## The condition -/

/-- Blocks below this length keep the lengths of their strings, times eight, within 32 bits. No
longer block gets here: a frame has a 24-bit length, and continued blocks end at 64 KiB. -/
def blockLimit : ℕ := 2 ^ 29

/-- A representation at any place of a block, which is how the program takes a
size update: the table after it, and the field if there is one. -/
def Reference.Table.step (t : Reference.Table) :
    Reference.Representation → Option (Reference.Table × List Field)
  | .sizeUpdate maxSize => some (t.resize maxSize, [])
  | rep => (t.apply rep).map fun done => (done.1, [done.2])

/-- No size update is above the current maximum, and no field that is larger than
the table is added to a table with entries. -/
def repAgrees (t : Reference.Table) : Reference.Representation → Bool
  | .sizeUpdate maxSize => decide (maxSize ≤ t.maxSize)
  | .incremental name value =>
    (t.resolve name).all fun n => t.fields.isEmpty || decide (Field.size ⟨n, value⟩ ≤ t.maxSize)
  | _ => true

/-- The condition on the representations of a block, each for the table that it
meets. -/
def repsAgree (t : Reference.Table) : List Reference.Representation → Bool
  | [] => true
  | rep :: reps => repAgrees t rep && (t.step rep).all fun done => repsAgree done.1 reps

/-- The condition on a block: on its representations, and no integer with more than
five octets after the first. -/
def blockAgrees (t : Reference.Table) (block : Octets) : Bool :=
  (Reference.parseBlock block).all fun parsed =>
    parsed.all (fun p => p.ints.all fun w => decide (w.octets ≤ 5)) &&
      repsAgree t (parsed.map Reference.Parsed.rep)

def blocksAgree (d : Reference.Decoder) : List Octets → Bool
  | [] => true
  | block :: blocks =>
    blockAgrees d.table block &&
      (d.decodeBlock block).all fun done => blocksAgree done.1 blocks

/-- Every integer of the block is below 2³¹. -/
def smallIntegers (block : Octets) : Bool :=
  (Reference.parseBlock block).all fun parsed =>
    parsed.all fun p => p.ints.all fun w => decide (w.value < 2 ^ 31)

/-! ## The tables -/

/-- The decoder takes the integer. -/
structure Readable (w : WireInt) : Prop where
  short : w.octets ≤ 5
  small : w.value < 2 ^ 31

/-- The program's table stands for the reference's. -/
structure Matches (d : HpackDyn) (t : Reference.Table) : Prop where
  wellFormed : d.WellFormed
  fields : d.fields = t.fields
  maxSize : d.maxSize = t.maxSize
  bound : t.maxSize ≤ 4096

theorem matches_reset : Matches dynReset (.empty 4096) :=
  ⟨dynReset_wellFormed, rfl, rfl, Nat.le_refl _⟩

/-- Every entry counts for 32 octets at least. -/
theorem length_le_total (fields : List Field) : 32 * fields.length ≤ total Field.size fields := by
  induction fields with
  | nil => exact Nat.zero_le _
  | cons f fields ih =>
    rw [length_cons, total_cons, Field.size]
    omega

namespace Matches

variable {d : HpackDyn} {t : Reference.Table}

theorem setMax (m : Matches d t) {maxSize : ℕ} (le : maxSize ≤ t.maxSize) :
    Matches (dynSetMax d maxSize) (t.resize maxSize) := by
  obtain ⟨wf, max, fields⟩ := dynSetMax_spec m.wellFormed maxSize
  exact ⟨wf, by rw [fields, m.fields]; rfl, max, le.trans m.bound⟩

/-- The limit of 128 entries is never met, as 4096 octets hold no more. -/
theorem add (m : Matches d t) {f : Field} (agree : t.fields = [] ∨ f.size ≤ t.maxSize) :
    Matches (dynAdd d f) (t.add f) := by
  obtain ⟨wf, max, fields⟩ := dynAdd_spec m.wellFormed f
  rw [m.fields, m.maxSize] at fields
  unfold Reference.Table.add
  by_cases within : f.size ≤ t.maxSize
  · rw [if_pos within] at fields
    rw [dif_pos within]
    refine ⟨wf, ?_, max.trans m.maxSize, m.bound⟩
    have few := length_le_total (fit Field.size (t.maxSize - f.size) t.fields)
    have most : total Field.size (fit Field.size (t.maxSize - f.size) t.fields) ≤
      t.maxSize - f.size := total_fit_le _ _
    have least : 32 ≤ f.size := Nat.le_add_left _ _
    have bound := m.bound
    rw [fields, take_of_length_le]
    rw [dynMaxEntries]
    omega
  · rw [if_neg within] at fields
    rw [dif_neg within]
    exact ⟨wf, fields.trans (agree.resolve_right within), max.trans m.maxSize, m.bound⟩

theorem getElem (m : Matches d t) (index : ℕ) :
    (dynGet d index).map HpackDynEntry.field =
      if index = 0 then none else t.fields[index - 1]? := by
  rw [dynGet_field, m.fields]

theorem fieldIndexed (m : Matches d t) {index : ℕ} (small : index < 2 ^ 31) :
    fieldIndexed d index = t.lookup index := by
  unfold Hpack.fieldIndexed
  split_ifs with range
  · rw [t.lookup_static (by omega) range.2]
  by_cases zero : index = 0
  · -- The wrapped index is far above the number of entries.
    have few := m.wellFormed.room
    rw [dynMaxEntries] at few
    subst zero
    rw [dynGet, if_pos (.inr (by omega))]
    rfl
  · have wrapped : (index + (2 ^ 32 - 61)) % 2 ^ 32 = index - 61 := by omega
    rw [wrapped, m.getElem, if_neg (by omega), t.lookup_dynamic (by omega)]

theorem fieldResolveName (m : Matches d t) {index : ℕ} (positive : index ≠ 0) :
    fieldResolveName d index = (t.lookup index).map Field.name := by
  unfold Hpack.fieldResolveName
  split_ifs with below
  · rw [t.lookup_static positive below]
  have entry := m.getElem (index - 61)
  rw [if_neg (by omega)] at entry
  rw [t.lookup_dynamic (by omega), ← entry, Option.map_map]
  rfl

end Matches

/-! ## Strings and literals -/

/-- **Reading a string.** -/
theorem hpackReadString_eq {input s rest : Octets} {len : WireInt}
    (read : Reference.readString input = some (s, len, rest)) (readable : Readable len)
    (limit : input.length < blockLimit) :
    ∃ consumed, hpackReadString input = some (s, consumed) ∧ rest = input.drop consumed := by
  rcases input with _ | ⟨b, input⟩
  · cases read
  obtain ⟨⟨len', behind⟩, readLen, read⟩ := bind_eq_some_iff.mp read
  have behind_eq := (readInteger_rest readLen).1
  dsimp only at read
  split at read
  · cases read
  rename_i enough
  have shorter : behind.length ≤ (b :: input).length := by
    rw [behind_eq]
    exact (drop_sublist _ _).length_le
  have length : (behind.take len'.value).length = len'.value :=
    length_take_of_le (Nat.not_lt.mp enough)
  -- The capacity does not wrap.
  have room : 8 * (behind.take len'.value).length ≤ (len'.value * 8 + 1) % 2 ^ 32 := by
    rw [blockLimit] at limit
    omega
  have len_eq : len' = len := by
    split at read
    · cases read
      rfl
    obtain ⟨_, -, eq⟩ := map_eq_some_iff.mp read
    cases eq
    rfl
  subst len_eq
  unfold hpackReadString
  rw [hpackReadInt_eq readLen readable.short readable.small]
  dsimp only
  rw [← behind_eq, if_neg enough]
  refine ⟨len'.octets + 1 + len'.value, ?_⟩
  rw [← drop_drop, ← behind_eq]
  split_ifs at read with plain
  · cases read
    rw [if_neg (not_not.mpr ((octet_and_high b).mpr plain))]
    exact ⟨rfl, rfl⟩
  obtain ⟨decoded, decode, eq⟩ := map_eq_some_iff.mp read
  cases eq
  rw [if_pos (mt (octet_and_high b).mp plain), huffDecode_eq_reference room, decode]
  exact ⟨rfl, rfl⟩

variable {d : HpackDyn} {p : Reference.Parsed} {t : Reference.Table} {input rest : Octets}

/-- **Reading a literal.** The name is resolved by the program while it reads, and
by the reference afterwards. -/
theorem hpackReadLiteral_eq (m : Matches d t) {width : ℕ}
    {make : Reference.NameRef → Octets → Reference.Representation}
    (read : Reference.readLiteral width make input = some (p, rest))
    (readable : ∀ w ∈ p.ints, Readable w) (limit : input.length < blockLimit) :
    ∃ name value, p.rep = make name value ∧
      ∀ n, t.resolve name = some n → hpackReadLiteral d width input = some (⟨n, value⟩, rest) := by
  obtain ⟨⟨index, input₁⟩, readIndex, read⟩ := bind_eq_some_iff.mp read
  obtain ⟨⟨name, ints, input₂⟩, readN, read⟩ := bind_eq_some_iff.mp read
  obtain ⟨⟨value, len, input₃⟩, readV, eq⟩ := map_eq_some_iff.mp read
  cases eq
  have limit₁ := (Reference.readInteger_shorter readIndex).trans limit
  have limit₂ := Nat.lt_of_le_of_lt (Reference.readName_rest readN) limit₁
  have behind_eq := (readInteger_rest readIndex).1
  obtain ⟨used, readValue, rfl⟩ := hpackReadString_eq readV
    (readable len (mem_append_right _ (mem_singleton_self len))) limit₂
  refine ⟨name, value, rfl, fun n resolved => ?_⟩
  have readableIndex : Readable index := by
    apply readable index
    unfold Reference.readName at readN
    split at readN
    · obtain ⟨_, -, eq⟩ := map_eq_some_iff.mp readN
      cases eq
      exact mem_cons_self
    · cases readN
      exact mem_cons_self
  unfold hpackReadLiteral
  rw [hpackReadInt_eq readIndex readableIndex.short readableIndex.small]
  dsimp only
  rw [← behind_eq]
  unfold Reference.readName at readN
  split_ifs at readN with zero
  · obtain ⟨⟨s, nameLen, _⟩, readS, eq⟩ := map_eq_some_iff.mp readN
    cases eq
    obtain ⟨usedName, readName, rfl⟩ := hpackReadString_eq readS (readable nameLen (by simp)) limit₁
    cases resolved
    rw [if_pos zero, readName]
    dsimp only [map_some]
    rw [readValue]
    rfl
  cases readN
  rw [if_neg zero, m.fieldResolveName zero,
    show (t.lookup index.value).map Field.name = some n from resolved]
  dsimp only [map_some]
  rw [readValue]
  rfl

/-! ## Rounds of the loop -/

/-- The masks of the loop are ranges of the first octet. -/
theorem octet_patterns (b : UInt8) : (b &&& 0x80 ≠ 0 ↔ 128 ≤ b.toNat) ∧
      (b &&& 0xc0 = 0x40 ↔ 64 ≤ b.toNat ∧ b.toNat < 128) ∧
      (b &&& 0xe0 = 0x20 ↔ 32 ≤ b.toNat ∧ b.toNat < 64) ∧
      (b &&& 0xf0 = 0x00 ↔ b.toNat < 16) ∧
      (b &&& 0xf0 = 0x10 ↔ 16 ≤ b.toNat ∧ b.toNat < 32) :=
  forall_octet (P := fun b =>
    (b &&& 0x80 ≠ 0 ↔ 128 ≤ b.toNat) ∧ (b &&& 0xc0 = 0x40 ↔ 64 ≤ b.toNat ∧ b.toNat < 128) ∧
      (b &&& 0xe0 = 0x20 ↔ 32 ≤ b.toNat ∧ b.toNat < 64) ∧
      (b &&& 0xf0 = 0x00 ↔ b.toNat < 16) ∧
      (b &&& 0xf0 = 0x10 ↔ 16 ≤ b.toNat ∧ b.toNat < 32)) (by decide +kernel) b

theorem readNumber_spec {width : ℕ} {make : ℕ → Reference.Representation}
    (read : Reference.readNumber width make input = some (p, rest))
    (readable : ∀ w ∈ p.ints, Readable w) :
    ∃ value consumed, p.rep = make value ∧ value < 2 ^ 31 ∧
      hpackReadInt input width = some (value, consumed) ∧ rest = input.drop consumed := by
  obtain ⟨⟨w, behind⟩, readW, eq⟩ := map_eq_some_iff.mp read
  cases eq
  have ok : Readable w := readable w (mem_singleton_self w)
  exact ⟨w.value, w.octets + 1, rfl, ok.small, hpackReadInt_eq readW ok.short ok.small,
    (readInteger_rest readW).1⟩

section Loop

variable {d : HpackDyn} {t t' : Reference.Table} {most fuel : ℕ} {input rest : Octets}
  {p : Reference.Parsed} {acc fs : List Field}
  {rep : Reference.Representation}

/-- A field is found in the table, or its name is. -/
theorem step_field {α : Type} {found : Option α} {use : α → Reference.Table × Field}
    (field : t.step rep = (found.map use).map fun done => (done.1, [done.2]))
    (done : t.step rep = some (t', fs)) :
    ∃ a, found = some a ∧ t' = (use a).1 ∧ fs = [(use a).2] := by
  obtain ⟨_, applied, eq⟩ := map_eq_some_iff.mp (field.symm.trans done)
  obtain ⟨a, found, rfl⟩ := map_eq_some_iff.mp applied
  cases eq
  exact ⟨a, found, rfl, rfl⟩

/-- **One round.** The loop consumes one representation and does to the table what
the reference does. -/
theorem hpackDecodeLoop_round (m : Matches d t)
    (read : Reference.parseOne input = some (p, rest)) (readable : ∀ w ∈ p.ints, Readable w)
    (limit : input.length < blockLimit) (room : acc.length < most)
    (agree : repAgrees t p.rep = true) (done : t.step p.rep = some (t', fs)) :
    ∃ d', Matches d' t' ∧ hpackDecodeLoop most (fuel + 1) d input acc =
        hpackDecodeLoop most fuel d' rest (acc ++ fs) := by
  rcases input with _ | ⟨b, input⟩
  · cases read
  obtain ⟨indexed, incremental, update, without, never⟩ := octet_patterns b
  rw [Reference.parseOne] at read
  simp only [hpackDecodeLoop, if_neg (Nat.not_le.mpr room), indexed, incremental, update, without,
    never]
  -- The reference and the loop test the same ranges of the first octet.
  split at read
  · rename_i range
    obtain ⟨index, consumed, rep, small, readInt, rfl⟩ := readNumber_spec read readable
    rw [rep] at done
    obtain ⟨f, found, rfl, rfl⟩ := step_field rfl done
    refine ⟨d, m, ?_⟩
    rw [if_pos range, readInt]
    dsimp only
    rw [m.fieldIndexed small, found]
  split at read
  · obtain ⟨name, value, rep, readLit⟩ := hpackReadLiteral_eq m read readable limit
    rw [rep] at done agree
    obtain ⟨n, resolved, rfl, rfl⟩ := step_field rfl done
    have fits : t.fields = [] ∨ Field.size ⟨n, value⟩ ≤ t.maxSize := by
      simpa [repAgrees, resolved] using agree
    refine ⟨_, m.add fits, ?_⟩
    rw [if_neg (by omega), if_pos (by omega), readLit n resolved]
  split at read
  · obtain ⟨maxSize, consumed, rep, -, readInt, rfl⟩ := readNumber_spec read readable
    rw [rep] at done agree
    cases done
    have le : maxSize ≤ t.maxSize := of_decide_eq_true agree
    refine ⟨_, m.setMax le, ?_⟩
    rw [if_neg (by omega), if_neg (by omega), if_pos (by omega), readInt, append_nil]
    dsimp only
    rw [m.maxSize, if_neg (Nat.not_lt.mpr le)]
  split at read
  · obtain ⟨name, value, rep, readLit⟩ := hpackReadLiteral_eq m read readable limit
    rw [rep] at done
    obtain ⟨n, resolved, rfl, rfl⟩ := step_field rfl done
    refine ⟨d, m, ?_⟩
    rw [if_neg (by omega), if_neg (by omega), if_neg (by omega), if_neg (by omega),
      if_pos (by omega), readLit n resolved]
  obtain ⟨name, value, rep, readLit⟩ := hpackReadLiteral_eq m read readable limit
  rw [rep] at done
  obtain ⟨n, resolved, rfl, rfl⟩ := step_field rfl done
  refine ⟨d, m, ?_⟩
  rw [if_neg (by omega), if_neg (by omega), if_neg (by omega), if_pos (by omega),
    readLit n resolved]

theorem repsAgree_cons {reps : List Reference.Representation}
    (agree : repsAgree t (rep :: reps) = true) (done : t.step rep = some (t', fs)) :
    repAgrees t rep = true ∧ repsAgree t' reps = true := by
  simpa [repsAgree, done] using agree

variable {parsed : List Reference.Parsed}

/-- What `parse` reads from a block that is not empty. -/
theorem parse_cons {b : UInt8} (read : Reference.parse (fuel + 1) (b :: input) = some parsed) :
    ∃ p rest more, Reference.parseOne (b :: input) = some (p, rest) ∧
      Reference.parse fuel rest = some more ∧ parsed = p :: more := by
  obtain ⟨⟨p, rest⟩, first, read⟩ := bind_eq_some_iff.mp read
  obtain ⟨more, readMore, rfl⟩ := map_eq_some_iff.mp read
  exact ⟨p, rest, more, first, readMore, rfl⟩

/-- **The fields of a block.** -/
theorem hpackDecodeLoop_fields (m : Matches d t) (read : Reference.parse fuel input = some parsed)
    (readable : ∀ p ∈ parsed, ∀ w ∈ p.ints, Readable w) (limit : input.length < blockLimit)
    (agree : repsAgree t (parsed.map Reference.Parsed.rep) = true)
    (done : t.applyAll (parsed.map Reference.Parsed.rep) = some (t', fs))
    (room : acc.length + fs.length ≤ most) :
    ∃ d', Matches d' t' ∧ hpackDecodeLoop most fuel d input acc = some (d', acc ++ fs) := by
  induction fuel generalizing d t input acc fs parsed with
  | zero =>
    rcases input with _ | ⟨b, input⟩
    · cases read
      cases done
      exact ⟨d, m, by rw [hpackDecodeLoop, append_nil]⟩
    · cases read
  | succ fuel ih =>
    rcases input with _ | ⟨b, input⟩
    · cases read
      cases done
      exact ⟨d, m, by rw [hpackDecodeLoop, append_nil]⟩
    obtain ⟨p, rest, more, first, readMore, rfl⟩ := parse_cons read
    obtain ⟨⟨t₁, f⟩, applied, done⟩ := bind_eq_some_iff.mp done
    obtain ⟨⟨t₂, fs'⟩, doneMore, eq⟩ := map_eq_some_iff.mp done
    cases eq
    have step : t.step p.1 = some (t₁, [f]) := by
      cases rep : p.1 <;> rw [rep] at applied <;> first
        | exact congrArg (Option.map _) applied
        | cases applied
    obtain ⟨agreeFirst, agreeMore⟩ := repsAgree_cons agree step
    rw [length_cons] at room
    dsimp only at room
    have roomFirst : acc.length < most := by omega
    have roomMore : (acc ++ [f]).length + fs'.length ≤ most := by
      rw [length_append, length_singleton]
      omega
    obtain ⟨d₁, m₁, round⟩ := hpackDecodeLoop_round m first
      (readable p mem_cons_self) limit roomFirst agreeFirst step
    obtain ⟨d₂, m₂, loop⟩ := ih m₁ readMore
      (fun q mem => readable q (mem_cons_of_mem p mem))
      ((Reference.parseOne_rest first).trans limit) agreeMore doneMore roomMore
    exact ⟨d₂, m₂, by rw [round, loop, append_assoc, singleton_append]⟩

/-- **A block.** The size updates at its start, then the fields. -/
theorem hpackDecodeLoop_block (m : Matches d t) (read : Reference.parse fuel input = some parsed)
    (readable : ∀ p ∈ parsed, ∀ w ∈ p.ints, Readable w) (limit : input.length < blockLimit)
    (agree : repsAgree t (parsed.map Reference.Parsed.rep) = true)
    (done : ((Reference.splitUpdates (parsed.map Reference.Parsed.rep)).1.foldl
      Reference.Table.resize t).applyAll
      (Reference.splitUpdates (parsed.map Reference.Parsed.rep)).2 = some (t', fs))
    (positive : 0 < most) (room : fs.length ≤ most) :
    ∃ d', Matches d' t' ∧ hpackDecodeLoop most fuel d input [] = some (d', fs) := by
  induction fuel generalizing d t input parsed with
  | zero =>
    rcases input with _ | ⟨b, input⟩
    · cases read
      exact hpackDecodeLoop_fields m rfl readable limit agree done (by simpa using room)
    · cases read
  | succ fuel ih =>
    rcases input with _ | ⟨b, input⟩
    · cases read
      exact hpackDecodeLoop_fields m rfl readable limit agree done (by simpa using room)
    obtain ⟨p, rest, more, first, readMore, rfl⟩ := parse_cons read
    by_cases update : ∃ u, p.rep = .sizeUpdate u
    · obtain ⟨u, rep⟩ := update
      rw [map_cons, rep] at agree done
      have step : t.step (.sizeUpdate u) = some (t.resize u, []) := rfl
      obtain ⟨agreeFirst, agreeMore⟩ := repsAgree_cons agree step
      rw [← rep] at agreeFirst step
      have roomFirst : ([] : List Field).length < most := positive
      obtain ⟨d₁, m₁, round⟩ := hpackDecodeLoop_round m first
        (readable p mem_cons_self) limit roomFirst agreeFirst step
      obtain ⟨d₂, m₂, loop⟩ := ih m₁ readMore
        (fun q mem => readable q (mem_cons_of_mem p mem))
        ((Reference.parseOne_rest first).trans limit) agreeMore done
      exact ⟨d₂, m₂, by rw [round, append_nil, loop]⟩
    -- The first representation is of a field, and nothing was split off.
    have split : Reference.splitUpdates ((p :: more).map Reference.Parsed.rep) =
        ([], (p :: more).map Reference.Parsed.rep) := by
      rw [map_cons]
      rcases rep : p.rep
      case sizeUpdate u => exact absurd ⟨u, rep⟩ update
      all_goals rfl
    rw [split] at done
    exact hpackDecodeLoop_fields m read readable limit agree done (by simpa using room)

end Loop

/-! ## Connections -/

/-- The table of the program is the one of the reference: the entries in their
order, the size and the maximum. -/
structure SameTable (d : HpackDyn) (t : Reference.Table) : Prop where
  fields : d.fields = t.fields
  size : d.size = total Field.size t.fields
  maxSize : d.maxSize = t.maxSize

/-- **One block.** -/
theorem hpackDecodeBlock_eq {r r' : Reference.Decoder} {block : Octets} {fs : List Field}
    (m : Matches d r.table) (valid : r.decodeBlock block = some (r', fs))
    (few : fs.length ≤ maxFields) (small : smallIntegers block = true)
    (limit : block.length < blockLimit) (agree : blockAgrees r.table block = true) :
    ∃ d', Matches d' r'.table ∧ hpackDecodeBlock d block maxFields = some (d', fs) := by
  obtain ⟨parsed, read, valid⟩ := bind_eq_some_iff.mp valid
  simp only [smallIntegers, blockAgrees, read, all_some, Bool.and_eq_true, decide_eq_true_eq,
    List.all_eq_true] at small agree
  obtain ⟨short, agree⟩ := agree
  dsimp only at valid
  split at valid
  · obtain ⟨⟨t', fs'⟩, done, eq⟩ := map_eq_some_iff.mp valid
    cases eq
    exact hpackDecodeLoop_block m read
      (fun p mem w inside => ⟨short p mem w inside, small p mem w inside⟩) limit agree
      done (by decide) few
  · cases valid

/-- The blocks from any two tables that match. -/
theorem hpackDecodeBlocks_eq {r : Reference.Decoder} {blocks : List Octets}
    {results : List (Reference.Decoder × List Field)} (m : Matches d r.table)
    (valid : r.decodeBlocks blocks = some results)
    (few : ∀ result ∈ results, result.2.length ≤ maxFields)
    (small : ∀ block ∈ blocks, smallIntegers block = true)
    (limit : ∀ block ∈ blocks, block.length < blockLimit) (agree : blocksAgree r blocks = true) :
    ∃ outs, hpackDecodeBlocks d blocks = some outs ∧
      List.Forall₂ (fun out result => out.2 = result.2 ∧ SameTable out.1 result.1.table)
        outs results := by
  induction blocks generalizing d r results with
  | nil =>
    cases valid
    exact ⟨[], rfl, .nil⟩
  | cons block blocks ih =>
    obtain ⟨⟨r', fs⟩, first, valid⟩ := bind_eq_some_iff.mp valid
    obtain ⟨results', rest, rfl⟩ := map_eq_some_iff.mp valid
    obtain ⟨agreeFirst, agreeRest⟩ : blockAgrees r.table block = true ∧
        blocksAgree r' blocks = true := by
      simpa [blocksAgree, first] using agree
    obtain ⟨d', m', decoded⟩ := hpackDecodeBlock_eq m first (few _ mem_cons_self)
      (small block mem_cons_self) (limit block mem_cons_self) agreeFirst
    obtain ⟨outs, decodedRest, same⟩ := ih m' rest
      (fun result mem => few result (mem_cons_of_mem _ mem))
      (fun b mem => small b (mem_cons_of_mem _ mem))
      (fun b mem => limit b (mem_cons_of_mem _ mem)) agreeRest
    have table : SameTable d' r'.table :=
      ⟨m'.fields, by rw [← m'.wellFormed.measured.total_fields, m'.fields], m'.maxSize⟩
    refine ⟨(d', fs) :: outs, ?_, .cons ⟨rfl, table⟩ same⟩
    rw [hpackDecodeBlocks, decoded, bind_some, decodedRest, map_some]

/-- **The decoder is the one of RFC 7541** on every connection that meets the
condition: it accepts each block, with the header list and the table of the
reference. -/
theorem decoder_correct (blocks : List Octets) (results : List (Reference.Decoder × List Field))
    (valid : Reference.Decoder.initial.decodeBlocks blocks = some results)
    (few : ∀ result ∈ results, result.2.length ≤ maxFields)
    (small : ∀ block ∈ blocks, smallIntegers block = true)
    (limit : ∀ block ∈ blocks, block.length < blockLimit)
    (agree : blocksAgree .initial blocks = true) :
    ∃ outs, hpackDecodeBlocks dynReset blocks = some outs ∧
      List.Forall₂ (fun out result => out.2 = result.2 ∧ SameTable out.1 result.1.table)
        outs results :=
  hpackDecodeBlocks_eq matches_reset valid few small limit agree

/-- A connection that shrinks the table to 100 octets, adds `a: b` and refers to
it in the next block. -/
theorem decoder_correct_shrunk :
    (Reference.Decoder.initial.decodeBlocks
        [[0x3f, 69, 0x40, 1, 97, 1, 98], [0xbe]]).isSome = true ∧
      ∃ outs, hpackDecodeBlocks dynReset [[0x3f, 69, 0x40, 1, 97, 1, 98], [0xbe]] = some outs ∧
        outs.map Prod.snd = [[⟨[97], [98]⟩], [⟨[97], [98]⟩]] := by
  obtain ⟨results, valid⟩ : ∃ results, Reference.Decoder.initial.decodeBlocks
      [[0x3f, 69, 0x40, 1, 97, 1, 98], [0xbe]] = some results := ⟨_, rfl⟩
  have lists : results.map Prod.snd = [[⟨[97], [98]⟩], [⟨[97], [98]⟩]] := by
    cases valid
    rfl
  obtain ⟨outs, decoded, same⟩ := decoder_correct _ results valid
    (by cases valid; decide) (by decide) (by decide) (by decide)
  refine ⟨by rw [valid]; rfl, outs, decoded, ?_⟩
  rw [← lists]
  exact forall₂_eq_eq_eq ▸ forall₂_map_left_iff.mpr
    (forall₂_map_right_iff.mpr (same.imp fun _ _ both => both.1))

/-- After a size update to 40 and `a: b`, a field of 42 octets. -/
def oversizeBlocks : List Octets :=
  [[0x3f, 9, 0x40, 1, 97, 1, 98], [0x40, 5, 1, 2, 3, 4, 5, 5, 1, 2, 3, 4, 5]]

/-- Size updates to 0 and back to 4096. -/
def regrownBlocks : List Octets := [[0x20], [0x3f, 0xe1, 0x1f]]

/-- **Where the decoder is not the one of RFC 7541.** The field of 42 octets empties
the table of the reference, and the program keeps `a: b`. The update back to 4096
is refused. -/
theorem decoder_differs :
    ((Reference.Decoder.initial.decodeBlocks oversizeBlocks).map fun results =>
        results.map fun result => (result.2.length, result.1.table.fields)) =
        some [(1, [⟨[97], [98]⟩]), (1, [])] ∧
      ((hpackDecodeBlocks dynReset oversizeBlocks).map fun outs =>
        outs.map fun out => (out.2.length, out.1.fields)) =
        some [(1, [⟨[97], [98]⟩]), (1, [⟨[97], [98]⟩])] ∧
      ((Reference.Decoder.initial.decodeBlocks regrownBlocks).map fun results =>
        results.map fun result => (result.2.length, result.1.table.maxSize)) =
        some [(0, 0), (0, 4096)] ∧
      hpackDecodeBlocks dynReset regrownBlocks = none ∧
      ∀ block ∈ oversizeBlocks ++ regrownBlocks,
        smallIntegers block = true ∧ block.length < blockLimit := by
  refine ⟨rfl, rfl, rfl, rfl, ?_⟩
  decide

end Strimserver.Hpack
