import Strimserver.Hpack.Table

/-!
# The request encoder

`hpack_encode_field`, `build_request_headers` and the part of `handle_settings`
that concerns the encoder, of `h2c.c`. The encoder keeps a table of its own, which
should be the newest part of the peer's.

`hpack_encode_field` adds the return value of `hpack_write_string`, zero on
failure, to the octets so far, and then tests the sum. As the sum is not zero, a
string that has no room is left out, the field counts as written, and it goes to
the table.

The second half is the encoding without a buffer, with which the encoder agrees
when the buffer is large enough.
-/

namespace Strimserver.Hpack

open List Option

/-! ## Fields -/

/-- `hpack_write_string`. The length is cut to 32 bits for the integer. -/
def hpackWriteString (cap : ℕ) (s : Octets) : Option Octets :=
  match hpackWriteIntEx cap (s.length % 2 ^ 32) 7 0 with
  | none => none
  | some n => if cap < n.length + s.length then none else some (n ++ s)

/-- A table's index from the two searches, zero when both fail. -/
def joinIndex (static dynamic : ℕ) : ℕ :=
  if static = 0 then if dynamic = 0 then 0 else 61 + dynamic else static

/-- `pair_idx` of `hpack_encode_field`. -/
def pairIndex (d : HpackDyn) (f : Field) : ℕ := joinIndex (staticFindPair f) (dynFindPair d f)

/-- `name_idx` of `hpack_encode_field`. -/
def nameIndex (d : HpackDyn) (name : Octets) : ℕ :=
  joinIndex (staticFindName name) (dynFindName d name)

/-- `hpack_encode_field`: the table after it, and the octets or a failure. -/
def hpackEncodeField (d : HpackDyn) (cap : ℕ) (f : Field) : HpackDyn × Option Octets :=
  if pairIndex d f ≠ 0 then (d, hpackWriteIntEx cap (pairIndex d f) 7 0x80)
  else if nameIndex d f.name ≠ 0 then
    match hpackWriteIntEx cap (nameIndex d f.name) 6 0x40 with
    | none => (d, none)
    | some out =>
      -- The test after the string is of the sum, and never fails.
      let out := out ++ (hpackWriteString (cap - out.length) f.value).getD []
      (dynAdd d f, some out)
  else
    match hpackWriteIntEx cap 0 6 0x40 with
    | none => (d, none)
    | some out =>
      let out := out ++ (hpackWriteString (cap - out.length) f.name).getD []
      let out := out ++ (hpackWriteString (cap - out.length) f.value).getD []
      (dynAdd d f, some out)

/-- Calls of `hpack_encode_field` one after another, up to the first that fails. -/
def hpackEncodeFields (d : HpackDyn) (cap : ℕ) : List Field → HpackDyn × Option Octets
  | [] => (d, some [])
  | f :: fs =>
    match hpackEncodeField d cap f with
    | (d, none) => (d, none)
    | (d, some out) =>
      let rest := hpackEncodeFields d (cap - out.length) fs
      (rest.1, rest.2.map (out ++ ·))

/-! ## Requests -/

/-- The encoder's part of a connection. -/
structure Encoder where
  dynEnc : HpackDyn
  encSizeUpdate : Bool

/-- The encoder of a new connection. -/
def Encoder.initial : Encoder := ⟨dynReset, false⟩

/-- `handle_settings` for `H2_SETTINGS_HEADER_TABLE_SIZE`. -/
def Encoder.setHeaderTableSize (e : Encoder) (val : ℕ) : Encoder :=
  if val ≠ e.dynEnc.maxSize then ⟨dynSetMax e.dynEnc val, true⟩ else e

/-- The fields that `build_request_headers` passes to `hpack_encode_field`. -/
def requestFields (path ns : Octets) : List Field :=
  [⟨ascii ":path", path⟩, .ofStrings ":authority" "localhost",
    .ofStrings "content-type" "application/grpc", .ofStrings "te" "trailers",
    .ofStrings "user-agent" "grpc-c/1.0", ⟨ascii "containerd-namespace", ns⟩]

/-- `build_request_headers` behind the size update. -/
def buildRequestFields (d : HpackDyn) (path ns : Octets) (cap : ℕ) : HpackDyn × Option Octets :=
  match hpackWriteIntEx cap 3 7 0x80 with
  | none => (d, none)
  | some method =>
    match hpackWriteIntEx (cap - method.length) 6 7 0x80 with
    | none => (d, none)
    | some scheme =>
      let rest := hpackEncodeFields d (cap - method.length - scheme.length)
        (requestFields path ns)
      (rest.1, rest.2.map fun out => method ++ scheme ++ out)

/-- `build_request_headers`: the encoder after it, and the block or a failure. -/
def buildRequestHeaders (e : Encoder) (path ns : Octets) (cap : ℕ) : Encoder × Option Octets :=
  if e.encSizeUpdate then
    match hpackWriteIntEx cap e.dynEnc.maxSize 5 0x20 with
    | none => (e, none)
    | some update =>
      let rest := buildRequestFields e.dynEnc path ns (cap - update.length)
      (⟨rest.1, false⟩, rest.2.map (update ++ ·))
  else
    let rest := buildRequestFields e.dynEnc path ns cap
    (⟨rest.1, false⟩, rest.2)

/-- `H2C_REQ_HDR_BLOCK`. -/
def reqHdrBlock : ℕ := 1024

/-! ## The encoding without a buffer -/

def intOctets (value width pattern : ℕ) : Octets := (hpackWriteIntEx 6 value width pattern).getD []

def stringOctets (s : Octets) : Octets := intOctets s.length 7 0 ++ s

def fieldOctets (d : HpackDyn) (f : Field) : Octets :=
  if pairIndex d f ≠ 0 then intOctets (pairIndex d f) 7 0x80
  else if nameIndex d f.name ≠ 0 then
    intOctets (nameIndex d f.name) 6 0x40 ++ stringOctets f.value
  else intOctets 0 6 0x40 ++ stringOctets f.name ++ stringOctets f.value

def fieldTable (d : HpackDyn) (f : Field) : HpackDyn := if pairIndex d f ≠ 0 then d else dynAdd d f

/-- The octets of fields, each for the table that it meets. -/
def fieldsOctets (d : HpackDyn) : List Field → Octets
  | [] => []
  | f :: fs => fieldOctets d f ++ fieldsOctets (fieldTable d f) fs

def fieldsTable (d : HpackDyn) (fs : List Field) : HpackDyn := fs.foldl fieldTable d

def requestOctets (e : Encoder) (path ns : Octets) : Octets :=
  (if e.encSizeUpdate then intOctets e.dynEnc.maxSize 5 0x20 else []) ++
    (intOctets 3 7 0x80 ++ intOctets 6 7 0x80 ++ fieldsOctets e.dynEnc (requestFields path ns))

variable {cap value width pattern : ℕ} {enc : Octets} {d : HpackDyn}

/-- The loop writes an octet a round, not more than it has room for, and the same in any buffer that
has the room. -/
theorem hpackWriteIntLoop_length {fuel v : ℕ} (written : hpackWriteIntLoop fuel cap v = some enc) :
    enc.length ≤ fuel ∧ enc.length ≤ cap ∧
      ∀ {cap'}, enc.length ≤ cap' → hpackWriteIntLoop fuel cap' v = some enc := by
  induction fuel generalizing cap v enc with
  | zero => cases written
  | succ fuel ih =>
    unfold hpackWriteIntLoop at written ⊢
    split at written
    · rename_i large
      split at written
      · cases written
      obtain ⟨tail, written', rfl⟩ := map_eq_some_iff.mp written
      obtain ⟨few, within, more⟩ := ih written'
      rw [length_cons]
      refine ⟨by omega, by omega, fun fits => ?_⟩
      rw [if_pos large, if_neg (by omega), more (by omega), map_some]
    rename_i small
    split at written <;> cases written
    rw [length_singleton]
    refine ⟨by omega, by omega, fun fits => ?_⟩
    rw [if_neg small, if_neg (by omega)]

/-- With room for every group of seven bits the loop succeeds. -/
theorem hpackWriteIntLoop_isSome {fuel v : ℕ} (small : v < 2 ^ (7 * fuel)) (positive : 0 < fuel) :
    ∃ enc, hpackWriteIntLoop fuel fuel v = some enc := by
  induction fuel generalizing v with
  | zero => cases positive
  | succ fuel ih =>
    unfold hpackWriteIntLoop
    rw [if_neg (Nat.succ_ne_zero fuel), Nat.add_sub_cancel]
    split
    · have shifted : v >>> 7 < 2 ^ (7 * fuel) := by
        rw [Nat.shiftRight_eq_div_pow]
        apply Nat.div_lt_of_lt_mul
        rwa [← Nat.pow_add, Nat.add_comm, ← Nat.mul_succ]
      have more : 0 < fuel := by
        rcases fuel with _ | fuel
        · omega
        · exact Nat.succ_pos fuel
      obtain ⟨enc, written⟩ := ih shifted more
      exact ⟨_, by rw [written]; rfl⟩
    · exact ⟨_, rfl⟩

/-- Six octets hold every integer. -/
theorem hpackWriteIntEx_six (small : value < 2 ^ 32) (width pattern : ℕ) :
    hpackWriteIntEx 6 value width pattern = some (intOctets value width pattern) := by
  obtain ⟨enc, written⟩ : ∃ enc, hpackWriteIntEx 6 value width pattern = some enc := by
    unfold hpackWriteIntEx
    dsimp only
    split
    · exact ⟨_, rfl⟩
    have bound : value - (2 ^ width - 1) < 2 ^ (7 * 5) :=
      Nat.lt_of_le_of_lt (Nat.sub_le _ _) (small.trans (by decide))
    obtain ⟨enc, written⟩ := hpackWriteIntLoop_isSome bound (by decide)
    exact ⟨_, congrArg (Option.map _) written⟩
  rw [intOctets, written, getD_some]

/-- What the integer writer has written fits in every buffer of its length, and takes six octets at
most. -/
theorem hpackWriteIntEx_length (written : hpackWriteIntEx cap value width pattern = some enc) :
    enc.length ≤ cap ∧ enc.length ≤ 6 ∧
      ∀ {cap'}, enc.length ≤ cap' → hpackWriteIntEx cap' value width pattern = some enc := by
  unfold hpackWriteIntEx at written ⊢
  dsimp only at written ⊢
  split at written
  · rename_i below
    split at written <;> cases written
    rename_i room
    refine ⟨Nat.pos_of_ne_zero room, Nat.succ_le_succ (Nat.zero_le 5), fun fits => ?_⟩
    rw [if_pos below, if_neg (Nat.pos_iff_ne_zero.mp fits)]
  rename_i above
  split at written
  · cases written
  obtain ⟨tail, loop, rfl⟩ := map_eq_some_iff.mp written
  obtain ⟨few, within, more⟩ := hpackWriteIntLoop_length loop
  rw [length_cons]
  refine ⟨by omega, Nat.succ_le_succ few, fun fits => ?_⟩
  rw [if_neg above, if_neg (by omega), more (Nat.le_sub_of_add_le fits), map_some]

/-- **The integer writer** in a buffer that has the room. -/
theorem hpackWriteIntEx_fits (small : value < 2 ^ 32)
    (fits : (intOctets value width pattern).length ≤ cap) :
    hpackWriteIntEx cap value width pattern = some (intOctets value width pattern) :=
  (hpackWriteIntEx_length (hpackWriteIntEx_six small width pattern)).2.2 fits

/-- The integer writer in a buffer that does not have the room. -/
theorem hpackWriteIntEx_noRoom (small : value < 2 ^ 32)
    (less : cap < (intOctets value width pattern).length) :
    hpackWriteIntEx cap value width pattern = none := by
  rcases cut : hpackWriteIntEx cap value width pattern with _ | enc
  · rfl
  -- What was written would be all of the integer.
  obtain ⟨within, few, again⟩ := hpackWriteIntEx_length cut
  cases (again few).symm.trans (hpackWriteIntEx_six small width pattern)
  exact absurd within (Nat.not_le.mpr less)

/-- **The integer codec.** What is written is read back, whatever follows; what is read from
any octets is the value of the octets that were consumed; and the sum does not wrap. -/
theorem integer_codec {width : ℕ} (wide : width ≤ 8) :
    (∀ cap pattern value, pattern < 256 → pattern % 2 ^ width = 0 → value ≤ 2 ^ 31 - 1 →
      (6 ≤ cap → ∃ enc, hpackWriteIntEx cap value width pattern = some enc) ∧
      ∀ enc ∈ hpackWriteIntEx cap value width pattern, ∀ rest,
        hpackReadInt (enc ++ rest) width = some (value, enc.length)) ∧
    (∀ input value n, hpackReadInt input width = some (value, n) → n ≤ input.length ∧
      Reference.readInteger width (input.take n) = some (⟨value, n - 1⟩, [])) ∧
    ∀ (b : UInt8) rest, hpackReadIntLoop64 rest 1 (b.toNat &&& 2 ^ width - 1) 0 =
      hpackReadIntLoop rest 1 (b.toNat &&& 2 ^ width - 1) 0 := by
  refine ⟨fun cap pattern value octet aligned small => ⟨fun room => ?_, fun enc written rest => ?_⟩,
    fun _ _ _ => hpackReadInt_sound, fun b rest => ?_⟩
  · have six := hpackWriteIntEx_six (show value < 2 ^ 32 by omega) width pattern
    exact ⟨_, (hpackWriteIntEx_length six).2.2 ((hpackWriteIntEx_length six).1.trans room)⟩
  · have fits : pattern + 2 ^ width ≤ 256 := by
      have whole : 2 ^ width ∣ 256 := Nat.pow_dvd_pow 2 wide
      have above : 2 ^ width ∣ 256 - pattern := Nat.dvd_sub whole (Nat.dvd_of_mod_eq_zero aligned)
      have le := Nat.le_of_dvd (by omega) above
      omega
    obtain ⟨b, tail, rfl, -, read⟩ := readInteger_written written aligned fits
    have few : tail.length + 1 ≤ 6 := (hpackWriteIntEx_length written).2.1
    exact hpackReadInt_eq (read rest) (Nat.le_of_succ_le_succ few) (by simp only; omega)
  · refine hpackReadIntLoop64_eq rest (by decide) ?_
    exact Nat.lt_of_le_of_lt Nat.and_le_left b.toNat_lt

theorem integer_codec_1337 : hpackReadInt ([0x3f, 0x9a, 0x0a] ++ [7]) 5 = some (1337, 3) :=
  ((integer_codec (by decide)).1 6 0x20 1337 (by decide) (by decide) (by decide)).2 _ (by decide) _

/-- **The string writer** in a buffer that has the room. -/
theorem hpackWriteString_fits {s : Octets} (small : s.length < 2 ^ 32)
    (fits : (stringOctets s).length ≤ cap) : hpackWriteString cap s = some (stringOctets s) := by
  rw [stringOctets, length_append] at fits
  unfold hpackWriteString
  rw [Nat.mod_eq_of_lt small, hpackWriteIntEx_fits small (by omega)]
  dsimp only
  rw [if_neg (Nat.not_lt.mpr fits), stringOctets]

theorem length_le_stringOctets (s : Octets) : s.length ≤ (stringOctets s).length := by
  rw [stringOctets, length_append]
  exact Nat.le_add_left _ _

/-! ## Indices -/

section

variable {test : Field → Bool} {index : ℕ} {d : HpackDyn}
  (eq : index = joinIndex (findIndex test hpackStatic) (dynFind test d))

include eq

/-- What an index that was found refers to, for a test of entries. -/
theorem joinIndex_spec (found : index ≠ 0) : ∃ f, test f = true ∧
      ((index ≤ 61 ∧ hpackStatic[index - 1]? = some f) ∨
        (61 < index ∧ d.fields[index - 61 - 1]? = some f)) := by
  subst eq
  unfold joinIndex at found ⊢
  split_ifs at found ⊢ with noStatic noDynamic
  · exact absurd rfl found
  · obtain ⟨f, entry, passes⟩ := dynFind_spec noDynamic
    exact ⟨f, passes, .inr ⟨by omega, by rwa [Nat.add_sub_cancel_left]⟩⟩
  obtain ⟨f, entry, passes⟩ := findIndex_spec noStatic
  have inside := (List.getElem?_eq_some_iff.mp entry).1
  rw [hpackStatic_length] at inside
  exact ⟨f, passes, .inl ⟨by omega, entry⟩⟩

/-- No index is behind the last place of the dynamic table. -/
theorem joinIndex_le (wf : d.WellFormed) : index ≤ 61 + dynMaxEntries := by
  by_cases found : index = 0
  · omega
  obtain ⟨f, -, ⟨static, -⟩ | ⟨-, entry⟩⟩ := joinIndex_spec eq found
  · omega
  have inside := (List.getElem?_eq_some_iff.mp entry).1
  have room := wf.room
  rw [d.fields_length] at inside
  omega

theorem joinIndex_lt (wf : d.WellFormed) : index < 2 ^ 32 :=
  (joinIndex_le eq wf).trans_lt (by decide)

end

theorem pairIndex_lt (wf : d.WellFormed) (f : Field) : pairIndex d f < 2 ^ 32 := joinIndex_lt rfl wf

theorem nameIndex_lt (wf : d.WellFormed) (name : Octets) : nameIndex d name < 2 ^ 32 :=
  joinIndex_lt rfl wf

/-! ## A buffer that is large enough -/

section Fits

variable {d : HpackDyn} {cap : ℕ}

theorem fieldTable_wellFormed (wf : d.WellFormed) (f : Field) : (fieldTable d f).WellFormed := by
  unfold fieldTable
  split
  · exact wf
  · exact (dynAdd_spec wf f).1

theorem fieldsTable_maxSize (wf : d.WellFormed) (fs : List Field) :
    (fieldsTable d fs).maxSize = d.maxSize := by
  induction fs generalizing d with
  | nil => rfl
  | cons f fs ih =>
    have first : (fieldTable d f).maxSize = d.maxSize := by
      unfold fieldTable
      split
      · rfl
      · exact (dynAdd_spec wf f).2.1
    exact (ih (fieldTable_wellFormed wf f)).trans first

/-- The strings that are written for a field have lengths of 32 bits. -/
structure WritesShort (d : HpackDyn) (f : Field) : Prop where
  name : pairIndex d f = 0 → nameIndex d f.name = 0 → f.name.length < 2 ^ 32
  value : pairIndex d f = 0 → f.value.length < 2 ^ 32

/-- The strings that are written for fields have lengths of 32 bits. -/
def FieldsShort (d : HpackDyn) : List Field → Prop
  | [] => True
  | f :: fs => WritesShort d f ∧ FieldsShort (fieldTable d f) fs

variable {fs : List Field}

theorem FieldsShort.of_lengths
    (short : ∀ f ∈ fs, f.name.length < 2 ^ 32 ∧ f.value.length < 2 ^ 32) : FieldsShort d fs := by
  induction fs generalizing d with
  | nil => trivial
  | cons f fs ih =>
    obtain ⟨name, value⟩ := short f mem_cons_self
    exact ⟨⟨fun _ _ => name, fun _ => value⟩,
      ih fun f' mem => short f' (mem_cons_of_mem f mem)⟩

theorem WritesShort.of_fits {f : Field} (fits : (fieldOctets d f).length < 2 ^ 32) :
    WritesShort d f := by
  have valueInside := length_le_stringOctets f.value
  have nameInside := length_le_stringOctets f.name
  unfold fieldOctets at fits
  refine ⟨fun missing missing' => ?_, fun missing => ?_⟩
  · rw [if_neg (not_not.mpr missing), if_neg (not_not.mpr missing'), length_append,
      length_append] at fits
    omega
  rw [if_neg (not_not.mpr missing)] at fits
  split at fits
  · rw [length_append] at fits
    omega
  · rw [length_append] at fits
    omega

theorem FieldsShort.of_fits (fits : (fieldsOctets d fs).length < 2 ^ 32) : FieldsShort d fs := by
  induction fs generalizing d with
  | nil => trivial
  | cons f fs ih =>
    rw [fieldsOctets, length_append] at fits
    exact ⟨.of_fits (by omega), ih (by omega)⟩

/-- **A field** in a buffer that has the room. -/
theorem hpackEncodeField_fits (wf : d.WellFormed) {f : Field} (short : WritesShort d f)
    (fits : (fieldOctets d f).length ≤ cap) :
    hpackEncodeField d cap f = (fieldTable d f, some (fieldOctets d f)) := by
  have pair := pairIndex_lt wf f
  have name := nameIndex_lt wf f.name
  unfold hpackEncodeField
  unfold fieldOctets fieldTable at *
  split
  · rename_i found
    rw [if_pos found] at fits
    rw [hpackWriteIntEx_fits pair fits]
  rename_i missing
  rw [if_neg missing] at fits
  have shortValue := short.value (not_not.mp missing)
  split_ifs with found
  · rw [if_pos found, length_append] at fits
    rw [hpackWriteIntEx_fits name (by omega)]
    dsimp only
    rw [hpackWriteString_fits shortValue (by omega), getD_some]
  rw [if_neg found, length_append, length_append] at fits
  have shortName := short.name (not_not.mp missing) (not_not.mp found)
  rw [hpackWriteIntEx_fits (by decide) (by omega)]
  dsimp only
  rw [hpackWriteString_fits shortName (by omega), getD_some, length_append,
    hpackWriteString_fits shortValue (by omega), getD_some]

/-- **Fields** in a buffer that has the room. -/
theorem hpackEncodeFields_fits (wf : d.WellFormed) (short : FieldsShort d fs)
    (fits : (fieldsOctets d fs).length ≤ cap) :
    hpackEncodeFields d cap fs = (fieldsTable d fs, some (fieldsOctets d fs)) := by
  induction fs generalizing d cap with
  | nil => rfl
  | cons f fs ih =>
    rw [fieldsOctets, length_append] at fits
    have rest : hpackEncodeFields (fieldTable d f) (cap - (fieldOctets d f).length) fs =
        (fieldsTable (fieldTable d f) fs, some (fieldsOctets (fieldTable d f) fs)) :=
      ih (fieldTable_wellFormed wf f) short.2 (by omega)
    rw [hpackEncodeFields, hpackEncodeField_fits wf short.1 (by omega)]
    dsimp only
    rw [rest]
    rfl

/-- A request behind its size update, in a buffer that has the room. -/
theorem buildRequestFields_fits (wf : d.WellFormed) {path ns : Octets}
    (short : FieldsShort d (requestFields path ns))
    (fits : (intOctets 3 7 0x80 ++ intOctets 6 7 0x80 ++
      fieldsOctets d (requestFields path ns)).length ≤ cap) :
    buildRequestFields d path ns cap = (fieldsTable d (requestFields path ns),
        some (intOctets 3 7 0x80 ++ intOctets 6 7 0x80 ++
          fieldsOctets d (requestFields path ns))) := by
  rw [length_append, length_append] at fits
  unfold buildRequestFields
  rw [hpackWriteIntEx_fits (by decide) (by omega)]
  dsimp only
  rw [hpackWriteIntEx_fits (by decide) (by omega)]
  dsimp only
  rw [hpackEncodeFields_fits wf short (by omega), map_some]

end Fits

end Strimserver.Hpack
