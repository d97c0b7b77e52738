import Strimserver.Hpack.Table

/-!
# The decoder of RFC 7541

The decoder that the RFC describes, to compare the program with. A block is
first cut into representations (section 6), which does not depend on the tables,
and these are then applied to the dynamic table one after another.

The dynamic table is the list of its fields, the newest first, with a maximum
size. Adding a field evicts from the old end until the field has room; a field
that is larger than the maximum empties the table (section 4.4). A change of the
maximum evicts too. It may only stand at the start of a block, and only up to
the limit that the decoder has announced. A decoder that has announced a limit
below the maximum since the last block expects such a change to a size that is
not above the least limit it announced (section 4.2).

A representation comes with the integers it was read from, so that limits of an
implementation on integers can be stated.
-/

namespace Strimserver.Hpack.Reference

open Library List Option

/-! ## The dynamic table -/

/-- The dynamic table of RFC 7541. -/
@[ext] structure Table where
  /-- The newest first. -/
  fields : List Field
  maxSize : ℕ
  fits : total Field.size fields ≤ maxSize

def Table.empty (maxSize : ℕ) : Table := ⟨[], maxSize, Nat.zero_le _⟩

/-- A change of the maximum size, section 4.3. -/
def Table.resize (t : Table) (maxSize : ℕ) : Table :=
  ⟨fit Field.size maxSize t.fields, maxSize, total_fit_le _ _⟩

/-- Adding a field, section 4.4. -/
def Table.add (t : Table) (f : Field) : Table :=
  if within : f.size ≤ t.maxSize then
    ⟨f :: fit Field.size (t.maxSize - f.size) t.fields, t.maxSize, by
      have rest : total Field.size (fit Field.size (t.maxSize - f.size) t.fields) ≤
        t.maxSize - f.size := total_fit_le _ _
      rw [total_cons]
      omega⟩
  else .empty t.maxSize

/-- The field of an index, section 2.3.3. -/
def Table.lookup (t : Table) (index : ℕ) : Option Field :=
  if index = 0 then none else (hpackStatic ++ t.fields)[index - 1]?

/-- Behind the static table an index is one of the dynamic table. -/
theorem Table.lookup_dynamic (t : Table) {index : ℕ} (above : 61 < index) :
    t.lookup index = t.fields[index - 61 - 1]? := by
  have inside : hpackStatic.length ≤ index - 1 := by rw [hpackStatic_length]; omega
  rw [Table.lookup, if_neg (by omega), List.getElem?_append_right inside, hpackStatic_length]
  congr 1

theorem Table.lookup_static (t : Table) {index : ℕ} (positive : index ≠ 0) (below : index ≤ 61) :
    t.lookup index = hpackStatic[index - 1]? := by
  have inside : index - 1 < hpackStatic.length := by rw [hpackStatic_length]; omega
  rw [Table.lookup, if_neg positive, List.getElem?_append_left inside]

/-! ## Representations -/

/-- How a name is given. -/
inductive NameRef where
  | index (i : ℕ)
  | literal (name : Octets)
  deriving DecidableEq

/-- The representations of RFC 7541. -/
inductive Representation where
  | indexed (index : ℕ)
  | incremental (name : NameRef) (value : Octets)
  | sizeUpdate (maxSize : ℕ)
  | withoutIndexing (name : NameRef) (value : Octets)
  | neverIndexed (name : NameRef) (value : Octets)
  deriving DecidableEq

/-- A representation with the integers that it was read from. -/
structure Parsed where
  rep : Representation
  ints : List WireInt
  deriving DecidableEq

/-- A string, section 5.2, with its length and the octets behind it. -/
def readString : Octets → Option (Octets × WireInt × Octets)
  | [] => none
  | b :: input =>
    (readInteger 7 (b :: input)).bind fun read =>
      if read.2.length < read.1.value then none
      else
        let raw := read.2.take read.1.value
        let rest := read.2.drop read.1.value
        if b.toNat < 128 then some (raw, read.1, rest)
        else (huffDecode raw).map fun s => (s, read.1, rest)

/-- The name of a literal, given its index. -/
def readName (index : WireInt) (input : Octets) : Option (NameRef × List WireInt × Octets) :=
  if index.value = 0 then
    (readString input).map fun read => (.literal read.1, [index, read.2.1], read.2.2)
  else some (.index index.value, [index], input)

/-- A literal, with a prefix of the given width for its index. -/
def readLiteral (width : ℕ) (make : NameRef → Octets → Representation) (input : Octets) :
    Option (Parsed × Octets) :=
  (readInteger width input).bind fun index =>
    (readName index.1 index.2).bind fun name =>
      (readString name.2.2).map fun value =>
        (⟨make name.1 value.1, name.2.1 ++ [value.2.1]⟩, value.2.2)

def readNumber (width : ℕ) (make : ℕ → Representation) (input : Octets) :
    Option (Parsed × Octets) :=
  (readInteger width input).map fun read => (⟨make read.1.value, [read.1]⟩, read.2)

/-- The first representation of a block. -/
def parseOne : Octets → Option (Parsed × Octets)
  | [] => none
  | b :: input =>
    if 128 ≤ b.toNat then readNumber 7 .indexed (b :: input)
    else if 64 ≤ b.toNat then readLiteral 6 .incremental (b :: input)
    else if 32 ≤ b.toNat then readNumber 5 .sizeUpdate (b :: input)
    else if 16 ≤ b.toNat then readLiteral 4 .neverIndexed (b :: input)
    else readLiteral 4 .withoutIndexing (b :: input)

/-- The representations of a block; the fuel is its length. -/
def parse : ℕ → Octets → Option (List Parsed)
  | _, [] => some []
  | 0, _ :: _ => none
  | fuel + 1, b :: input =>
    (parseOne (b :: input)).bind fun first => (parse fuel first.2).map (first.1 :: ·)

def parseBlock (input : Octets) : Option (List Parsed) := parse input.length input

/-! ## Decoding -/

/-- The name that a literal refers to. -/
def Table.resolve (t : Table) : NameRef → Option Octets
  | .index i => (t.lookup i).map Field.name
  | .literal name => some name

/-- A representation of a field: the table after it, and the field. -/
def Table.apply (t : Table) : Representation → Option (Table × Field)
  | .indexed index => (t.lookup index).map (t, ·)
  | .incremental name value => (t.resolve name).map fun n => (t.add ⟨n, value⟩, ⟨n, value⟩)
  | .withoutIndexing name value => (t.resolve name).map fun n => (t, ⟨n, value⟩)
  | .neverIndexed name value => (t.resolve name).map fun n => (t, ⟨n, value⟩)
  | .sizeUpdate _ => none

def Table.applyAll (t : Table) : List Representation → Option (Table × List Field)
  | [] => some (t, [])
  | rep :: reps =>
    (t.apply rep).bind fun first =>
      (first.1.applyAll reps).map fun rest => (rest.1, first.2 :: rest.2)

/-- The size updates at the start of a block, and the rest of it. -/
def splitUpdates : List Representation → List ℕ × List Representation
  | .sizeUpdate maxSize :: reps => (maxSize :: (splitUpdates reps).1, (splitUpdates reps).2)
  | reps => ([], reps)

/-- A decoder: its table, the limit it has announced, and the least limit that it
has announced since the last block, if any. -/
structure Decoder where
  table : Table
  limit : ℕ
  least : Option ℕ

/-- A new decoder. -/
def Decoder.initial : Decoder := ⟨.empty 4096, 4096, none⟩

def Decoder.announce (d : Decoder) (limit : ℕ) : Decoder :=
  { d with limit, least := some (d.least.elim limit (min limit)) }

/-- The size updates respect the limit, and signal the least one when it is
below the maximum. -/
def Decoder.acceptsUpdates (d : Decoder) (updates : List ℕ) : Bool :=
  updates.all (fun u => decide (u ≤ d.limit)) &&
    match d.least with
    | none => true
    | some least => decide (d.table.maxSize ≤ least) || updates.any fun u => decide (u ≤ least)

/-- A block: the decoder after it, and the header list. -/
def Decoder.decodeBlock (d : Decoder) (input : Octets) : Option (Decoder × List Field) :=
  (parseBlock input).bind fun parsed =>
    let split := splitUpdates (parsed.map Parsed.rep)
    if d.acceptsUpdates split.1 then
      ((split.1.foldl Table.resize d.table).applyAll split.2).map fun done =>
        ({ d with table := done.1, least := none }, done.2)
    else none

/-- The blocks of a connection one after another. -/
def Decoder.decodeBlocks (d : Decoder) : List Octets → Option (List (Decoder × List Field))
  | [] => some []
  | block :: blocks =>
    (d.decodeBlock block).bind fun done => (done.1.decodeBlocks blocks).map (done :: ·)

/-! ## Reading makes progress -/

variable {width : ℕ} {input rest : Octets}

theorem readInteger_shorter {w : WireInt} (read : readInteger width input = some (w, rest)) :
    rest.length < input.length := by
  obtain ⟨dropped, le⟩ := readInteger_rest read
  rw [dropped, length_drop]
  omega

theorem readString_rest {s : Octets} {len : WireInt}
    (read : readString input = some (s, len, rest)) : rest.length < input.length := by
  rcases input with _ | ⟨b, input⟩
  · cases read
  obtain ⟨⟨len', rest'⟩, readLen, read⟩ := bind_eq_some_iff.mp read
  have bound : rest.length ≤ rest'.length := by
    split at read
    · cases read
    split at read
    · cases read
      exact (drop_sublist _ _).length_le
    obtain ⟨_, -, eq⟩ := map_eq_some_iff.mp read
    cases eq
    exact (drop_sublist _ _).length_le
  exact Nat.lt_of_le_of_lt bound (readInteger_shorter readLen)

theorem readName_rest {index : WireInt} {name : NameRef} {ints : List WireInt}
    (read : readName index input = some (name, ints, rest)) : rest.length ≤ input.length := by
  unfold readName at read
  split at read
  · obtain ⟨⟨s, len, rest'⟩, readS, eq⟩ := map_eq_some_iff.mp read
    cases eq
    exact Nat.le_of_lt (readString_rest readS)
  · cases read
    exact Nat.le_refl _

variable {p : Parsed}

theorem readLiteral_rest {make : NameRef → Octets → Representation}
    (read : readLiteral width make input = some (p, rest)) : rest.length < input.length := by
  obtain ⟨⟨index, input₁⟩, readIndex, read⟩ := bind_eq_some_iff.mp read
  obtain ⟨⟨name, ints, input₂⟩, readN, read⟩ := bind_eq_some_iff.mp read
  obtain ⟨⟨value, len, input₃⟩, readV, eq⟩ := map_eq_some_iff.mp read
  cases eq
  have first := readInteger_shorter readIndex
  have second := readName_rest readN
  have third := readString_rest readV
  exact Nat.lt_of_lt_of_le third (second.trans (Nat.le_of_lt first))

theorem readNumber_rest {make : ℕ → Representation}
    (read : readNumber width make input = some (p, rest)) : rest.length < input.length := by
  obtain ⟨⟨w, rest'⟩, readW, eq⟩ := map_eq_some_iff.mp read
  cases eq
  exact readInteger_shorter readW

theorem parseOne_rest (read : parseOne input = some (p, rest)) : rest.length < input.length := by
  rcases input with _ | ⟨b, input⟩
  · cases read
  rw [parseOne] at read
  split at read
  · exact readNumber_rest read
  split at read
  · exact readLiteral_rest read
  split at read
  · exact readNumber_rest read
  split at read
  · exact readLiteral_rest read
  · exact readLiteral_rest read

/-- The fuel of `parse` is enough when it is the length of the block. -/
theorem parse_of_le {fuel fuel' : ℕ} (le : input.length ≤ fuel) (le' : input.length ≤ fuel') :
    parse fuel input = parse fuel' input := by
  induction fuel generalizing fuel' input with
  | zero =>
    obtain rfl := length_eq_zero_iff.mp (Nat.le_zero.mp le)
    cases fuel' <;> rfl
  | succ fuel ih =>
    rcases input with _ | ⟨b, input⟩
    · cases fuel' <;> rfl
    obtain ⟨fuel', rfl⟩ : ∃ k, fuel' = k + 1 := ⟨fuel' - 1, by rw [length_cons] at le'; omega⟩
    rw [parse, parse]
    rcases first : parseOne (b :: input) with _ | ⟨p, rest⟩
    · rfl
    have shorter := parseOne_rest first
    have same : parse fuel rest = parse fuel' rest := ih (by omega) (by omega)
    rw [bind_some, bind_some, same]

theorem parseBlock_of_parseOne (read : parseOne input = some (p, rest)) :
    parseBlock input = (parseBlock rest).map (p :: ·) := by
  have shorter := parseOne_rest read
  rcases input with _ | ⟨b, input⟩
  · cases read
  rw [length_cons] at shorter
  rw [parseBlock, length_cons, parse, read, bind_some, parseBlock,
    parse_of_le (Nat.le_of_lt_succ shorter) (Nat.le_refl _)]

end Strimserver.Hpack.Reference
