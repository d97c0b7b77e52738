import Strimserver.Hpack.Table

/-!
# The block decoder

`hpack_decode_block` of `h2c.c` and the functions under it. The dynamic table is
kept from block to block. Allocations succeed.
-/

namespace Strimserver.Hpack

/-! ## The decoder -/

/-- `hpack_read_string` at the start of the input: the string, and the number of
octets that were consumed. The capacity for a Huffman-coded string is computed
with 32 bits. -/
def hpackReadString (input : Octets) : Option (Octets × ℕ) :=
  match input with
  | [] => none
  | b :: _ =>
    match hpackReadInt input 7 with
    | none => none
    | some (strLen, lenBytes) =>
      let body := input.drop lenBytes
      if body.length < strLen then none
      else if b &&& 0x80 ≠ 0 then
        (huffDecode (body.take strLen) ((strLen * 8 + 1) % 2 ^ 32)).map (·, lenBytes + strLen)
      else some (body.take strLen, lenBytes + strLen)

/-- `field_resolve_name` for an index that is not zero. -/
def fieldResolveName (d : HpackDyn) (index : ℕ) : Option Octets :=
  if index ≤ 61 then hpackStatic[index - 1]?.map Field.name
  else (dynGet d (index - 61)).map fun e => e.field.name

/-- The field of an indexed representation. The index is a 32-bit number, and
`index - 61` wraps for the index zero. -/
def fieldIndexed (d : HpackDyn) (index : ℕ) : Option Field :=
  if 1 ≤ index ∧ index ≤ 61 then hpackStatic[index - 1]?
  else (dynGet d ((index + (2 ^ 32 - 61)) % 2 ^ 32)).map HpackDynEntry.field

/-- The three branches for literals up to the point where they differ: the field
and the rest of the input. -/
def hpackReadLiteral (d : HpackDyn) (width : ℕ) (input : Octets) : Option (Field × Octets) :=
  match hpackReadInt input width with
  | none => none
  | some (index, consumed) =>
    let input := input.drop consumed
    let named :=
      if index = 0 then (hpackReadString input).map fun read => (read.1, input.drop read.2)
      else (fieldResolveName d index).map (·, input)
    match named with
    | none => none
    | some (name, input) =>
      (hpackReadString input).map fun read => (⟨name, read.1⟩, input.drop read.2)

/-- The loop of `hpack_decode_block`, with the fields so far. Each round consumes
an octet, so the length of the input is enough fuel. -/
def hpackDecodeLoop (maxFields : ℕ) : ℕ → HpackDyn → Octets → List Field →
    Option (HpackDyn × List Field)
  | _, d, [], fields => some (d, fields)
  | 0, _, _ :: _, _ => none
  | fuel + 1, d, b :: input, fields =>
    if maxFields ≤ fields.length then none
    else if b &&& 0x80 ≠ 0 then
      match hpackReadInt (b :: input) 7 with
      | none => none
      | some (index, consumed) =>
        match fieldIndexed d index with
        | none => none
        | some f => hpackDecodeLoop maxFields fuel d ((b :: input).drop consumed) (fields ++ [f])
    else if b &&& 0xc0 = 0x40 then
      match hpackReadLiteral d 6 (b :: input) with
      | none => none
      | some (f, rest) => hpackDecodeLoop maxFields fuel (dynAdd d f) rest (fields ++ [f])
    else if b &&& 0xe0 = 0x20 then
      match hpackReadInt (b :: input) 5 with
      | none => none
      | some (newSize, consumed) =>
        if d.maxSize < newSize then none
        else hpackDecodeLoop maxFields fuel (dynSetMax d newSize)
          ((b :: input).drop consumed) fields
    else if b &&& 0xf0 = 0x00 then
      match hpackReadLiteral d 4 (b :: input) with
      | none => none
      | some (f, rest) => hpackDecodeLoop maxFields fuel d rest (fields ++ [f])
    else if b &&& 0xf0 = 0x10 then
      match hpackReadLiteral d 4 (b :: input) with
      | none => none
      | some (f, rest) => hpackDecodeLoop maxFields fuel d rest (fields ++ [f])
    else none

/-- `hpack_decode_block`. A failure ends the connection, and the table with it. -/
def hpackDecodeBlock (d : HpackDyn) (input : Octets) (maxFields : ℕ) :
    Option (HpackDyn × List Field) :=
  hpackDecodeLoop maxFields input.length d input []

/-- `H2C_MAX_FIELDS`. -/
def maxFields : ℕ := 32

/-- The blocks of a connection one after another: for each the table after it and
its header list. -/
def hpackDecodeBlocks (d : HpackDyn) : List Octets → Option (List (HpackDyn × List Field))
  | [] => some []
  | block :: blocks =>
    (hpackDecodeBlock d block maxFields).bind fun done =>
      (hpackDecodeBlocks done.1 blocks).map (done :: ·)

end Strimserver.Hpack
