import Strimserver.Hpack.EncoderSound

/-!
# Requests in buffers of any size

`build_request_headers` of `h2c.c` should encode a request as a whole, or fail and
leave the encoder as it was. It changes the encoder while it writes: the size
update is marked as sent, and every field that was not found goes to the table
before the next one is tried. A failure after that leaves the changes behind, and
the peer never sees the block that they belong to.

There are two more ways in which it misses. A string without room is left out,
and the request still counts as encoded. And a field that is larger than the table
empties the peer's table and not the encoder's, so that a later field of the same
block can have an index that the peer does not know.

The main theorem is about the requests without these: the whole request has room,
or the buffer ends before anything was changed.
-/

namespace Strimserver.Hpack

/-! ## The encoders of connections -/

/-- The encoders that a connection can have. -/
structure Encoder.Valid (e : Encoder) : Prop where
  wellFormed : e.dynEnc.WellFormed
  small : e.dynEnc.maxSize < 2 ^ 32

theorem Encoder.Valid.initial : Encoder.initial.Valid := ⟨dynReset_wellFormed, by decide⟩

/-! ## The property and the condition -/

/-- A decoder of RFC 7541 with the encoder's table. -/
def Encoder.Valid.peer {e : Encoder} (v : e.Valid) : Reference.Decoder where
  table := ⟨e.dynEnc.fields, e.dynEnc.maxSize, by
    rw [v.wellFormed.measured.total_fields]
    exact v.wellFormed.fits⟩
  limit := e.dynEnc.maxSize
  least := none

/-- The request is encoded as a whole, or it fails and the encoder is as before. -/
def AllOrNothing (e : Encoder) (v : e.Valid) (path ns : Octets) (cap : ℕ) : Prop :=
  ((buildRequestHeaders e path ns cap).2.bind v.peer.decodeBlock).map Prod.snd =
      some (requestHeaders path ns) ∨
    buildRequestHeaders e path ns cap = (e, none)

/-- The first integer of a field: its index, or that of its name. -/
def leadOctets (d : HpackDyn) (f : Field) : Octets :=
  if pairIndex d f ≠ 0 then intOctets (pairIndex d f) 7 0x80
  else intOctets (nameIndex d f.name) 6 0x40

/-- A field that leaves the table as it is: it was found, or it is larger than the
table, and its strings have lengths of 32 bits. -/
def keepsTable (d : HpackDyn) (f : Field) : Bool :=
  decide (pairIndex d f ≠ 0) ||
    (decide (d.maxSize < f.size) && decide (f.name.length < 2 ^ 32) &&
      decide (f.value.length < 2 ^ 32))

/-- The buffer ends before the first integer of a field, and the fields up to there
have room and leave the table as it is. -/
def endsUntouched (d : HpackDyn) (cap : ℕ) : List Field → Bool
  | [] => false
  | f :: fs =>
    decide (cap < (leadOctets d f).length) ||
      (decide ((fieldOctets d f).length ≤ cap) && keepsTable d f &&
        endsUntouched d (cap - (fieldOctets d f).length) fs)

/-- The condition on a request and a buffer: the whole request has room, its strings have lengths of
32 bits, and its insertions agree with those of the peer; or the buffer ends before the size update,
or without one before anything goes to the table. -/
def fitsOrUntouched (e : Encoder) (path ns : Octets) (cap : ℕ) : Bool :=
  (decide ((requestOctets e path ns).length ≤ cap) && decide (path.length < 2 ^ 32) &&
      decide (ns.length < 2 ^ 32) && insertionsAgree e.dynEnc (requestFields path ns)) ||
    if e.encSizeUpdate then decide (cap < (intOctets e.dynEnc.maxSize 5 0x20).length)
    else decide (cap < 2) || endsUntouched e.dynEnc (cap - 2) (requestFields path ns)

/-! ## A buffer that ends untouched -/

section Untouched

variable {d : HpackDyn} {cap : ℕ}

theorem hpackEncodeField_refused (wf : d.WellFormed) {f : Field}
    (less : cap < (leadOctets d f).length) : hpackEncodeField d cap f = (d, none) := by
  have pair := pairIndex_lt wf f
  have name := nameIndex_lt wf f.name
  unfold leadOctets at less
  unfold hpackEncodeField
  split
  · rename_i found
    rw [if_pos found] at less
    rw [hpackWriteIntEx_noRoom pair less]
  rename_i missing
  rw [if_neg missing] at less
  split_ifs with missing'
  · rw [hpackWriteIntEx_noRoom name less]
  rw [not_not.mp missing'] at less
  rw [hpackWriteIntEx_noRoom (by decide) less]

/-- A field that leaves the table as it is, in a buffer that has the room. -/
theorem hpackEncodeField_keeps (wf : d.WellFormed) {f : Field}
    (fits : (fieldOctets d f).length ≤ cap) (keeps : keepsTable d f = true) :
    hpackEncodeField d cap f = (d, some (fieldOctets d f)) := by
  rw [keepsTable, Bool.or_eq_true, Bool.and_eq_true, Bool.and_eq_true, decide_eq_true_eq,
    decide_eq_true_eq, decide_eq_true_eq, decide_eq_true_eq] at keeps
  have short : WritesShort d f := by
    rcases keeps with found | ⟨⟨-, name⟩, value⟩
    · exact ⟨fun missing => absurd missing found, fun missing => absurd missing found⟩
    · exact ⟨fun _ _ => name, fun _ => value⟩
  have table : fieldTable d f = d := by
    unfold fieldTable
    split_ifs with missing
    · rfl
    obtain ⟨⟨large, -⟩, -⟩ := keeps.resolve_left missing
    rw [dynAdd, if_pos large]
  rw [hpackEncodeField_fits wf short fits, table]

/-- **Fields in a buffer that ends untouched** fail, and the table is as before. -/
theorem hpackEncodeFields_untouched (wf : d.WellFormed) {fs : List Field}
    (ends : endsUntouched d cap fs = true) : hpackEncodeFields d cap fs = (d, none) := by
  induction fs generalizing cap with
  | nil => cases ends
  | cons f fs ih =>
    rw [endsUntouched, Bool.or_eq_true, Bool.and_eq_true, Bool.and_eq_true, decide_eq_true_eq,
      decide_eq_true_eq] at ends
    rcases ends with refused | ⟨⟨fits, keeps⟩, ends⟩
    · rw [hpackEncodeFields, hpackEncodeField_refused wf refused]
    rw [hpackEncodeFields, hpackEncodeField_keeps wf fits keeps]
    dsimp only
    rw [ih ends, Option.map_none]

end Untouched

/-! ## The theorem -/

/-- **All or nothing.** In every buffer that has room for the whole request, or that
ends before anything was changed, the request is encoded as a whole, or the encoder
is as before. -/
theorem buildRequestHeaders_allOrNothing (e : Encoder) (v : e.Valid) (path ns : Octets) (cap : ℕ)
    (condition : fitsOrUntouched e path ns cap = true) : AllOrNothing e v path ns cap := by
  rw [fitsOrUntouched, Bool.or_eq_true, Bool.and_eq_true, Bool.and_eq_true, Bool.and_eq_true,
    decide_eq_true_eq, decide_eq_true_eq, decide_eq_true_eq] at condition
  rcases condition with ⟨⟨⟨fits, shortPath⟩, shortNs⟩, agree⟩ | ends
  · have synced : Synced e v.peer e.dynEnc.maxSize none :=
      ⟨v.wellFormed, v.small, List.prefix_refl _, rfl, rfl, rfl, fun _ => ⟨rfl, nofun⟩⟩
    have short : FieldsShort e.dynEnc (requestFields path ns) := by
      have names : ∀ f ∈ requestFields [] [], f.name.length < 2 ^ 32 ∧ f.value.length < 2 ^ 32 := by
        decide
      apply FieldsShort.of_lengths
      simp only [requestFields, List.forall_mem_cons] at names ⊢
      exact ⟨⟨names.1.1, shortPath⟩, names.2.1, names.2.2.1, names.2.2.2.1, names.2.2.2.2.1,
        ⟨names.2.2.2.2.2.1.1, shortNs⟩, nofun⟩
    obtain ⟨e', r', built, decoded, -⟩ := synced.request rfl short fits agree
    left
    rw [built, Option.bind_some, decoded, Option.map_some]
  right
  unfold buildRequestHeaders
  split_ifs with update
  · rw [if_pos update, decide_eq_true_eq] at ends
    rw [hpackWriteIntEx_noRoom v.small ends]
  rw [if_neg update, Bool.or_eq_true, decide_eq_true_eq] at ends
  have fields : buildRequestFields e.dynEnc path ns cap = (e.dynEnc, none) := by
    unfold buildRequestFields
    rcases cap with _ | _ | cap
    · rfl
    · rfl
    have fields := hpackEncodeFields_untouched v.wellFormed (ends.resolve_left (by omega))
    show ((hpackEncodeFields e.dynEnc cap _).1, (hpackEncodeFields e.dynEnc cap _).2.map _) = _
    rw [show cap + 1 + 1 - 2 = cap from rfl] at fields
    rw [fields, Option.map_none]
  rw [fields]
  dsimp only
  rw [← Bool.eq_false_iff.mpr update]

/-- A request that has room, and one that fails at once. -/
theorem allOrNothing_enough_and_one :
    AllOrNothing .initial .initial (ascii "/v/A") (ascii "k8s") reqHdrBlock ∧
      AllOrNothing .initial .initial (ascii "/v/A") (ascii "k8s") 1 := by
  have conditions : fitsOrUntouched .initial (ascii "/v/A") (ascii "k8s") reqHdrBlock = true ∧
      fitsOrUntouched .initial (ascii "/v/A") (ascii "k8s") 1 = true := by decide +kernel
  exact ⟨buildRequestHeaders_allOrNothing _ _ _ _ _ conditions.1,
    buildRequestHeaders_allOrNothing _ _ _ _ _ conditions.2⟩

/-- **Where it is neither.** In 19 octets the path and the authority go to the table before the
content type fails. In the buffer of `send_request` a namespace of 1000 octets is left out, and the
request counts as encoded. -/
theorem request_encoded_in_part :
    ¬ AllOrNothing .initial .initial (ascii "/v/A") (ascii "k8s") 19 ∧
      ¬ AllOrNothing .initial .initial (ascii "/v/A") (List.replicate 1000 97) reqHdrBlock := by
  have outcomes : ∀ r ∈ [(ascii "k8s", 19), (List.replicate 1000 97, reqHdrBlock)],
      ((buildRequestHeaders .initial (ascii "/v/A") r.1 r.2).2.bind
          (Encoder.Valid.peer .initial).decodeBlock).map Prod.snd ≠
        some (requestHeaders (ascii "/v/A") r.1) ∧
      (buildRequestHeaders .initial (ascii "/v/A") r.1 r.2).1.dynEnc.entries.length ≠ 0 := by
    decide +kernel
  have neither : ∀ r ∈ [(ascii "k8s", 19), (List.replicate 1000 97, reqHdrBlock)],
      ¬ AllOrNothing .initial .initial (ascii "/v/A") r.1 r.2 := by
    rintro r member (whole | same)
    · exact (outcomes r member).1 whole
    · exact (outcomes r member).2 (congrArg (fun result => result.1.dynEnc.entries.length) same)
  exact ⟨neither (_, _) (.head _),
    neither (List.replicate 1000 97, reqHdrBlock) (.tail _ (.head _))⟩

end Strimserver.Hpack
