import Strimserver.Hpack.Encoder
import Strimserver.Hpack.Reference

/-!
# The encoder against a peer that follows RFC 7541

The octets of a request are a list of representations, and the table of the
encoder is the newest part of the peer's. So an index of the encoder means the
same field to the peer.

Three things break this. An entry that is larger than the table empties the
peer's table and leaves the encoder's. A string that has no room in the buffer is
left out of the block. And of several sizes that the peer announces between two
requests only the last is signalled, while the peer waits for the least one. The
main theorem is about the connections without these.
-/

namespace Strimserver.Hpack

open Library List Option

/-! ## What was written is read -/

def Writes (out : Octets) (rep : Reference.Representation) : Prop :=
  ∀ rest, ∃ ints, Reference.parseOne (out ++ rest) = some (⟨rep, ints⟩, rest)

def BlockOf (block : Octets) (reps : List Reference.Representation) : Prop :=
  ∃ parsed, Reference.parseBlock block = some parsed ∧ parsed.map Reference.Parsed.rep = reps

theorem BlockOf.nil : BlockOf [] [] := ⟨[], rfl, rfl⟩

theorem Writes.append {out rest : Octets} {rep : Reference.Representation}
    {reps : List Reference.Representation} (first : Writes out rep) (more : BlockOf rest reps) :
    BlockOf (out ++ rest) (rep :: reps) := by
  obtain ⟨ints, read⟩ := first rest
  obtain ⟨parsed, readMore, rfl⟩ := more
  refine ⟨⟨rep, ints⟩ :: parsed, ?_, rfl⟩
  rw [Reference.parseBlock_of_parseOne read, readMore, map_some]

/-- An integer of the encoder, for the reference. -/
theorem intOctets_spec {value : ℕ} (small : value < 2 ^ 32) (width pattern : ℕ)
    (aligned : pattern % 2 ^ width = 0) (fits : pattern + 2 ^ width ≤ 256) :
    ∃ b tail, intOctets value width pattern = b :: tail ∧
      b.toNat = pattern + min value (2 ^ width - 1) ∧
      ∀ rest, Reference.readInteger width (b :: (tail ++ rest)) =
        some (⟨value, tail.length⟩, rest) := by
  obtain ⟨b, tail, eq, first, read⟩ :=
    readInteger_written (hpackWriteIntEx_six small width pattern) aligned fits
  refine ⟨b, tail, eq, first, fun rest => ?_⟩
  rw [← cons_append, ← eq]
  exact read rest

variable {index : ℕ}

theorem writes_indexed (small : index < 2 ^ 32) :
    Writes (intOctets index 7 0x80) (.indexed index) := by
  intro rest
  obtain ⟨b, tail, eq, first, read⟩ := intOctets_spec small 7 0x80 (by decide) (by decide)
  rw [eq, cons_append, Reference.parseOne, if_pos (by omega), Reference.readNumber, read rest]
  exact ⟨_, rfl⟩

theorem writes_sizeUpdate {maxSize : ℕ} (small : maxSize < 2 ^ 32) :
    Writes (intOctets maxSize 5 0x20) (.sizeUpdate maxSize) := by
  intro rest
  obtain ⟨b, tail, eq, first, read⟩ := intOctets_spec small 5 0x20 (by decide) (by decide)
  rw [eq, cons_append, Reference.parseOne, if_neg (by omega), if_neg (by omega), if_pos (by omega),
    Reference.readNumber, read rest]
  exact ⟨_, rfl⟩

/-- **A string is read back.** -/
theorem readString_written {s : Octets} (small : s.length < 2 ^ 32) (rest : Octets) :
    ∃ len, Reference.readString (stringOctets s ++ rest) = some (s, len, rest) := by
  obtain ⟨b, tail, eq, first, read⟩ := intOctets_spec small 7 0 (by decide) (by decide)
  refine ⟨⟨s.length, tail.length⟩, ?_⟩
  have plain : b.toNat < 128 := by omega
  have room : ¬ (s ++ rest).length < s.length := by
    rw [length_append]
    omega
  rw [stringOctets, eq, append_assoc, cons_append, Reference.readString, read (s ++ rest),
    bind_some]
  rw [if_neg room, if_pos plain, take_left, drop_left]

/-! ## The representations of a request -/

def fieldRep (d : HpackDyn) (f : Field) : Reference.Representation :=
  if pairIndex d f ≠ 0 then .indexed (pairIndex d f)
  else if nameIndex d f.name ≠ 0 then .incremental (.index (nameIndex d f.name)) f.value
  else .incremental (.literal f.name) f.value

def fieldsReps (d : HpackDyn) : List Field → List Reference.Representation
  | [] => []
  | f :: fs => fieldRep d f :: fieldsReps (fieldTable d f) fs

variable {d : HpackDyn} {f : Field} {fs : List Field} {e : Encoder} {path ns : Octets}

theorem writes_field (wf : d.WellFormed) (short : WritesShort d f) :
    Writes (fieldOctets d f) (fieldRep d f) := by
  have pair := pairIndex_lt wf f
  have name := nameIndex_lt wf f.name
  unfold fieldOctets fieldRep
  split
  · exact writes_indexed pair
  rename_i missing
  have shortValue := short.value (not_not.mp missing)
  intro rest
  obtain ⟨len, readValue⟩ := readString_written shortValue rest
  split_ifs with found
  · obtain ⟨b, tail, eq, first, read⟩ := intOctets_spec name 6 0x40 (by decide) (by decide)
    rw [eq, append_assoc, cons_append, Reference.parseOne, if_neg (by omega), if_pos (by omega),
      Reference.readLiteral, read, bind_some]
    rw [Reference.readName, if_neg found, bind_some, readValue]
    exact ⟨_, rfl⟩
  have shortName := short.name (not_not.mp missing) (not_not.mp found)
  have zero : 0 < 2 ^ 32 := by decide
  obtain ⟨b, tail, eq, first, read⟩ := intOctets_spec zero 6 0x40 (by decide) (by decide)
  obtain ⟨lenName, readName⟩ := readString_written shortName (stringOctets f.value ++ rest)
  rw [eq, append_assoc, append_assoc, cons_append, Reference.parseOne, if_neg (by omega),
    if_pos (by omega), Reference.readLiteral, read, bind_some]
  rw [Reference.readName, if_pos rfl, readName, map_some, bind_some]
  rw [readValue]
  exact ⟨_, rfl⟩

theorem blockOf_fields (wf : d.WellFormed) (short : FieldsShort d fs) :
    BlockOf (fieldsOctets d fs) (fieldsReps d fs) := by
  induction fs generalizing d with
  | nil => exact .nil
  | cons f fs ih =>
    have more : BlockOf (fieldsOctets (fieldTable d f) fs) (fieldsReps (fieldTable d f) fs) :=
      ih (fieldTable_wellFormed wf f) short.2
    exact (writes_field wf short.1).append more

def updateReps (e : Encoder) : List ℕ := if e.encSizeUpdate then [e.dynEnc.maxSize] else []

/-- The representations of a request behind the size update. -/
def requestReps (e : Encoder) (path ns : Octets) : List Reference.Representation :=
  .indexed 3 :: .indexed 6 :: fieldsReps e.dynEnc (requestFields path ns)

theorem blockOf_request (wf : e.dynEnc.WellFormed) (max : e.dynEnc.maxSize < 2 ^ 32)
    (short : FieldsShort e.dynEnc (requestFields path ns)) :
    BlockOf (requestOctets e path ns)
      ((updateReps e).map .sizeUpdate ++ requestReps e path ns) := by
  unfold requestOctets
  have fields : BlockOf (fieldsOctets e.dynEnc (requestFields path ns))
      (fieldsReps e.dynEnc (requestFields path ns)) := blockOf_fields wf short
  have indexed : ∀ index < 2 ^ 32, Writes (intOctets index 7 0x80) (.indexed index) :=
    fun _ small => writes_indexed small
  have method := (indexed 3 (by decide)).append ((indexed 6 (by decide)).append fields)
  rw [← append_assoc] at method
  unfold updateReps
  split
  · exact (writes_sizeUpdate max).append method
  · rw [nil_append, map_nil, nil_append]
    exact method

/-! ## The tables -/

/-- The encoder's table is the newest part of the peer's. -/
structure Follows (d : HpackDyn) (t : Reference.Table) : Prop where
  wellFormed : d.WellFormed
  newest : d.fields <+: t.fields
  maxSize : d.maxSize = t.maxSize

/-- A field is in a table, the table is empty, or the field is not larger than it. -/
def insertionAgrees (d : HpackDyn) (f : Field) : Bool :=
  decide (pairIndex d f ≠ 0) || d.fields.isEmpty || decide (f.size ≤ d.maxSize)

/-- The condition on fields, each for the table that it meets. -/
def insertionsAgree (d : HpackDyn) : List Field → Bool
  | [] => true
  | f :: fs => insertionAgrees d f && insertionsAgree (fieldTable d f) fs

namespace Follows

variable {t : Reference.Table}

/-- An index that the encoder found means the same entry to the peer. -/
theorem lookup (h : Follows d t) {test : Field → Bool}
    (eq : index = joinIndex (findIndex test hpackStatic) (dynFind test d)) (found : index ≠ 0) :
    ∃ f, test f = true ∧ t.lookup index = some f := by
  obtain ⟨f, passes, ⟨below, entry⟩ | ⟨above, entry⟩⟩ := joinIndex_spec eq found
  · exact ⟨f, passes, by rw [t.lookup_static found below, entry]⟩
  refine ⟨f, passes, ?_⟩
  obtain ⟨older, same⟩ := h.newest
  have inside := (List.getElem?_eq_some_iff.mp entry).1
  rw [t.lookup_dynamic above, ← same, List.getElem?_append_left inside, entry]

theorem add (h : Follows d t) (agree : d.fields = [] ∨ f.size ≤ d.maxSize) :
    Follows (dynAdd d f) (t.add f) := by
  obtain ⟨wf, max, fields⟩ := dynAdd_spec h.wellFormed f
  rw [h.maxSize] at fields max agree
  unfold Reference.Table.add
  by_cases within : f.size ≤ t.maxSize
  · rw [if_pos within] at fields
    rw [dif_pos within]
    refine ⟨wf, ?_, max⟩
    rw [fields]
    exact cons_prefix_cons.mpr ⟨rfl, ( take_prefix _ _).trans
      (fit_mono (Nat.le_refl _) h.newest)⟩
  rw [if_neg within] at fields
  rw [dif_neg within]
  refine ⟨wf, ?_, max⟩
  rw [fields, agree.resolve_right within]
  exact nil_prefix

/-- **One field.** The peer reads it, and its table keeps the encoder's at the
front. -/
theorem apply (h : Follows d t) (agree : insertionAgrees d f = true) :
    ∃ t', t.apply (fieldRep d f) = some (t', f) ∧ Follows (fieldTable d f) t' := by
  unfold fieldRep fieldTable
  split
  · rename_i found
    obtain ⟨f', passes, entry⟩ := h.lookup rfl found
    obtain rfl : f' = f := of_decide_eq_true passes
    exact ⟨t, congrArg (Option.map _) entry, h⟩
  rename_i missing
  have fits : d.fields = [] ∨ f.size ≤ d.maxSize := by
    simpa [insertionAgrees, not_not.mp missing] using agree
  refine ⟨t.add f, ?_, h.add fits⟩
  split_ifs with found
  · obtain ⟨f', passes, entry⟩ := h.lookup rfl found
    have name : f'.name = f.name := of_decide_eq_true passes
    have resolved : t.resolve (.index (nameIndex d f.name)) = some f.name :=
      (congrArg (Option.map Field.name) entry).trans (congrArg some name)
    rw [Reference.Table.apply, resolved, map_some]
  · rfl

/-- **The fields of a request.** -/
theorem applyAll (h : Follows d t) (agree : insertionsAgree d fs = true) :
    ∃ t', t.applyAll (fieldsReps d fs) = some (t', fs) ∧ Follows (fieldsTable d fs) t' := by
  induction fs generalizing d t with
  | nil => exact ⟨t, rfl, h⟩
  | cons f fs ih =>
    obtain ⟨agreeFirst, agreeMore⟩ := Bool.and_eq_true_iff.mp agree
    obtain ⟨t₁, first, h₁⟩ := h.apply agreeFirst
    obtain ⟨t₂, more, h₂⟩ := ih h₁ agreeMore
    refine ⟨t₂, ?_, h₂⟩
    rw [fieldsReps, Reference.Table.applyAll, first, bind_some, more, map_some]

/-- A size update for a table that the encoder has cut already. -/
theorem resize (wf : d.WellFormed) (newest : d.fields <+: t.fields) :
    Follows d (t.resize d.maxSize) := by
  refine ⟨wf, ?_, rfl⟩
  have within : total Field.size d.fields ≤ d.maxSize := by
    rw [wf.measured.total_fields]
    exact wf.fits
  rw [← fit_of_total_le within]
  exact fit_mono (Nat.le_refl _) newest

end Follows

/-! ## Connections -/

/-- What the encoder of a connection meets: a `SETTINGS_HEADER_TABLE_SIZE` of the
peer, and a request. -/
inductive EncoderEvent where
  | settings (value : UInt32)
  | request (path ns : Octets)

/-- What the peer meets: the acknowledgement of its setting, and a block. -/
inductive PeerMessage where
  | acknowledged (value : ℕ)
  | block (octets : Octets)

/-- The encoder over a connection, as long as `build_request_headers` returns 0. -/
def Encoder.run (e : Encoder) : List EncoderEvent → Option (List PeerMessage)
  | [] => some []
  | .settings value :: events =>
    ((e.setHeaderTableSize value.toNat).run events).map (.acknowledged value.toNat :: ·)
  | .request path ns :: events =>
    match buildRequestHeaders e path ns reqHdrBlock with
    | (_, none) => none
    | (e, some octets) => (e.run events).map (.block octets :: ·)

/-- The peer over a connection: the header list of every block. -/
def Reference.Decoder.run (r : Reference.Decoder) : List PeerMessage → Option (List (List Field))
  | [] => some []
  | .acknowledged value :: messages => (r.announce value).run messages
  | .block octets :: messages =>
    (r.decodeBlock octets).bind fun done => (done.1.run messages).map (done.2 :: ·)

def requestHeaders (path ns : Octets) : List Field :=
  .ofStrings ":method" "POST" :: .ofStrings ":scheme" "http" :: requestFields path ns

/-- The header lists that a connection is to carry. -/
def intendedHeaders : List EncoderEvent → List (List Field)
  | [] => []
  | .settings _ :: events => intendedHeaders events
  | .request path ns :: events => requestHeaders path ns :: intendedHeaders events

/-- The condition on a connection, with the maximum that the peer was shown last and the least size
it has announced since. Before a request the last size is the least one if that is below what was
shown; the request has room; and its insertions agree. -/
def eventsAgree (e : Encoder) (shown : ℕ) (least : Option ℕ) : List EncoderEvent → Bool
  | [] => true
  | .settings value :: events =>
    eventsAgree (e.setHeaderTableSize value.toNat) shown
      (some (least.elim value.toNat (min value.toNat))) events
  | .request path ns :: events =>
    (least.all fun l => decide (shown ≤ l) || decide (e.dynEnc.maxSize ≤ l)) &&
      decide ((requestOctets e path ns).length ≤ reqHdrBlock) &&
      insertionsAgree e.dynEnc (requestFields path ns) &&
      eventsAgree (buildRequestHeaders e path ns reqHdrBlock).1 e.dynEnc.maxSize none events

/-- The encoder and the peer between two events. -/
structure Synced (e : Encoder) (r : Reference.Decoder) (shown : ℕ) (least : Option ℕ) : Prop where
  wellFormed : e.dynEnc.WellFormed
  small : e.dynEnc.maxSize < 2 ^ 32
  newest : e.dynEnc.fields <+: r.table.fields
  limit : r.limit = e.dynEnc.maxSize
  shown_eq : r.table.maxSize = shown
  least_eq : r.least = least
  /-- Without an update that waits, the peer was shown all there is. -/
  settled : e.encSizeUpdate = false →
    e.dynEnc.maxSize = shown ∧ ∀ l, least = some l → shown ≤ l

theorem synced_initial : Synced .initial .initial 4096 none :=
  ⟨dynReset_wellFormed, by decide, prefix_refl _, rfl, rfl, rfl, fun _ => ⟨rfl, nofun⟩⟩

variable {r : Reference.Decoder} {shown : ℕ} {least : Option ℕ}

namespace Synced

theorem announce (h : Synced e r shown least) (value : UInt32) :
    Synced (e.setHeaderTableSize value.toNat) (r.announce value.toNat) shown
      (some (least.elim value.toNat (min value.toNat))) := by
  have least' : (r.announce value.toNat).least =
      some (least.elim value.toNat (min value.toNat)) := by
    rw [← h.least_eq]
    rfl
  unfold Encoder.setHeaderTableSize
  split_ifs with same
  · obtain ⟨wf, max, fields⟩ := dynSetMax_spec h.wellFormed value.toNat
    refine ⟨wf, ?_, ?_, max.symm, h.shown_eq, least', nofun⟩
    · rw [max]
      exact value.toNat_lt
    · rw [fields]
      exact (prefix_fit _ _).trans h.newest
  have max : value.toNat = e.dynEnc.maxSize := not_not.mp same
  refine ⟨h.wellFormed, h.small, h.newest, max, h.shown_eq, least', fun quiet => ?_⟩
  obtain ⟨current, above⟩ := h.settled quiet
  refine ⟨current, fun l eq => ?_⟩
  obtain rfl := Option.some.inj eq
  rcases least with _ | l
  · exact Nat.le_of_eq (current.symm.trans max.symm)
  · exact Nat.le_min.mpr ⟨Nat.le_of_eq (current.symm.trans max.symm), above l rfl⟩

/-- The size update of a request is what the peer waits for. -/
theorem acceptsUpdates (h : Synced e r shown least)
    (agree : (least.all fun l => decide (shown ≤ l) || decide (e.dynEnc.maxSize ≤ l)) = true) :
    r.acceptsUpdates (updateReps e) = true := by
  unfold Reference.Decoder.acceptsUpdates updateReps
  rw [h.limit, h.least_eq, h.shown_eq]
  rcases flag : e.encSizeUpdate
  · rcases least with _ | l
    · rfl
    · have above : shown ≤ l := (h.settled flag).2 l rfl
      simp [above]
  rcases least with _ | l
  · simp
  · simpa using agree

/-- After the size update the encoder's table is the newest part of the peer's. -/
theorem follows (h : Synced e r shown least) :
    Follows e.dynEnc ((updateReps e).foldl Reference.Table.resize r.table) := by
  unfold updateReps
  split_ifs with quiet
  · exact .resize h.wellFormed h.newest
  have current := (h.settled (Bool.eq_false_iff.mpr quiet)).1
  exact ⟨h.wellFormed, h.newest, current.trans h.shown_eq.symm⟩

end Synced

theorem splitUpdates_append (updates : List ℕ) (index : ℕ) (reps : List Reference.Representation) :
    Reference.splitUpdates (updates.map .sizeUpdate ++ .indexed index :: reps) =
      (updates, .indexed index :: reps) := by
  induction updates with
  | nil => rfl
  | cons u updates ih => rw [map_cons, cons_append, Reference.splitUpdates, ih]

/-- **One request.** The peer reads the header list, and both sides stay in sync. -/
theorem Synced.request (h : Synced e r shown least)
    (signalled : (least.all fun l => decide (shown ≤ l) || decide (e.dynEnc.maxSize ≤ l)) = true)
    (short : FieldsShort e.dynEnc (requestFields path ns)) {cap : ℕ}
    (fits : (requestOctets e path ns).length ≤ cap)
    (agree : insertionsAgree e.dynEnc (requestFields path ns) = true) :
    ∃ e' r', buildRequestHeaders e path ns cap = (e', some (requestOctets e path ns)) ∧
      r.decodeBlock (requestOctets e path ns) = some (r', requestHeaders path ns) ∧
      Synced e' r' e.dynEnc.maxSize none := by
  have built : buildRequestHeaders e path ns cap =
      (⟨fieldsTable e.dynEnc (requestFields path ns), false⟩, some (requestOctets e path ns)) := by
    unfold buildRequestHeaders
    unfold requestOctets at *
    rw [length_append] at fits
    split_ifs with update
    · rw [if_pos update] at fits
      rw [hpackWriteIntEx_fits h.small (by omega)]
      dsimp only
      rw [buildRequestFields_fits h.wellFormed short (by omega), map_some]
    rw [if_neg update] at fits
    rw [buildRequestFields_fits h.wellFormed short (by omega), nil_append]
  have max := fieldsTable_maxSize h.wellFormed (requestFields path ns)
  obtain ⟨parsed, read, reps⟩ := blockOf_request h.wellFormed h.small short
  obtain ⟨t, applied, follows⟩ := h.follows.applyAll agree
  generalize fieldsTable e.dynEnc (requestFields path ns) = d at built max follows
  have static : ∀ t : Reference.Table, t.lookup 3 = some (.ofStrings ":method" "POST") ∧
      t.lookup 6 = some (.ofStrings ":scheme" "http") := fun t =>
    ⟨t.lookup_static (by decide) (by decide), t.lookup_static (by decide) (by decide)⟩
  refine ⟨_, { r with table := t, least := none }, built, ?_, ?_⟩
  · rw [Reference.Decoder.decodeBlock, read, bind_some]
    rw [reps, requestReps, splitUpdates_append]
    rw [if_pos (h.acceptsUpdates signalled), Reference.Table.applyAll, Reference.Table.apply,
      (static _).1, map_some, bind_some, Reference.Table.applyAll, Reference.Table.apply,
      (static _).2, map_some, bind_some, applied, map_some, map_some, map_some]
    rfl
  · exact ⟨follows.wellFormed, Nat.lt_of_le_of_lt (Nat.le_of_eq max) h.small, follows.newest,
      h.limit.trans max.symm, follows.maxSize.symm.trans max, rfl, fun _ => ⟨max, nofun⟩⟩

/-- The connection from any state in sync. -/
theorem Synced.run (h : Synced e r shown least) {events : List EncoderEvent}
    {messages : List PeerMessage} (built : e.run events = some messages)
    (agree : eventsAgree e shown least events = true) :
    r.run messages = some (intendedHeaders events) := by
  induction events generalizing e r shown least messages with
  | nil =>
    cases built
    rfl
  | cons event events ih =>
    cases event with
    | settings value =>
      obtain ⟨messages, built', rfl⟩ := map_eq_some_iff.mp built
      exact ih (h.announce value) built' agree
    | request path ns =>
      rw [eventsAgree, Bool.and_eq_true, Bool.and_eq_true, Bool.and_eq_true,
        decide_eq_true_eq] at agree
      obtain ⟨⟨⟨signalled, fits⟩, insertions⟩, agree⟩ := agree
      have short : FieldsShort e.dynEnc (requestFields path ns) := by
        apply FieldsShort.of_fits
        rw [requestOctets, length_append, length_append, reqHdrBlock] at fits
        omega
      obtain ⟨e', r', request, decoded, h'⟩ := h.request signalled short fits insertions
      rw [request] at agree
      rw [Encoder.run, request] at built
      obtain ⟨messages, built', rfl⟩ := map_eq_some_iff.mp built
      rw [Reference.Decoder.run, decoded, bind_some, ih h' built' agree, map_some]
      rfl

/-- **The encoder is sound.** On every connection that meets the condition, a peer
that follows RFC 7541 reads the intended header lists. -/
theorem encoder_sound (events : List EncoderEvent) (messages : List PeerMessage)
    (built : Encoder.initial.run events = some messages)
    (agree : eventsAgree .initial 4096 none events = true) :
    Reference.Decoder.initial.run messages = some (intendedHeaders events) :=
  synced_initial.run built agree

/-- A connection with a smaller table and two requests. -/
def twoRequests : List EncoderEvent :=
  [.settings 256, .request (ascii "/v/A") (ascii "k8s"), .request (ascii "/v/A") (ascii "k8s")]

theorem encoder_sound_twoRequests :
    ∃ messages, Encoder.initial.run twoRequests = some messages ∧
      Reference.Decoder.initial.run messages =
        some [requestHeaders (ascii "/v/A") (ascii "k8s"),
          requestHeaders (ascii "/v/A") (ascii "k8s")] := by
  have runs : (Encoder.initial.run twoRequests).isSome = true ∧
      eventsAgree .initial 4096 none twoRequests = true := by decide +kernel
  obtain ⟨messages, built⟩ := isSome_iff_exists.mp runs.1
  exact ⟨messages, built, encoder_sound twoRequests messages built runs.2⟩

/-- Two requests with a table that only holds `te: trailers`. -/
def smallTable : List EncoderEvent :=
  [.settings 42, .request (ascii "/v/Alpha") (ascii "k8s"),
    .request (ascii "/v/Alpha") (ascii "k8s")]

/-- A request whose path has no room in the buffer. -/
def longPath : List EncoderEvent := [.request (List.replicate 1022 97) (ascii "k8s")]

/-- Two sizes before a request, the smaller one first. -/
def risingSizes : List EncoderEvent :=
  [.settings 100, .settings 200, .request (ascii "/v/Alpha") (ascii "k8s")]

/-- **Where the encoder is not sound.** In the small table `user-agent` empties the peer's table and
not the encoder's, and the second request has an index the peer does not know. A long path is left
out, and the peer reads another header list. And the peer refuses a block that does not signal the
least of the sizes. -/
theorem encoder_unsound :
    (Encoder.initial.run smallTable).map Reference.Decoder.initial.run = some none ∧
      ((Encoder.initial.run longPath).isSome = true ∧
        (Encoder.initial.run longPath).map Reference.Decoder.initial.run ≠
          some (some (intendedHeaders longPath))) ∧
      (Encoder.initial.run risingSizes).map Reference.Decoder.initial.run = some none := by
  decide +kernel

end Strimserver.Hpack
