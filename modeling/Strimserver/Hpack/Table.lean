import Strimserver.Hpack.Integer
import Strimserver.Library.Eviction

/-!
# The static and the dynamic table

The tables of `h2c.c`. The dynamic table is an array with the oldest entry
first; entries are added at its end and evicted at its start. The sizes of the
entries and of the table are kept as numbers, and every change keeps the table
well formed: the numbers are what they stand for, the size is within the maximum
and the array does not overflow.

What the protocol sees is the list of the fields, the newest first. `dynSetMax`
cuts it to the new maximum, and `dynAdd` cuts it to what the new field leaves
and puts the field in front. A field that is larger than the whole table is not
added, and the table stays as it is.
-/

namespace Strimserver.Hpack

open Library List

/-! ## Fields -/

/-- A header field. -/
structure Field where
  name : Octets
  value : Octets
  deriving DecidableEq

/-- The size of an entry, section 4.1 of RFC 7541. -/
def Field.size (f : Field) : ℕ := f.name.length + f.value.length + 32

/-- A field given by two ASCII strings. -/
def Field.ofStrings (name value : String) : Field := ⟨ascii name, ascii value⟩

/-- `HPACK_STATIC`. -/
def hpackStatic : List Field :=
  [.ofStrings ":authority" "", .ofStrings ":method" "GET", .ofStrings ":method" "POST",
    .ofStrings ":path" "/", .ofStrings ":path" "/index.html", .ofStrings ":scheme" "http",
    .ofStrings ":scheme" "https", .ofStrings ":status" "200", .ofStrings ":status" "204",
    .ofStrings ":status" "206", .ofStrings ":status" "304", .ofStrings ":status" "400",
    .ofStrings ":status" "404", .ofStrings ":status" "500", .ofStrings "accept-charset" "",
    .ofStrings "accept-encoding" "gzip, deflate", .ofStrings "accept-language" "",
    .ofStrings "accept-ranges" "", .ofStrings "accept" "",
    .ofStrings "access-control-allow-origin" "", .ofStrings "age" "", .ofStrings "allow" "",
    .ofStrings "authorization" "", .ofStrings "cache-control" "",
    .ofStrings "content-disposition" "", .ofStrings "content-encoding" "",
    .ofStrings "content-language" "", .ofStrings "content-length" "",
    .ofStrings "content-location" "", .ofStrings "content-range" "", .ofStrings "content-type" "",
    .ofStrings "cookie" "", .ofStrings "date" "", .ofStrings "etag" "", .ofStrings "expect" "",
    .ofStrings "expires" "", .ofStrings "from" "", .ofStrings "host" "", .ofStrings "if-match" "",
    .ofStrings "if-modified-since" "", .ofStrings "if-none-match" "", .ofStrings "if-range" "",
    .ofStrings "if-unmodified-since" "", .ofStrings "last-modified" "", .ofStrings "link" "",
    .ofStrings "location" "", .ofStrings "max-forwards" "", .ofStrings "proxy-authenticate" "",
    .ofStrings "proxy-authorization" "", .ofStrings "range" "", .ofStrings "referer" "",
    .ofStrings "refresh" "", .ofStrings "retry-after" "", .ofStrings "server" "",
    .ofStrings "set-cookie" "", .ofStrings "strict-transport-security" "",
    .ofStrings "transfer-encoding" "", .ofStrings "user-agent" "", .ofStrings "vary" "",
    .ofStrings "via" "", .ofStrings "www-authenticate" ""]

theorem hpackStatic_length : hpackStatic.length = 61 := rfl

/-- The place of the first entry that satisfies a test, counted from one; zero
when there is none. This is the loop of the two searches of the static table. -/
def findIndex {α : Type} (test : α → Bool) (xs : List α) : ℕ :=
  match xs.findIdx? test with
  | none => 0
  | some i => i + 1

/-- `static_find_pair`. -/
def staticFindPair (f : Field) : ℕ := findIndex (fun entry => decide (entry = f)) hpackStatic

/-- `static_find_name`. -/
def staticFindName (name : Octets) : ℕ :=
  findIndex (fun entry => decide (entry.name = name)) hpackStatic

/-! ## The dynamic table -/

/-- `struct hpack_dyn_entry`. -/
structure HpackDynEntry where
  field : Field
  size : ℕ

/-- `struct hpack_dyn`, with the oldest entry first; `count` is the number of
entries. -/
structure HpackDyn where
  entries : List HpackDynEntry
  size : ℕ
  maxSize : ℕ

/-- `H2C_DYN_MAX_ENTRIES`. -/
def dynMaxEntries : ℕ := 128

/-- `dyn_reset`. -/
def dynReset : HpackDyn := ⟨[], 0, 4096⟩

/-- `dyn_get`: the entry of an index, counted from one from the newest. -/
def dynGet (d : HpackDyn) (index : ℕ) : Option HpackDynEntry :=
  if index = 0 ∨ d.entries.length < index then none
  else d.entries[d.entries.length - index]?

/-- `dyn_evict_one`. -/
def dynEvictOne (d : HpackDyn) : HpackDyn :=
  match d.entries with
  | [] => d
  | e :: rest => { d with entries := rest, size := d.size - e.size }

/-- The loops that evict while a condition holds and the table is not empty. The
fuel is the number of entries. -/
def dynEvictWhile (condition : HpackDyn → Bool) : ℕ → HpackDyn → HpackDyn
  | 0, d => d
  | fuel + 1, d =>
    if condition d && decide (0 < d.entries.length) then
      dynEvictWhile condition fuel (dynEvictOne d)
    else d

/-- `dyn_set_max`. -/
def dynSetMax (d : HpackDyn) (maxSize : ℕ) : HpackDyn :=
  let d := { d with maxSize }
  dynEvictWhile (fun d => decide (d.maxSize < d.size)) d.entries.length d

/-- The condition of the loop of `dyn_add`. -/
def dynNoRoom (entrySize : ℕ) (d : HpackDyn) : Bool :=
  decide (d.maxSize < d.size + entrySize) || decide (dynMaxEntries ≤ d.entries.length)

/-- `dyn_add`, with allocations that succeed. -/
def dynAdd (d : HpackDyn) (f : Field) : HpackDyn :=
  if d.maxSize < f.size then d
  else
    let d := dynEvictWhile (dynNoRoom f.size) d.entries.length d
    if dynNoRoom f.size d then d
    else { d with entries := d.entries ++ [⟨f, f.size⟩], size := d.size + f.size }

/-- The loop of `dyn_find_pair` and `dyn_find_name`, which asks `dyn_get` for one
index after another. -/
def dynFind (test : Field → Bool) (d : HpackDyn) : ℕ :=
  ((List.range' 1 d.entries.length).find? fun i => (dynGet d i).any fun e => test e.field).getD 0

/-- `dyn_find_pair`. -/
def dynFindPair (d : HpackDyn) (f : Field) : ℕ := dynFind (fun entry => decide (entry = f)) d

/-- `dyn_find_name`. -/
def dynFindName (d : HpackDyn) (name : Octets) : ℕ :=
  dynFind (fun entry => decide (entry.name = name)) d

/-- The fields, the newest first. -/
def HpackDyn.fields (d : HpackDyn) : List Field := (d.entries.map HpackDynEntry.field).reverse

/-! ## Well-formed tables -/

/-- The sizes are what they stand for, and nothing overflows. -/
structure HpackDyn.WellFormed (d : HpackDyn) : Prop where
  entrySize : ∀ e ∈ d.entries, e.size = e.field.size
  size : d.size = total HpackDynEntry.size d.entries
  fits : d.size ≤ d.maxSize
  room : d.entries.length ≤ dynMaxEntries

/-- The sizes of entries alone. -/
structure HpackDyn.Measured (d : HpackDyn) : Prop where
  entrySize : ∀ e ∈ d.entries, e.size = e.field.size
  size : d.size = total HpackDynEntry.size d.entries

theorem HpackDyn.WellFormed.measured {d : HpackDyn} (wf : d.WellFormed) : d.Measured :=
  ⟨wf.entrySize, wf.size⟩

theorem dynReset_wellFormed : dynReset.WellFormed := ⟨nofun, rfl, by decide, by decide⟩

namespace HpackDyn.Measured

variable {d : HpackDyn}

theorem total_fields (m : d.Measured) : total Field.size d.fields = d.size := by
  rw [m.size, HpackDyn.fields, total_reverse]
  unfold total
  rw [map_map]
  congr 1
  apply map_congr_left
  intro e mem
  exact (m.entrySize e mem).symm

theorem evictOne (m : d.Measured) : (dynEvictOne d).Measured := by
  obtain ⟨entries, size, maxSize⟩ := d
  rcases entries with _ | ⟨e, rest⟩
  · exact m
  refine ⟨fun e' mem => m.entrySize e' (mem_cons_of_mem e mem), ?_⟩
  have size' : size = e.size + total HpackDynEntry.size rest := by simpa using m.size
  show size - e.size = total HpackDynEntry.size rest
  omega

/-- An eviction loop on the entries. -/
theorem evictWhile (m : d.Measured) (condition : HpackDyn → Bool) (bad : List HpackDynEntry → Bool)
    (agree : ∀ d' : HpackDyn, d'.Measured → d'.maxSize = d.maxSize →
      condition d' = bad d'.entries) :
    (dynEvictWhile condition d.entries.length d).Measured ∧
      (dynEvictWhile condition d.entries.length d).maxSize = d.maxSize ∧
      (dynEvictWhile condition d.entries.length d).entries = Library.evictWhile bad d.entries := by
  induction count : d.entries.length generalizing d with
  | zero =>
    rw [length_eq_zero_iff.mp count]
    exact ⟨m, rfl, length_eq_zero_iff.mp count⟩
  | succ n ih =>
    obtain ⟨e, rest, entries⟩ := exists_cons_of_length_eq_add_one count
    have nonempty : decide (0 < d.entries.length) = true := decide_eq_true (by omega)
    rw [dynEvictWhile, nonempty, Bool.and_true, agree d m rfl, entries, Library.evictWhile]
    split
    · have evicted : (dynEvictOne d).entries = rest := by
        unfold dynEvictOne
        rw [entries]
      have sameMax : (dynEvictOne d).maxSize = d.maxSize := by
        unfold dynEvictOne
        rw [entries]
      have shorter : (dynEvictOne d).entries.length = n := by
        rw [evicted]
        simpa [entries] using count
      obtain ⟨m', max', entries'⟩ :=
        ih m.evictOne (fun d' measured same => agree d' measured (same.trans sameMax)) shorter
      exact ⟨m', max'.trans sameMax, by rw [entries', evicted]⟩
    · exact ⟨m, rfl, entries⟩

theorem fields_of_entries (m : d.Measured) (limit count : ℕ) {d' : HpackDyn}
    {bad : List HpackDynEntry → Bool}
    (condition : ∀ es, es <:+ d.entries →
      (bad es = false ↔ total HpackDynEntry.size es ≤ limit ∧ es.length ≤ count))
    (evicted : d'.entries = Library.evictWhile bad d.entries) :
    d'.fields = (fit Field.size limit d.fields).take count := by
  have same : ∀ e ∈ d.entries.reverse, e.size = e.field.size := fun e mem =>
    m.entrySize e (mem_reverse.mp mem)
  rw [HpackDyn.fields, evicted, ← map_reverse, reverse_evictWhile condition, map_take, map_fit same,
    map_reverse, HpackDyn.fields]

end HpackDyn.Measured

/-! ## The operations on the fields -/

variable {d : HpackDyn}

theorem HpackDyn.fields_length (d : HpackDyn) : d.fields.length = d.entries.length := by
  simp [HpackDyn.fields]

theorem dynGet_field (d : HpackDyn) (index : ℕ) : (dynGet d index).map HpackDynEntry.field =
      if index = 0 then none else d.fields[index - 1]? := by
  unfold dynGet
  by_cases zero : index = 0
  · simp [zero]
  rw [if_neg zero]
  by_cases beyond : d.entries.length < index
  · rw [if_pos (.inr beyond), List.getElem?_eq_none (by rw [d.fields_length]; omega)]
    rfl
  have inside : index - 1 < (d.entries.map HpackDynEntry.field).length := by
    rw [length_map]
    omega
  rw [if_neg (by omega), HpackDyn.fields, List.getElem?_reverse inside, length_map,
    List.getElem?_map]
  congr 2
  omega

/-- **`dyn_set_max` cuts the table.** -/
theorem dynSetMax_spec (wf : d.WellFormed) (maxSize : ℕ) :
    (dynSetMax d maxSize).WellFormed ∧ (dynSetMax d maxSize).maxSize = maxSize ∧
      (dynSetMax d maxSize).fields = fit Field.size maxSize d.fields := by
  have m : HpackDyn.Measured { d with maxSize } := ⟨wf.entrySize, wf.size⟩
  obtain ⟨measured, max', entries'⟩ := m.evictWhile (fun d => decide (d.maxSize < d.size))
    (fun es => decide (maxSize < total HpackDynEntry.size es)) fun d' measured same => by
      rw [measured.size, same]
  have measured : (dynSetMax d maxSize).Measured := measured
  have fields' := m.fields_of_entries maxSize d.entries.length
    (fun es sub => by simpa using fun _ => sub.length_le) entries'
  have whole : (fit Field.size maxSize d.fields).length ≤ d.entries.length := by
    rw [← d.fields_length]
    exact (prefix_fit maxSize d.fields).length_le
  have cut : (dynSetMax d maxSize).fields = fit Field.size maxSize d.fields :=
    fields'.trans (take_of_length_le whole)
  refine ⟨⟨measured.entrySize, measured.size, ?_, ?_⟩, max', cut⟩
  · have bound : total Field.size (fit Field.size maxSize d.fields) ≤ maxSize :=
      total_fit_le maxSize d.fields
    rw [← cut, measured.total_fields] at bound
    exact bound.trans (Nat.le_of_eq max'.symm)
  · refine (congrArg List.length entries').trans_le ?_
    exact (evictWhile_suffix ..).length_le.trans wf.room

/-- What the loop of `dyn_add` leaves when the field fits the table. -/
theorem dynAdd_loop (wf : d.WellFormed) {f : Field} (fits : f.size ≤ d.maxSize) :
    ∃ d', dynEvictWhile (dynNoRoom f.size) d.entries.length d = d' ∧ d'.Measured ∧
      d'.maxSize = d.maxSize ∧ d'.size + f.size ≤ d.maxSize ∧
      d'.entries.length < dynMaxEntries ∧
      d'.fields = (fit Field.size (d.maxSize - f.size) d.fields).take (dynMaxEntries - 1) := by
  let bad : List HpackDynEntry → Bool := fun es =>
    decide (d.maxSize < total HpackDynEntry.size es + f.size) || decide (dynMaxEntries ≤ es.length)
  have good : ∀ es, bad es = false ↔
      total HpackDynEntry.size es + f.size ≤ d.maxSize ∧ es.length < dynMaxEntries := by
    intro es
    simp [bad]
  obtain ⟨measured, max', entries'⟩ := wf.measured.evictWhile (dynNoRoom f.size) bad
    fun d' measured same => by rw [dynNoRoom, measured.size, same]
  have fields' := wf.measured.fields_of_entries (d.maxSize - f.size) (dynMaxEntries - 1)
    (fun es _ => by
      rw [good es]
      unfold dynMaxEntries
      omega) entries'
  obtain ⟨below, few⟩ := (good _).mp <| show bad (dynEvictWhile (dynNoRoom f.size)
      d.entries.length d).entries = false by
    rw [entries']
    rcases evictWhile_stops bad d.entries with empty | stopped
    · rw [empty]
      exact (good []).mpr ⟨by simpa using fits, by decide⟩
    · exact stopped
  rw [← measured.size] at below
  exact ⟨_, rfl, measured, max', below, few, fields'⟩

/-- **`dyn_add` cuts the table and puts the field in front**, or leaves the table
as it is when the field is too large. -/
theorem dynAdd_spec (wf : d.WellFormed) (f : Field) :
    (dynAdd d f).WellFormed ∧ (dynAdd d f).maxSize = d.maxSize ∧ (dynAdd d f).fields =
        if f.size ≤ d.maxSize then
          f :: (fit Field.size (d.maxSize - f.size) d.fields).take (dynMaxEntries - 1)
        else d.fields := by
  unfold dynAdd
  by_cases large : d.maxSize < f.size
  · rw [if_pos large, if_neg (Nat.not_le.mpr large)]
    exact ⟨wf, rfl, rfl⟩
  have fits : f.size ≤ d.maxSize := Nat.not_lt.mp large
  obtain ⟨d', loop, measured, max', below, few, fields'⟩ := dynAdd_loop wf fits
  have room : dynNoRoom f.size d' = false := by simpa [dynNoRoom, max'] using ⟨below, few⟩
  rw [if_neg large, if_pos fits, loop]
  simp only [room, Bool.false_eq_true, ↓reduceIte]
  refine ⟨⟨?_, ?_, ?_, ?_⟩, max', ?_⟩
  · intro e mem
    rcases mem_append.mp mem with old | new
    · exact measured.entrySize e old
    · rw [mem_singleton.mp new]
  · simp [measured.size]
  · exact below.trans (Nat.le_of_eq max'.symm)
  · simpa using Nat.succ_le_of_lt few
  · rw [← fields']
    simp [HpackDyn.fields]

/-- An index that a search of the dynamic table returns is one of an entry that
passes the test. -/
theorem dynFind_spec {test : Field → Bool} (found : dynFind test d ≠ 0) :
    ∃ f, d.fields[dynFind test d - 1]? = some f ∧ test f = true := by
  rcases search : (List.range' 1 d.entries.length).find? fun i =>
    (dynGet d i).any fun e => test e.field with _ | i
  · refine absurd ?_ found
    rw [dynFind, search, Option.getD_none]
  have index : dynFind test d = i := by rw [dynFind, search, Option.getD_some]
  have passes := List.find?_some search
  have field := dynGet_field d i
  rw [if_neg (by omega)] at field
  rcases entry : dynGet d i with _ | e
  · rw [entry] at passes
    cases passes
  rw [entry] at passes field
  rw [index]
  exact ⟨e.field, field.symm, passes⟩

/-- An index that a search of the static table returns. -/
theorem findIndex_spec {α : Type} {test : α → Bool} {xs : List α} (found : findIndex test xs ≠ 0) :
    ∃ x, xs[findIndex test xs - 1]? = some x ∧ test x = true := by
  unfold findIndex at found ⊢
  rcases search : xs.findIdx? test with _ | i
  · rw [search] at found
    exact absurd rfl found
  · obtain ⟨inside, passes, -⟩ := List.findIdx?_eq_some_iff_getElem.mp search
    exact ⟨xs[i], List.getElem?_eq_getElem inside, passes⟩

/-! ## Runs -/

/-- A change of the table. -/
inductive DynOp where
  | add (f : Field)
  | setMax (maxSize : ℕ)
  | evict

namespace DynOp

/-- What the code does. -/
def apply (d : HpackDyn) : DynOp → HpackDyn
  | .add f => dynAdd d f
  | .setMax maxSize => dynSetMax d maxSize
  | .evict => dynEvictOne d

/-- What happens to a maximum and the fields, the newest first. A field that fits is put in front;
fields leave only from the end, and no more than the maximum and the array ask for. -/
def applyIdeal : ℕ × List Field → DynOp → ℕ × List Field
  | (maxSize, fields), .add f =>
    (maxSize, if f.size ≤ maxSize then
      f :: (fit Field.size (maxSize - f.size) fields).take (dynMaxEntries - 1)
    else fields)
  | (_, fields), .setMax maxSize => (maxSize, fit Field.size maxSize fields)
  | (maxSize, fields), .evict => (maxSize, fields.dropLast)

/-- The table after some operations. -/
def run (ops : List DynOp) : HpackDyn := ops.foldl apply dynReset

/-- The maximum and the fields after some operations. -/
def runIdeal (ops : List DynOp) : ℕ × List Field := ops.foldl applyIdeal (4096, [])

theorem apply_spec (wf : d.WellFormed) (op : DynOp) : (op.apply d).WellFormed ∧
    ((op.apply d).maxSize, (op.apply d).fields) = op.applyIdeal (d.maxSize, d.fields) := by
  cases op with
  | add f =>
    obtain ⟨wf', max', fields⟩ := dynAdd_spec wf f
    exact ⟨wf', Prod.ext max' fields⟩
  | setMax maxSize =>
    obtain ⟨wf', max', fields⟩ := dynSetMax_spec wf maxSize
    exact ⟨wf', Prod.ext max' fields⟩
  | evict =>
    have measured := wf.measured.evictOne
    obtain ⟨entries, size, maxSize⟩ := d
    rcases entries with _ | ⟨e, rest⟩
    · exact ⟨wf, rfl⟩
    refine ⟨⟨measured.entrySize, measured.size, ?_, ?_⟩, ?_⟩
    · exact (Nat.sub_le ..).trans wf.fits
    · exact (Nat.le_succ _).trans wf.room
    · simp [apply, applyIdeal, dynEvictOne, HpackDyn.fields]

theorem run_spec (ops : List DynOp) :
    (run ops).WellFormed ∧ ((run ops).maxSize, (run ops).fields) = runIdeal ops := by
  induction ops using List.reverseRecOn with
  | nil => exact ⟨dynReset_wellFormed, rfl⟩
  | append_singleton ops op ih =>
    rw [run, runIdeal, foldl_concat, foldl_concat]
    obtain ⟨wf, same⟩ := apply_spec ih.1 op
    exact ⟨wf, same.trans (congrArg (applyIdeal · op) ih.2)⟩

end DynOp

/-- **The dynamic table in every run.** The size is that of the entries, nothing overflows,
`dyn_get` finds the fields that were added, in their order, and not evicted since, and a search
returns no wrong index. -/
theorem dynamic_table (ops : List DynOp) : let d := DynOp.run ops
    d.size = (d.fields.map fun f => f.name.length + f.value.length + 32).sum ∧
      d.size ≤ d.maxSize ∧ d.entries.length ≤ dynMaxEntries ∧
      d.maxSize = (DynOp.runIdeal ops).1 ∧
      (∀ k, (dynGet d k).map HpackDynEntry.field =
        if k = 0 then none else (DynOp.runIdeal ops).2[k - 1]?) ∧
      (∀ f, dynFindPair d f ≠ 0 →
        (dynGet d (dynFindPair d f)).map HpackDynEntry.field = some f) ∧
      ∀ name, dynFindName d name ≠ 0 →
        ∃ value, (dynGet d (dynFindName d name)).map HpackDynEntry.field = some ⟨name, value⟩ := by
  obtain ⟨wf, same⟩ := DynOp.run_spec ops
  refine ⟨wf.measured.total_fields.symm, wf.fits, wf.room, congrArg Prod.fst same, fun k => ?_,
    fun f found => ?_, fun name found => ?_⟩
  · rw [dynGet_field, ← same]
  · obtain ⟨g, at', same⟩ := dynFind_spec found
    rw [dynGet_field, if_neg found]
    exact at'.trans (congrArg some (of_decide_eq_true same))
  obtain ⟨⟨name', value⟩, at', same⟩ := dynFind_spec found
  rw [dynGet_field, if_neg found]
  obtain rfl : name' = name := of_decide_eq_true same
  exact ⟨value, at'⟩

end Strimserver.Hpack
