import Mathlib.Data.List.Dedup
import Mathlib.Data.List.FinRange
import Strimserver.Library.Octets

/-!
# Reading and capping in the stream analysis

Two functions of `analyze.py`. `nul_chunks` splits a stream that comes in pieces: `readFields`
says what it yields, from the whole stream. `cap_rows` thins out the timeline, mechanism by
mechanism: it samples the weak rows at even distances, and the numbers it reports are right
because it never takes a row twice.

An event is known by its identity, as in the source; so two events are the same object when
they are equal. The indices of the sample are computed exactly.
-/

namespace Strimserver.StreamMode

open List

/-! ## Records of a stream -/

/-- Nothing is left of the field when it is stripped. -/
def blank (field : Octets) : Bool := field.all isSpace

/-- `nul_chunks` with what is in its buffer, for what the reads return; an empty read is the
end of the stream. -/
def nulChunks (buf : Octets) : List Octets → List Octets
  | [] | [] :: _ => if blank buf then [] else [buf]
  | data :: reads =>
    let parts := (buf ++ data).splitOn 0
    parts.dropLast ++ nulChunks (parts.getLastD []) reads

/-- The fields of a stream, without the last one if it is blank. -/
def readFields (stream : Octets) : List Octets :=
  let fields := stream.splitOn 0
  fields.dropLast ++ if blank (fields.getLastD []) then [] else [fields.getLastD []]

/-- The last field of what was read goes on with what is read next. -/
theorem splitOn_append (front back : Octets) : (front ++ back).splitOn 0 =
      (front.splitOn 0).dropLast ++ ((front.splitOn 0).getLastD [] ++ back).splitOn 0 := by
  have cons (c : UInt8) (text : Octets) : (c :: text).splitOn 0 =
      if c == 0 then [] :: text.splitOn 0 else (text.splitOn 0).modifyHead (c :: ·) :=
    splitOnP_cons_eq_if_modifyHead ..
  induction front with
  | nil => rfl
  | cons c front ih =>
    rw [cons_append, cons, cons, ih]
    rcases fields : front.splitOn 0 with _ | ⟨field, _ | ⟨next, fields⟩⟩
    · exact absurd fields (splitOn_ne_nil _ _)
    · split_ifs with separator
      · rfl
      · show _ = List.splitOn 0 (c :: (field ++ back))
        rw [cons, if_neg separator]
        rfl
    · split_ifs <;> rfl

theorem readFields_append (front back : Octets) : readFields (front ++ back) =
      (front.splitOn 0).dropLast ++ readFields ((front.splitOn 0).getLastD [] ++ back) := by
  simp only [readFields]
  rw [splitOn_append front back]
  have some := splitOn_ne_nil 0 ((front.splitOn 0).getLastD [] ++ back)
  generalize ((front.splitOn 0).getLastD [] ++ back).splitOn 0 = fields at some ⊢
  rw [dropLast_append_of_ne_nil some, append_assoc, getLastD_eq_getLast?,
    List.getLast?_append_of_ne_nil _ some, ← getLastD_eq_getLast?]

/-- The last field of a stream has no separator in it. -/
theorem splitOn_getLastD (front : Octets) :
    ((front.splitOn 0).getLastD []).splitOn 0 = [(front.splitOn 0).getLastD []] := by
  have fields := splitOn_append front []
  rw [append_nil, append_nil] at fields
  refine append_cancel_left (fields.symm.trans ?_)
  rw [getLastD_eq_getLast?, List.getLast?_eq_getLast_of_ne_nil (splitOn_ne_nil _ _)]
  exact (dropLast_append_getLast _).symm

/-- **Splitting does not depend on the reads.** However the stream is cut into reads, the
records are the fields of the whole stream. -/
theorem nul_chunks_eq (reads : List Octets) (some : ∀ data ∈ reads, data ≠ []) :
    nulChunks [] reads = readFields reads.flatten := by
  suffices ∀ buf : Octets, buf.splitOn 0 = [buf] →
      nulChunks buf reads = readFields (buf ++ reads.flatten) from this [] rfl
  induction reads with
  | nil =>
    intro buf whole
    rw [flatten_nil, append_nil, readFields, whole]
    rfl
  | cons data reads ih =>
    intro buf whole
    obtain ⟨first, rest⟩ := forall_mem_cons.mp some
    rw [nulChunks, ih rest _ (splitOn_getLastD _), flatten_cons, ← append_assoc,
      ← readFields_append]
    exact first

/-- Two records, the second one cut by a read, and a line break behind them. -/
theorem nul_chunks_eq_cut :
    nulChunks [] [ascii "a", 0 :: ascii "b", ascii "c" ++ [0, 10]] = [ascii "a", ascii "bc"] :=
  (nul_chunks_eq _ (by decide)).trans (by decide)

/-! ## Rows of the timeline -/

variable {Event : Type} (mech sev : Event → String)

def isStrong (e : Event) : Bool := sev e ∈ ["med", "high", "mark"]

/-- The index of a sample is inside the list. -/
theorem index_lt {n room : ℕ} (some : 0 < n) (i : Fin room) : i * n / room < n :=
  Nat.div_lt_of_lt_mul (Nat.mul_lt_mul_of_pos_right i.isLt some)

/-- Rows at even distances, as many as there is room for. -/
def sample (weak : List Event) (room : ℕ) : List Event :=
  if some : 0 < weak.length then
    (List.finRange room).map fun i : Fin room => weak.get ⟨i * weak.length / room, index_lt some i⟩
  else []

/-- The rows of one mechanism that `cap_rows` keeps. -/
def chosen (cap : ℕ) (rows : List Event) : List Event :=
  if rows.length ≤ cap then rows
  else
    let strong := rows.filter (isStrong sev ·)
    strong ++ sample (rows.filter (! isStrong sev ·)) (cap - strong.length)

def ofMech (events : List Event) (m : String) : List Event := events.filter (mech · = m)

/-- `cap_rows`: the rows, and how many of a mechanism are left out. -/
def capRows [DecidableEq Event] (events : List Event) (cap : ℕ) :
    List Event × (String → Option ℤ) :=
  let keep := (events.map mech).dedup.flatMap fun m => chosen sev cap (ofMech mech events m)
  (events.filter (· ∈ keep), fun m =>
    let rows := ofMech mech events m
    if rows.length ≤ cap then none else some (rows.length - (chosen sev cap rows).length))

variable {mech sev} {rows events : List Event} {cap : ℕ}

/-- With at most as much room as there are rows, that many are taken, and none twice. -/
theorem sample_spec {weak : List Event} (nodup : weak.Nodup) {room : ℕ} (few : room ≤ weak.length) :
    (sample weak room).Nodup ∧ (sample weak room).length = room ∧ sample weak room ⊆ weak := by
  unfold sample
  split_ifs with some
  swap
  · exact ⟨nodup_nil, by rw [length_nil]; omega, nil_subset _⟩
  have apart {i j : Fin room} (less : i < j) : i * weak.length / room < j * weak.length / room := by
    calc i * weak.length / room < i * weak.length / room + 1 := Nat.lt_succ_self _
      _ = (i * weak.length + room) / room := (Nat.add_div_right _ i.pos).symm
      _ ≤ (i * weak.length + weak.length) / room := Nat.div_le_div_right (Nat.add_le_add_left few _)
      _ = (i + 1) * weak.length / room := by rw [Nat.succ_mul]
      _ ≤ j * weak.length / room := Nat.div_le_div_right (Nat.mul_le_mul_right _ less)
  refine ⟨(nodup_finRange room).map fun i j same => ?_, ?_, fun e mem => ?_⟩
  · have index := Fin.val_eq_of_eq (nodup.injective_get same)
    rcases lt_trichotomy i j with less | equal | more
    · exact absurd index (apart less).ne
    · exact equal
    · exact absurd index (apart more).ne'
  · rw [length_map, length_finRange]
  · obtain ⟨i, -, rfl⟩ := mem_map.mp mem
    exact get_mem ..

/-- What is kept of one mechanism: rows of it, each once, and all the strong ones. -/
theorem chosen_spec (nodup : rows.Nodup) :
    chosen sev cap rows ⊆ rows ∧ (chosen sev cap rows).Nodup ∧
      rows.filter (isStrong sev ·) ⊆ chosen sev cap rows ∧
      (chosen sev cap rows).length =
        max (min rows.length cap) (rows.filter (isStrong sev ·)).length := by
  have parts := length_eq_length_filter_add (l := rows) (isStrong sev ·)
  unfold chosen
  split_ifs with few
  · exact ⟨fun _ => id, nodup, filter_subset_self .., by omega⟩
  dsimp only
  generalize left : cap - (rows.filter (isStrong sev ·)).length = room
  obtain ⟨once, length, weak⟩ := sample_spec (nodup.filter (! isStrong sev ·))
    (show room ≤ _ by omega)
  refine ⟨?_, ?_, subset_append_left _ _, ?_⟩
  · exact append_subset.mpr ⟨filter_subset_self .., fun e mem => mem_of_mem_filter (weak mem)⟩
  · refine List.Nodup.append (nodup.filter _) once fun e strong mem => ?_
    have none := (mem_filter.mp (weak mem)).2
    rw [(mem_filter.mp strong).2] at none
    cases none
  · rw [length_append, length]
    omega

variable [DecidableEq Event]

/-- A row is kept when it is one of those that are chosen for its mechanism. -/
theorem mem_capRows (nodup : events.Nodup) {e : Event} : e ∈ (capRows mech sev events cap).1 ↔
    e ∈ chosen sev cap (ofMech mech events (mech e)) := by
  have own {m : String} (mem : e ∈ chosen sev cap (ofMech mech events m)) :
      e ∈ events ∧ mech e = m := by
    obtain ⟨inside, same⟩ := mem_filter.mp ((chosen_spec (nodup.filter _)).1 mem)
    exact ⟨inside, of_decide_eq_true same⟩
  simp only [capRows, mem_filter, decide_eq_true_eq, mem_flatMap, mem_dedup, mem_map]
  refine ⟨?_, fun mem => ⟨(own mem).1, mech e, ⟨e, (own mem).1, rfl⟩, mem⟩⟩
  rintro ⟨-, m, -, mem⟩
  rwa [(own mem).2]

/-- **Capping loses nothing unreported.** The rows are rows of the timeline in their order, with
every strong row; of each mechanism there are as many as the cap allows or as are strong, none
twice, and with those reported as omitted they are all. -/
theorem cap_rows_reported (nodup : events.Nodup) (cap : ℕ) :
    (capRows mech sev events cap).1.Sublist events ∧
      (∀ e ∈ events, isStrong sev e = true → e ∈ (capRows mech sev events cap).1) ∧
      ∀ m, (chosen sev cap (ofMech mech events m)).Nodup ∧
        (ofMech mech (capRows mech sev events cap).1 m).length =
          max (min (ofMech mech events m).length cap)
            ((ofMech mech events m).filter (isStrong sev ·)).length ∧
        (ofMech mech (capRows mech sev events cap).1 m).length +
          ((capRows mech sev events cap).2 m).getD 0 = (ofMech mech events m).length := by
  refine ⟨filter_sublist, fun e mem strong => ?_, fun m => ?_⟩
  · refine (mem_capRows nodup).mpr ((chosen_spec (nodup.filter _)).2.2.1 ?_)
    exact mem_filter.mpr ⟨mem_filter.mpr ⟨mem, decide_eq_true rfl⟩, strong⟩
  obtain ⟨subset, once, -, length⟩ : _ ∧ (chosen sev cap (ofMech mech events m)).Nodup ∧ _ :=
    chosen_spec (nodup.filter _)
  have kept : (ofMech mech (capRows mech sev events cap).1 m).length =
      (chosen sev cap (ofMech mech events m)).length := by
    refine List.Perm.length_eq ((perm_ext_iff_of_nodup
      ((nodup.filter _).filter _) once).mpr fun e => ?_)
    refine mem_filter.trans ⟨fun ⟨mem, same⟩ => ?_, fun mem => ?_⟩
    · obtain rfl := of_decide_eq_true same
      exact (mem_capRows nodup).mp mem
    have same : mech e = m := of_decide_eq_true (mem_filter.mp (subset mem)).2
    refine ⟨(mem_capRows nodup).mpr ?_, decide_eq_true same⟩
    rw [same]
    exact mem
  refine ⟨once, kept.trans length, ?_⟩
  rw [kept]
  unfold capRows
  dsimp only
  split_ifs with few
  · rw [chosen, if_pos few]
    exact Int.add_zero _
  · rw [Option.getD_some]
    omega

/-- Of six weak rows and a strong one, two weak ones are kept beside the strong one. -/
theorem cap_rows_reported_seven :
    (capRows (fun _ => "hal") (fun e => if e = 3 then "high" else "low")
      [0, 1, 2, 3, 4, 5, 6] 3).1 =
        [0, 3, 4] ∧
      3 ∈ (capRows (fun _ => "hal") (fun e => if e = 3 then "high" else "low")
        [0, 1, 2, 3, 4, 5, 6] 3).1 :=
  ⟨by decide +kernel, (cap_rows_reported (by decide) 3).2.1 3 (by decide) (by decide)⟩

end Strimserver.StreamMode
