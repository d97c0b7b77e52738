import Strimserver.Library.Machine
import Mathlib.Data.List.Nodup

/-!
# The private known_hosts store

The deploy scripts keep two files: the keys that ssh has accepted, and a map that says which
instance each host was last bound to. Addresses are reused, so a key must go as soon as its
host is bound to another instance. Scripts run concurrently; each operation holds the lock of
the map, and so a history of any number of scripts is one list of operations. Between them
ssh adds a key for a host the map binds, and the key is the bound instance's own.

`presentedBy` is not in the file. It is what the result is about: which instance had the key.
-/

namespace Strimserver.Deploy

open Library List

/-- The text of a file. -/
abbrev Text := List Char

/-! ## The map file -/

/-- The characters at which Python's `str.split` splits. -/
def isSpace (c : Char) : Bool :=
  let n := c.toNat
  0x09 ≤ n && n ≤ 0x0d || 0x1c ≤ n && n ≤ 0x20 || n = 0x85 || n = 0xa0 || n = 0x1680 ||
    0x2000 ≤ n && n ≤ 0x200a || n = 0x2028 || n = 0x2029 || n = 0x202f || n = 0x205f || n = 0x3000

/-- The fields of a line, where there are exactly two. -/
def readRow (line : Text) : Option (Text × Text) :=
  match (line.splitOnP isSpace).filter (· ≠ []) with
  | [host, instanceId] => some (host, instanceId)
  | _ => none

/-- `_read_map`. The file is opened in text mode, where each of `\n`, `\r` and the two
together ends a line; the empty line that splitting the last of these leaves has no fields. -/
def readMap : Option Text → List (Text × Text)
  | none => []
  | some text => (text.splitOnP fun c => c = '\n' ∨ c = '\r').filterMap readRow

/-- `_write_map_atomic`: the text that replaces the file. -/
def writeMap (rows : List (Text × Text)) : Text :=
  rows.flatMap fun (host, instanceId) => host ++ ' ' :: instanceId ++ ['\n']

/-- A field that the map can hold. -/
def Plain (text : Text) : Prop := text ≠ [] ∧ ∀ c ∈ text, isSpace c = false

theorem readMap_writeMap {rows : List (Text × Text)}
    (plain : ∀ row ∈ rows, Plain row.1 ∧ Plain row.2) : readMap (some (writeMap rows)) = rows := by
  induction rows with
  | nil => rfl
  | cons row rows ih =>
    obtain ⟨⟨⟨hostSome, host⟩, idSome, id⟩, rest⟩ := forall_mem_cons.1 plain
    have whole {c : Char} (inside : isSpace c = false) : ¬ (c = '\n' ∨ c = '\r') := by
      rintro (rfl | rfl) <;> cases inside
    have unbroken : ∀ c ∈ row.1 ++ ' ' :: row.2, decide (c = '\n' ∨ c = '\r') = false := by
      intro c mem
      rcases mem_append.1 mem with mem | mem
      · exact decide_eq_false (whole (host c mem))
      · rcases mem_cons.1 mem with rfl | mem
        · rfl
        · exact decide_eq_false (whole (id c mem))
    have fields : readRow (row.1 ++ ' ' :: row.2) = some row := by
      simp [readRow, splitOnP_append_cons_of_forall_mem host ' ' rfl, splitOnP_eq_singleton id,
        hostSome, idSome]
    have head : writeMap (row :: rows) = (row.1 ++ ' ' :: row.2) ++ '\n' :: writeMap rows := by
      simp [writeMap]
    rw [head, readMap, splitOnP_append_cons_of_forall_mem unbroken '\n' rfl,
      filterMap_cons_some fields]
    exact congrArg _ (ih rest)

/-! ## The operations -/

/-- A line of `known_hosts`, with who showed the key. -/
structure Key where
  host : Text
  presentedBy : Text
deriving DecidableEq

/-- The two files of the store. -/
structure Store where
  map : Option Text
  keys : List Key
deriving DecidableEq

/-- `_forget_host_unlocked`: `ssh-keygen -R host`. -/
def forgetHostUnlocked (keys : List Key) (host : Text) : List Key :=
  if host = [] then keys else keys.filter fun key => key.host ≠ host

/-- `forget_host`. -/
def forgetHost (host : Text) (s : Store) : Store :=
  if host = [] then s else { s with keys := forgetHostUnlocked s.keys host }

/-- The hosts that the rows bind to an instance. -/
def hostsOf (rows : List (Text × Text)) (instanceId : Text) : List Text :=
  (rows.filter fun row => row.2 = instanceId).map Prod.fst

/-- `bind_host_instance`. -/
def bindHostInstance (host instanceId : Text) (s : Store) : Store :=
  if host = [] ∨ instanceId = [] then s
  else
    let rows := readMap s.map
    let recorded := ((rows.find? fun row => row.1 = host).map Prod.snd).getD []
    let stale := recorded ≠ [] ∧ recorded ≠ instanceId
    let keys := if stale then (hostsOf rows recorded).foldl forgetHostUnlocked s.keys else s.keys
    let rows := if stale then rows.filter fun row => row.2 ≠ recorded else rows
    { map := some (writeMap ((rows.filter fun row => row.1 ≠ host) ++ [(host, instanceId)])), keys }

/-- `forget_instance`. -/
def forgetInstance (instanceId : Text) (s : Store) : Store :=
  if instanceId = [] ∨ s.map = none then s
  else
    let rows := readMap s.map
    { map := some (writeMap (rows.filter fun row => row.2 ≠ instanceId)),
      keys := (hostsOf rows instanceId).foldl forgetHostUnlocked s.keys }

/-! ## Histories -/

/-- What the scripts do with the store. -/
inductive Op where
  | bind (host instanceId : Text)
  | forgetHost (host : Text)
  | forgetInstance (instanceId : Text)
  | connect (host instanceId : Text)

/-- The arguments of an operation. -/
def Op.texts : Op → List Text
  | .bind host instanceId | .connect host instanceId => [host, instanceId]
  | .forgetHost text | .forgetInstance text => [text]

/-- What an operation does; ssh connects only to a host that the map binds, and then to the
instance the row names. -/
def Op.apply (s : Store) : Op → Option Store
  | .bind host instanceId => some (bindHostInstance host instanceId s)
  | .forgetHost host => some (Deploy.forgetHost host s)
  | .forgetInstance instanceId => some (Deploy.forgetInstance instanceId s)
  | .connect host instanceId =>
    if (host, instanceId) ∈ readMap s.map then
      some { s with keys := ⟨host, instanceId⟩ :: s.keys }
    else none

/-- The store under operations whose arguments have no whitespace, from no files at all. -/
def store : Machine Store Op where
  initial s := s = ⟨none, []⟩
  step s op := if op.texts.all fun text => text.all (! isSpace ·) then op.apply s else none

/-- The rows are ones the file can hold, no host has two, and each key is its host's
instance's. -/
structure Inv (rows : List (Text × Text)) (keys : List Key) : Prop where
  plain : ∀ row ∈ rows, Plain row.1 ∧ Plain row.2
  nodup : (rows.map Prod.fst).Nodup
  bound : ∀ key ∈ keys, (key.host, key.presentedBy) ∈ rows

namespace Inv

variable {rows : List (Text × Text)} {keys : List Key} (inv : Inv rows keys)
include inv

/-- A host's first row is its only one. -/
theorem recorded {host instanceId : Text} (mem : (host, instanceId) ∈ rows) :
    ((rows.find? fun row => row.1 = host).map Prod.snd).getD [] = instanceId := by
  cases found : rows.find? fun row => row.1 = host with
  | none => simpa using List.find?_eq_none.1 found _ mem
  | some row =>
    have same : row = (host, instanceId) :=
      inj_on_of_nodup_map inv.nodup (List.mem_of_find?_eq_some found) mem
        (by simpa using List.find?_some found)
    simp [same]

/-- A key that outlives the forgetting of some hosts is not of one of them. -/
theorem of_forgotten {key : Key} :
    ∀ {hosts : List Text}, key ∈ hosts.foldl forgetHostUnlocked keys →
      (key.host, key.presentedBy) ∈ rows ∧ key.host ∉ hosts := by
  intro hosts mem
  suffices key ∈ keys ∧ (key.host ≠ [] → key.host ∉ hosts) from
    ⟨inv.bound _ this.1, this.2 (inv.plain _ (inv.bound _ this.1)).1.1⟩
  clear inv
  induction hosts generalizing keys with
  | nil => exact ⟨mem, fun _ => not_mem_nil⟩
  | cons host hosts ih => grind [forgetHostUnlocked]

/-- The rows of an instance go together with the keys of its hosts. -/
theorem forget (instanceId : Text) : Inv (rows.filter fun row => row.2 ≠ instanceId)
      ((hostsOf rows instanceId).foldl forgetHostUnlocked keys) where
  plain row mem := inv.plain row (mem_of_mem_filter mem)
  nodup := inv.nodup.sublist (filter_sublist.map _)
  bound key mem := by
    obtain ⟨row, gone⟩ := inv.of_forgotten mem
    refine mem_filter.2 ⟨row, decide_eq_true ?_⟩
    rintro rfl
    exact gone (by simpa [hostsOf] using row)

/-- A host gets its new row when the keys it still has are the new instance's. -/
theorem bind {host instanceId : Text} (plain : Plain host ∧ Plain instanceId)
    (own : ∀ key ∈ keys, key.host = host → key.presentedBy = instanceId) :
    Inv ((rows.filter fun row => row.1 ≠ host) ++ [(host, instanceId)]) keys where
  plain row mem := by
    rcases mem_append.1 mem with mem | mem
    · exact inv.plain row (mem_of_mem_filter mem)
    · rwa [mem_singleton.1 mem]
  nodup := by
    rw [map_append, nodup_append]
    exact ⟨inv.nodup.sublist (filter_sublist.map _), nodup_singleton _, by grind⟩
  bound key mem := by
    have row := inv.bound key mem
    grind

end Inv

theorem Inv.step {s s' : Store} {op : Op} (step : store.step s op = some s')
    (inv : Inv (readMap s.map) s.keys) : Inv (readMap s'.map) s'.keys := by
  obtain ⟨solid, applied⟩ := Option.ite_none_right_eq_some.1 step
  simp only [all_eq_true, Bool.not_eq_true'] at solid
  cases op with
  | bind host instanceId =>
    obtain rfl := Option.some.inj applied
    rw [bindHostInstance]
    split_ifs with empty
    · exact inv
    rw [not_or] at empty
    have plain : Plain host ∧ Plain instanceId :=
      ⟨⟨empty.1, solid _ (by simp [Op.texts])⟩, empty.2, solid _ (by simp [Op.texts])⟩
    generalize readMap s.map = rows at inv ⊢
    extract_lets _ recorded stale keys' rows'
    have bound : Inv ((rows'.filter fun row => row.1 ≠ host) ++ [(host, instanceId)]) keys' := by
      by_cases old : stale
      · -- every key of the host was the recorded instance's, and has gone with it
        rw [show rows' = _ from if_pos old, show keys' = _ from if_pos old]
        refine (inv.forget recorded).bind plain fun key mem same => ?_
        obtain ⟨row, gone⟩ := inv.of_forgotten mem
        subst same
        have : recorded = key.presentedBy := inv.recorded row
        exact absurd (by simpa [hostsOf, this] using row) gone
      rw [show rows' = _ from if_neg old, show keys' = _ from if_neg old]
      refine inv.bind plain fun key mem same => ?_
      subst same
      have row := inv.bound key mem
      have : recorded = key.presentedBy := inv.recorded row
      grind [(inv.plain _ row).2.1]
    rwa [← readMap_writeMap bound.plain] at bound
  | forgetHost host =>
    obtain rfl := Option.some.inj applied
    rw [Deploy.forgetHost, forgetHostUnlocked]
    split_ifs
    · exact inv
    · exact ⟨inv.plain, inv.nodup, fun key mem => inv.bound key (mem_of_mem_filter mem)⟩
  | forgetInstance instanceId =>
    obtain rfl := Option.some.inj applied
    rw [Deploy.forgetInstance]
    split_ifs
    · exact inv
    · have kept := inv.forget instanceId
      rwa [← readMap_writeMap kept.plain] at kept
  | connect host instanceId =>
    obtain ⟨row, added⟩ := Option.ite_none_right_eq_some.1 applied
    obtain rfl := Option.some.inj added
    exact ⟨inv.plain, inv.nodup, forall_mem_cons.2 ⟨row, inv.bound⟩⟩

/-- **Known hosts**: whatever the scripts did, in any order, a host has at most one row, each key of
a host was presented by the instance its row names, and a host without a row has no key. -/
theorem known_hosts_current {s : Store} (reachable : store.Reachable s) :
    ((readMap s.map).map Prod.fst).Nodup ∧
      (∀ key ∈ s.keys, ∀ instanceId, (key.host, instanceId) ∈ readMap s.map →
        key.presentedBy = instanceId) ∧
      ∀ host, (∀ instanceId, (host, instanceId) ∉ readMap s.map) →
        ∀ key ∈ s.keys, key.host ≠ host := by
  have inv : Inv (readMap s.map) s.keys := by
    refine reachable.induct (P := fun s => Inv (readMap s.map) s.keys) ?_
      fun _ _ _ _ step inv => inv.step step
    rintro _ rfl
    exact ⟨by simp [readMap], by simp [readMap], by simp⟩
  refine ⟨inv.nodup, fun key mem instanceId row => ?_, fun host none key mem same => ?_⟩
  · rw [← inv.recorded (inv.bound key mem), inv.recorded row]
  · exact none _ (same ▸ inv.bound key mem)

/-- An address used by a second instance: the first one's key is gone, and so is the key of
its other name. -/
theorem known_hosts_current_reused :
    ∃ s, store.exec ⟨none, []⟩ [.bind ['h'] ['i'], .bind ['g'] ['i'], .connect ['h'] ['i'],
        .connect ['g'] ['i'], .bind ['h'] ['j'], .connect ['h'] ['j']] = some s ∧
      s.keys = [⟨['h'], ['j']⟩] ∧
      ∀ host, (∀ instanceId, (host, instanceId) ∉ readMap s.map) →
        ∀ key ∈ s.keys, key.host ≠ host :=
  have run : store.exec ⟨none, []⟩ [.bind ['h'] ['i'], .bind ['g'] ['i'], .connect ['h'] ['i'],
      .connect ['g'] ['i'], .bind ['h'] ['j'], .connect ['h'] ['j']] =
        some ⟨some ['h', ' ', 'j', '\n'], [⟨['h'], ['j']⟩]⟩ := by decide +kernel
  ⟨_, run, rfl, (known_hosts_current ⟨_, rfl, _, run⟩).2.2⟩

end Strimserver.Deploy
