import Strimserver.Library.Machine
import Mathlib.Algebra.Group.Nat.Defs

/-!
# The cache of upstream versions

`cache.go` of check-deps, with `peek` and `commit` of `resolve.go`. A run loads the answers of
earlier runs from a file, fetches what is missing, and saves the file again when it has changed
something.

The file expires as a whole, by the time of its last save. A run that has fetched one dependency
saves the entries of all others with it, under its own time, so that an entry can be served long
after the time for which it should be kept. `served_fresh` says that this does not happen when a run
saves only what was fetched shortly before, and none begins when the file is about to expire.

The clock goes on at any point: it is read when the file is loaded, by each fetch, and when the file
is saved. The workers of a run handle different keys, and their jobs come one after another, in any
order. -/

namespace Strimserver.Deps

open Library List Option

/-- The identity of a dependency. -/
structure DepKey where
  (category name source version file : List UInt8)
deriving DecidableEq

def DepKey.fields (k : DepKey) : List (List UInt8) :=
  [k.category, k.name, k.source, k.version, k.file]

/-- The key in the file. -/
def DepKey.string (k : DepKey) : List UInt8 := [0x1F].intercalate k.fields

/-- The separator is in none of the fields. -/
abbrev DepKey.Plain (k : DepKey) : Prop := ∀ field ∈ k.fields, 0x1F ∉ field

theorem DepKey.string_inj {k k' : DepKey} (plain : k.Plain) (plain' : k'.Plain)
    (same : k.string = k'.string) : k = k' := by
  have fields := congrArg (List.splitOn 0x1F) same
  rw [string, string, splitOn_intercalate 0x1F plain (cons_ne_nil _ _),
    splitOn_intercalate 0x1F plain' (cons_ne_nil _ _)] at fields
  cases k
  cases k'
  simpa [DepKey.fields] using fields

/-- `cacheEntry`. -/
structure CacheEntry where
  version : List UInt8
  date : List UInt8
  infos : List (List UInt8)
  metadata : List (List UInt8 × List UInt8)
deriving DecidableEq

/-- What a resolver returns. -/
structure VersionInfo extends CacheEntry where
  err : Option (List UInt8)

/-- A map, as the list of its pairs. -/
abbrev Entries := List (List UInt8 × CacheEntry)

/-- `cacheFile`. -/
structure CacheFile where
  written : ℕ
  entries : Entries

/-- The longest `time.Duration`. -/
def maxDuration : ℕ := 2 ^ 63 - 1

/-- `Time.Sub` of a later time, in nanoseconds. It saturates. -/
def sub (t u : ℕ) : ℕ := min (t - u) maxDuration

/-- `Cache.Load`, from a file that can be read, if there is one. -/
def load (ttl now : ℕ) : Option CacheFile → Entries
  | none => []
  | some f => if sub now f.written > ttl then [] else f.entries

/-- The resolver of a dependency, if one matches. -/
inductive Resolver where
  | none
  | noop
  | network
deriving DecidableEq

/-- `cacheGuard`. -/
structure Guard where
  changed : Bool
  entries : Entries

/-- How `peek` answers. -/
inductive Peek where
  /-- Answered without the cache. -/
  | direct
  | cached (entry : CacheEntry)
  | miss
deriving DecidableEq

/-- `peek`. -/
def Guard.peek (g : Guard) (e : Resolver) (dep : DepKey) (fresh : Bool) : Peek :=
  match e with
  | .none | .noop => .direct
  | .network =>
    if fresh then .miss
    else match g.entries.lookup dep.string with
      | some entry => .cached entry
      | .none => .miss

/-- `commit`. -/
def Guard.commit (g : Guard) (dep : DepKey) (vi : VersionInfo) (fresh : Bool) : Guard :=
  let others := g.entries.filter fun p => p.1 ≠ dep.string
  if vi.err = none then ⟨true, (dep.string, vi.toCacheEntry) :: others⟩
  else if fresh ∧ (g.entries.lookup dep.string).isSome then ⟨true, others⟩
  else g

/-! ## Runs one after another -/

/-- A run, with the time at which it has loaded the file. -/
structure Run where
  started : ℕ
  fresh : Bool
  offline : Bool
  guard : Guard

/-- How a run answers a dependency. Offline it skips what would need the network. -/
def Run.answer (r : Run) (e : Resolver) (dep : DepKey) : Peek :=
  if r.offline ∧ e = .network then .direct else r.guard.peek e dep r.fresh

/-- A fetch that succeeded. -/
structure Fetch where
  time : ℕ
  dep : DepKey
  entry : CacheEntry

/-- The file over several runs. -/
structure Sys where
  clock : ℕ
  file : Option CacheFile
  run : Option Run
  fetches : List Fetch

/-- What happens: the clock goes on, or a run does something. -/
inductive Label where
  | tick (now : ℕ)
  | start (readable fresh offline : Bool)
  /-- A job, with what a fetch returns. -/
  | job (e : Resolver) (dep : DepKey) (vi : VersionInfo)
  /-- The end of a run, where the file may not be writable. -/
  | finish (writable : Bool)

/-- A step of the runs. -/
def step (ttl : ℕ) (s : Sys) : Label → Option Sys
  | .tick now => if s.clock ≤ now then some { s with clock := now } else none
  | .start readable fresh offline =>
    if s.run.isNone then
      let entries := load ttl s.clock (if readable then s.file else none)
      some { s with run := some ⟨s.clock, fresh, offline, false, entries⟩ }
    else none
  | .job e dep vi =>
    s.run.map fun r =>
      match r.answer e dep with
      | .miss =>
        { s with
          run := some { r with guard := r.guard.commit dep vi r.fresh }
          fetches := (if vi.err = none then [⟨s.clock, dep, vi.toCacheEntry⟩] else []) ++
            s.fetches }
      | _ => s
  | .finish writable =>
    s.run.map fun r =>
      { s with
        run := none
        file := if r.guard.changed ∧ writable then some ⟨s.clock, r.guard.entries⟩ else s.file }

def caching (ttl : ℕ) : Machine Sys Label where
  initial s := s = ⟨0, none, none, []⟩
  step := step ttl

/-! ## Fresh answers -/

/-- Every entry was fetched, at a time that is right. -/
abbrev Backed (fetches : List Fetch) (right : ℕ → Prop) (entries : Entries) : Prop :=
  ∀ p ∈ entries, ∃ f ∈ fetches, right f.time ∧ f.dep.string = p.1 ∧ f.entry = p.2

/-- What a run saves was fetched no longer than `lag` before, no run loads a file in the last `lag`
of its time, and the separator is in no field. -/
def Renewing (ttl lag : ℕ) (s : Sys) : Label → Prop
  | .tick _ => True
  | .start .. => ∀ f ∈ s.file, s.clock ≤ f.written + ttl → s.clock + lag ≤ f.written + ttl
  | .job _ dep _ => dep.Plain
  | .finish _ => ∀ r ∈ s.run, r.guard.changed = true →
    Backed s.fetches (s.clock ≤ · + lag) r.guard.entries

instance decidableRenewing (ttl lag : ℕ) (s : Sys) : (l : Label) → Decidable (Renewing ttl lag s l)
  | .tick _ => .isTrue trivial
  | .start .. => inferInstanceAs (Decidable (∀ _ ∈ _, _ → _))
  | .job _ dep _ => inferInstanceAs (Decidable dep.Plain)
  | .finish _ => inferInstanceAs (Decidable (∀ _ ∈ _, _ → _))

/-- What is in the file was fetched shortly before it was written, and what a run has is no older
than it may be when the run begins. -/
structure Inv (ttl lag : ℕ) (s : Sys) : Prop where
  file : ∀ f ∈ s.file, Backed s.fetches (f.written ≤ · + lag) f.entries
  run : ∀ r ∈ s.run, r.started ≤ s.clock ∧ Backed s.fetches (r.started ≤ · + ttl) r.guard.entries
  plain : ∀ f ∈ s.fetches, f.dep.Plain

variable {fetches fetches' : List Fetch} {right right' : ℕ → Prop} {entries : Entries}

theorem Backed.mono (backed : Backed fetches right entries) (more : fetches ⊆ fetches')
    (weaker : ∀ t, right t → right' t) : Backed fetches' right' entries := by
  intro p mem
  obtain ⟨f, fetched, time, own⟩ := backed p mem
  exact ⟨f, more fetched, weaker _ time, own⟩

theorem Backed.commit {g : Guard} {dep : DepKey} {vi : VersionInfo} {fresh : Bool} {now : ℕ}
    (backed : Backed fetches right g.entries) (soon : right now) :
    Backed ((if vi.err = none then [⟨now, dep, vi.toCacheEntry⟩] else []) ++ fetches) right
      (g.commit dep vi fresh).entries := by
  have others : Backed fetches right (g.entries.filter fun p => p.1 ≠ dep.string) :=
    fun p mem => backed p (mem_filter.mp mem).1
  unfold Guard.commit
  split_ifs
  · intro p mem
    rcases mem_cons.mp mem with rfl | mem
    · exact ⟨_, mem_cons_self, soon, rfl, rfl⟩
    · exact others.mono (subset_cons_self _ _) (fun _ => id) p mem
  · exact others
  · exact backed

variable {ttl lag : ℕ} {s s' : Sys}

theorem Backed.load (short : ttl < maxDuration) (now : ℕ) {file : Option CacheFile}
    (backed : ∀ f ∈ file, Backed fetches (f.written ≤ · + lag) f.entries)
    (early : ∀ f ∈ file, now ≤ f.written + ttl → now + lag ≤ f.written + ttl) :
    Backed fetches (now ≤ · + ttl) (load ttl now file) := by
  cases file with
  | none => exact nofun
  | some f =>
    rw [Deps.load]
    split_ifs with expired
    · exact nofun
    have early := early f rfl
    refine (backed f rfl).mono (List.Subset.refl _) fun t written => ?_
    unfold sub at expired
    omega

theorem Inv.step (short : ttl < maxDuration) (inv : Inv ttl lag s) {l : Label}
    (renewing : Renewing ttl lag s l) (step : step ttl s l = some s') : Inv ttl lag s' := by
  cases l with
  | tick now =>
    obtain ⟨later, rfl⟩ := (ite_none_right_eq_some.mp step).imp_right Option.some.inj
    exact ⟨inv.file, fun r mem => (inv.run r mem).imp_left (Nat.le_trans · later), inv.plain⟩
  | start readable fresh offline =>
    obtain ⟨-, rfl⟩ := (ite_none_right_eq_some.mp step).imp_right Option.some.inj
    refine ⟨inv.file, fun r mem => ?_, inv.plain⟩
    cases mem
    cases readable with
    | true => exact ⟨Nat.le_refl _, .load short s.clock inv.file renewing⟩
    | false => exact ⟨Nat.le_refl _, nofun⟩
  | job e dep vi =>
    obtain ⟨r, running, rfl⟩ := map_eq_some_iff.mp step
    split
    · refine ⟨fun f mem => (inv.file f mem).mono (subset_append_right _ _) fun _ => id,
        fun r' mem => ?_, fun f mem => ?_⟩
      · cases mem
        obtain ⟨began, backed⟩ := inv.run r running
        exact ⟨began, backed.commit (Nat.le_add_right_of_le began)⟩
      rcases mem_append.mp mem with new | old
      · split_ifs at new
        · cases mem_singleton.mp new
          exact renewing
        · cases new
      · exact inv.plain f old
    · exact inv
  | finish writable =>
    obtain ⟨r, running, rfl⟩ := map_eq_some_iff.mp step
    refine ⟨fun f mem => ?_, nofun, inv.plain⟩
    split_ifs at mem with saved
    · cases mem
      exact renewing r running saved.1
    · exact inv.file f mem

/-- **What the cache serves is fresh** when a run begins: it was fetched no longer than the time to
live before, as long as what is saved was fetched at most some `lag` before, no run loads a file in
the last `lag` of its time, and the separator is in no field. -/
theorem served_fresh (short : ttl < maxDuration)
    (reachable : ((caching ttl).restrict (Renewing ttl lag)).Reachable s) {r : Run}
    (running : s.run = some r) {e : Resolver} {dep : DepKey} (plain : dep.Plain)
    {entry : CacheEntry} (served : r.answer e dep = .cached entry) :
    ∃ f ∈ s.fetches, f.dep = dep ∧ f.entry = entry ∧ r.started ≤ f.time + ttl := by
  have inv : Inv ttl lag s := by
    refine reachable.induct (P := Inv ttl lag) (fun s first => ?_) fun a l b _ step inv => ?_
    · cases first
      exact ⟨nofun, nofun, nofun⟩
    · obtain ⟨renewing, step⟩ := Machine.restrict_step.mp step
      exact inv.step short renewing step
  have hit : (dep.string, entry) ∈ r.guard.entries := by
    unfold Run.answer Guard.peek at served
    repeat' split at served
    all_goals cases served
    rename_i found
    obtain ⟨before, behind, split, -⟩ := lookup_eq_some_iff.mp found
    rw [split]
    simp
  obtain ⟨f, fetched, time, key, own⟩ := (inv.run r running).2 _ hit
  exact ⟨f, fetched, DepKey.string_inj (inv.plain f fetched) plain key, own, time⟩

/-- A second, in nanoseconds. -/
def second : ℕ := 10 ^ 9

/-- A day. -/
def day : ℕ := 24 * 3600 * second

/-- A dependency. -/
def curl : DepKey := ⟨[1], [2], [3], [4], [5]⟩

/-- Another dependency. -/
def qemu : DepKey := ⟨[1], [6], [3], [4], [5]⟩

/-- What is fetched for them. -/
def found : VersionInfo := ⟨⟨[7], [], [], []⟩, none⟩

/-- A run from some time on that needs some dependencies: it fetches after a second what it does not
have, and saves nine seconds later. -/
def needs (now : ℕ) (deps : List DepKey) : List Label :=
  [.tick now, .start true false false, .tick (now + second)] ++
    deps.map (.job .network · found) ++ [.tick (now + 10 * second), .finish true]

/-- A run that fetches a dependency, and one that begins a day after it. -/
theorem served_fresh_next_day :
    ∃ s r, ((caching day).restrict (Renewing day (9 * second))).Reachable s ∧ s.run = some r ∧
      r.answer .network curl = .cached found.toCacheEntry ∧
      ∃ f ∈ s.fetches, f.dep = curl ∧ f.entry = found.toCacheEntry ∧ r.started ≤ f.time + day := by
  have run : (((caching day).restrict (Renewing day (9 * second))).exec ⟨0, none, none, []⟩
      (needs 0 [curl] ++ [.tick day, .start true false false])).any (fun s =>
        s.run.any fun r => decide (r.answer .network curl = .cached found.toCacheEntry)) =
          true := by
    decide +kernel
  obtain ⟨s, reachable, facts⟩ := Machine.Reachable.of_any run rfl
  obtain ⟨r, running, served⟩ := (any_eq_true _ _).mp facts
  have served := of_decide_eq_true served
  exact ⟨s, r, reachable, running, served,
    served_fresh (by decide) reachable running (by decide) served⟩

/-- Sixteen hours later another dependency is fetched, and the first one is saved with it. It is
served again thirty-two hours after it was fetched. -/
theorem served_stale :
    ∃ s r, (caching day).Reachable s ∧ s.run = some r ∧
      r.answer .network curl = .cached found.toCacheEntry ∧
      ∀ f ∈ s.fetches, f.dep = curl → f.time + day < r.started := by
  have run : ((caching day).exec ⟨0, none, none, []⟩
      (needs 0 [curl] ++ needs (16 * 3600 * second) [curl, qemu] ++
        [.tick (32 * 3600 * second), .start true false false])).any (fun s =>
          s.run.any fun r => decide (r.answer .network curl = .cached found.toCacheEntry ∧
            ∀ f ∈ s.fetches, f.dep = curl → f.time + day < r.started)) = true := by
    decide +kernel
  obtain ⟨s, reachable, facts⟩ := Machine.Reachable.of_any run rfl
  obtain ⟨r, running, facts⟩ := (any_eq_true _ _).mp facts
  exact ⟨s, r, reachable, running, of_decide_eq_true facts⟩

end Strimserver.Deps
