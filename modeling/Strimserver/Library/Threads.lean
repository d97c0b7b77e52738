import Strimserver.Library.Machine
import Strimserver.Library.Prog

/-!
# Threads that run programs

Any number of threads run programs over a state that they share. A thread has data of its own
besides its program. A step is a call of one thread, which is served at once, or an act of the
environment, which may start a thread. The environment also chooses the replies: a label says
how each call would be answered, and `serve` says which answers are possible and what they do.

`invariant` is the rule for a property of the shared state together with a property of each
thread: each step establishes them for the thread that it moves, and no step disturbs the others.
`limit` keeps the answers that meet a condition.
-/

namespace Strimserver.Library

/-- What acts and calls do: `σ` is shared, `τ` belongs to a thread, and `κ` has the acts of the
environment. -/
structure Threads (E : Type) (R : E → Type) (σ τ κ : Type) where
  act : σ → κ → σ × Option (τ × Prog E R Unit)
  serve : σ → τ → (e : E) → R e → Option (σ × τ)

namespace Threads

variable {E : Type} {R : E → Type} {σ τ κ : Type}

/-- The shared state and the threads. -/
structure Pool (E : Type) (R : E → Type) (σ τ : Type) where
  shared : σ
  threads : List (τ × Prog E R Unit)

/-- A step: an act, or the next call of a thread. -/
inductive Label (E : Type) (R : E → Type) (κ : Type) where
  | act (k : κ)
  | call (i : ℕ) (reply : (e : E) → R e)

/-- The next call of a thread. -/
def advance (T : Threads E R σ τ κ) (s : σ) (reply : (e : E) → R e) :
    τ × Prog E R Unit → Option (σ × (τ × Prog E R Unit))
  | (_, .ret _) => none
  | (t, .call e next) => (T.serve s t e (reply e)).map fun (s', t') => (s', t', next (reply e))

def step (T : Threads E R σ τ κ) (pool : Pool E R σ τ) : Label E R κ → Option (Pool E R σ τ)
  | .act k => some ⟨(T.act pool.shared k).1, pool.threads ++ (T.act pool.shared k).2.toList⟩
  | .call i reply =>
    pool.threads[i]?.bind fun thread =>
      (T.advance pool.shared reply thread).map fun (s', thread') => ⟨s', pool.threads.set i thread'⟩

/-- The machine of the threads, from a shared state and no threads. -/
def machine (T : Threads E R σ τ κ) (start : σ) : Machine (Pool E R σ τ) (Label E R κ) where
  initial pool := pool = ⟨start, []⟩
  step := T.step

/-- The threads with only the answers that meet a condition. -/
def limit (T : Threads E R σ τ κ) (allowed : σ → τ → (e : E) → R e → Bool) : Threads E R σ τ κ where
  act := T.act
  serve s t e r := if allowed s t e r then T.serve s t e r else none

variable {T : Threads E R σ τ κ}

theorem limit_serve {allowed : σ → τ → (e : E) → R e → Bool} {s s' : σ} {t t' : τ} {e : E} {r : R e}
    (served : (T.limit allowed).serve s t e r = some (s', t')) :
    allowed s t e r = true ∧ T.serve s t e r = some (s', t') := by
  unfold limit at served
  dsimp only at served
  split at served
  · rename_i met
    exact ⟨met, served⟩
  · cases served

/-- **The rule for threads.** -/
theorem invariant {start : σ} (Shared : σ → Prop) (Own : σ → τ → Prog E R Unit → Prop)
    (first : Shared start)
    (acts : ∀ s k, Shared s → Shared (T.act s k).1 ∧
      ∀ thread ∈ (T.act s k).2, Own (T.act s k).1 thread.1 thread.2)
    (undisturbed : ∀ s k t p, Shared s → Own s t p → Own (T.act s k).1 t p)
    (serves : ∀ s t e r next s' t', Shared s → Own s t (.call e next) →
      T.serve s t e r = some (s', t') → Shared s' ∧ Own s' t' (next r))
    (others : ∀ s t e r s' t' u p, Shared s → T.serve s t e r = some (s', t') → Own s u p →
      Own s' u p)
    {pool : Pool E R σ τ} (reachable : (T.machine start).Reachable pool) :
    Shared pool.shared ∧ ∀ thread ∈ pool.threads, Own pool.shared thread.1 thread.2 := by
  refine reachable.induct (P := fun pool => Shared pool.shared ∧
    ∀ thread ∈ pool.threads, Own pool.shared thread.1 thread.2) ?_ ?_
  · rintro _ rfl
    exact ⟨first, nofun⟩
  rintro pool label pool' - step ⟨shared, own⟩
  cases label with
  | act k =>
    cases step
    obtain ⟨shared', new⟩ := acts pool.shared k shared
    refine ⟨shared', fun thread mem => ?_⟩
    rcases List.mem_append.mp mem with old | started
    · exact undisturbed _ _ _ _ shared (own thread old)
    · exact new thread (Option.mem_toList.mp started)
  | call =>
    obtain ⟨thread, found, moved⟩ := Option.bind_eq_some_iff.mp step
    obtain ⟨⟨s', thread'⟩, advanced, moved⟩ := Option.map_eq_some_iff.mp moved
    cases moved
    have mine := own thread (List.mem_of_getElem? found)
    obtain ⟨t, _ | ⟨e, next⟩⟩ := thread
    · cases advanced
    obtain ⟨⟨s₁, t₁⟩, served, moved⟩ := Option.map_eq_some_iff.mp advanced
    cases moved
    obtain ⟨shared', moved'⟩ := serves _ _ _ _ _ _ _ shared mine served
    refine ⟨shared', fun other mem => ?_⟩
    rcases List.mem_or_eq_of_mem_set mem with old | rfl
    · exact others _ _ _ _ _ _ _ _ shared served (own other old)
    · exact moved'

end Threads

end Strimserver.Library
