import Mathlib.Data.List.Basic
import Mathlib.Data.Option.Basic

/-!
# Labelled machines and their runs

A machine has initial states and a partial step function: a label is enabled
in a state when the step is defined there, and then there is one next state.
Nondeterminism lives in the choice of the label, so a run is a list of labels
and every interleaving of several threads is one such list.

A property of every reachable state is proved by `Reachable.induct`: it holds
initially and every enabled label preserves it. A property of everything that
can still happen from a state is proved by `Leads.induct`.

`restrict` keeps the steps that meet a guard. The runs of the restricted
machine are the runs all of whose steps meet the guard, so a property that
needs a condition on each step is a property of the reachable states there.

`recording` adds a record of what has happened, for properties that speak about the
past of a state.

`rank_bound` is the progress rule: when the steps of one thread lower a rank
while a request is pending, and no other step raises it, then a run with more
steps of that thread than the rank has answered the request. `length_le_rank` is the rule
for termination: when every step lowers a rank, every run is finite, and it ends in a state
that is stuck.
-/

namespace Strimserver.Library

open Option

universe u v w

/-- A machine over states `σ` and labels `ℓ`. -/
structure Machine (σ : Type u) (ℓ : Type v) where
  initial : σ → Prop
  step : σ → ℓ → Option σ

namespace Machine

variable {σ : Type u} {ℓ : Type v} (M : Machine σ ℓ)

/-- The state reached by taking the labels in order, where all are enabled. -/
def exec : σ → List ℓ → Option σ
  | s, [] => some s
  | s, l :: ls => (M.step s l).bind fun s' => exec s' ls

/-- Some run leads from the first state to the second. -/
def Leads (s s' : σ) : Prop := ∃ ls, M.exec s ls = some s'

/-- Some run leads from an initial state to this one. -/
def Reachable (s : σ) : Prop := ∃ s₀, M.initial s₀ ∧ M.Leads s₀ s

variable {M}

@[simp] theorem exec_nil (s : σ) : M.exec s [] = some s := rfl

theorem exec_cons (s : σ) (l : ℓ) (ls : List ℓ) :
    M.exec s (l :: ls) = (M.step s l).bind fun s' => M.exec s' ls := rfl

variable {l : ℓ} {rank : σ → ℕ}

theorem exec_cons_of_step {s s' : σ} (step : M.step s l = some s') (ls : List ℓ) :
    M.exec s (l :: ls) = M.exec s' ls := by
  rw [exec_cons, step, bind_some]

theorem exec_append (s : σ) (first second : List ℓ) :
    M.exec s (first ++ second) = (M.exec s first).bind fun s' => M.exec s' second := by
  induction first generalizing s with
  | nil => rfl
  | cons l ls ih =>
    rw [List.cons_append, exec_cons, exec_cons, Option.bind_assoc]
    exact congrArg _ (funext fun s' => ih s')

theorem exec_append_of_exec {s s' : σ} {first : List ℓ} (run : M.exec s first = some s')
    (second : List ℓ) : M.exec s (first ++ second) = M.exec s' second := by
  rw [exec_append, run, bind_some]

variable {s t : σ} {ls : List ℓ}

theorem exec_cons_cases (run : M.exec s (l :: ls) = some t) :
    ∃ s', M.step s l = some s' ∧ M.exec s' ls = some t := by
  rwa [exec_cons, bind_eq_some_iff] at run

namespace Leads

theorem refl (s : σ) : M.Leads s s := ⟨[], rfl⟩

theorem trans {u : σ} (first : M.Leads s t) (second : M.Leads t u) : M.Leads s u := by
  obtain ⟨ls, run⟩ := first
  obtain ⟨ls', run'⟩ := second
  exact ⟨ls ++ ls', by rw [exec_append_of_exec run, run']⟩

theorem single {s' : σ} (step : M.step s l = some s') : M.Leads s s' :=
  ⟨[l], by rw [exec_cons_of_step step, exec_nil]⟩

/-- What holds at the start of a run and is preserved by every step holds at
its end. -/
theorem induct {P : σ → Prop} (leads : M.Leads s t) (start : P s)
    (preserved : ∀ a l b, M.step a l = some b → P a → P b) : P t := by
  obtain ⟨ls, run⟩ := leads
  induction ls generalizing s with
  | nil =>
    cases run
    exact start
  | cons l ls ih =>
    obtain ⟨s', step, rest⟩ := exec_cons_cases run
    exact ih (preserved s l s' step start) rest

end Leads

namespace Reachable

theorem initial (h : M.initial s) : M.Reachable s := ⟨s, h, Leads.refl s⟩

theorem leads (reachable : M.Reachable s) (leads : M.Leads s t) : M.Reachable t := by
  obtain ⟨s₀, h, before⟩ := reachable
  exact ⟨s₀, h, before.trans leads⟩

theorem step {s' : σ} (reachable : M.Reachable s) (step : M.step s l = some s') : M.Reachable s' :=
  reachable.leads (.single step)

/-- A run that can be carried out, for a fact about its end. -/
theorem of_any {p : σ → Bool} (run : (M.exec s ls).any p = true) (first : M.initial s) :
    ∃ t, M.Reachable t ∧ p t = true := by
  obtain ⟨t, reached, fact⟩ := (any_eq_true _ _).mp run
  exact ⟨t, ⟨s, first, ls, reached⟩, fact⟩

/-- **The invariant rule.** What holds initially and is preserved by every step
from a reachable state holds in every reachable state. -/
theorem induct {P : σ → Prop} (reachable : M.Reachable s) (start : ∀ s₀, M.initial s₀ → P s₀)
    (preserved : ∀ a l b, M.Reachable a → M.step a l = some b → P a → P b) : P s := by
  obtain ⟨s₀, h, before⟩ := reachable
  have both : M.Reachable s ∧ P s :=
    before.induct (P := fun a => M.Reachable a ∧ P a) ⟨.initial h, start s₀ h⟩
      fun a l b step ⟨reach, holds⟩ => ⟨reach.step step, preserved a l b reach step holds⟩
  exact both.2

end Reachable

/-! ## Runs whose steps meet a guard -/

/-- The machine with only the steps that meet a guard. -/
def restrict (M : Machine σ ℓ) (guard : σ → ℓ → Prop) [∀ s l, Decidable (guard s l)] :
    Machine σ ℓ where
  initial := M.initial
  step s l := if guard s l then M.step s l else none

variable {guard : σ → ℓ → Prop}

theorem restrict_step [∀ s l, Decidable (guard s l)] {s' : σ} :
    (M.restrict guard).step s l = some s' ↔ guard s l ∧ M.step s l = some s' := by
  show (if guard s l then M.step s l else none) = some s' ↔ _
  split <;> simp [*]

theorem exec_of_restrict [∀ s l, Decidable (guard s l)]
    (run : (M.restrict guard).exec s ls = some t) : M.exec s ls = some t := by
  induction ls generalizing s with
  | nil => exact run
  | cons l ls ih =>
    obtain ⟨mid, step, rest⟩ := exec_cons_cases run
    rw [exec_cons_of_step (restrict_step.mp step).2]
    exact ih rest

theorem Reachable.of_restrict [∀ s l, Decidable (guard s l)]
    (reachable : (M.restrict guard).Reachable s) : M.Reachable s := by
  obtain ⟨s₀, h, ls, run⟩ := reachable
  exact ⟨s₀, h, ls, exec_of_restrict run⟩

/-- A run that meets a guard meets every weaker one. -/
theorem Reachable.restrict_mono {guard' : σ → ℓ → Prop} [∀ s l, Decidable (guard s l)]
    [∀ s l, Decidable (guard' s l)] (weaker : ∀ s l, guard s l → guard' s l)
    (reachable : (M.restrict guard).Reachable s) : (M.restrict guard').Reachable s :=
  reachable.induct (P := fun s => (M.restrict guard').Reachable s) (fun _ first => .initial first)
    fun _ _ _ _ step before => by
      obtain ⟨met, step⟩ := restrict_step.mp step
      exact before.step (restrict_step.mpr ⟨weaker _ _ met, step⟩)

/-! ## Records of a run -/

/-- A state with a record of what has happened so far. -/
structure Recorded (σ : Type u) (γ : Type w) where
  state : σ
  record : γ

/-- The machine with a record. A step adds to the record what it does, and does not
look at it. -/
def recording {γ : Type w} (M : Machine σ ℓ) (start : γ) (add : γ → σ → ℓ → σ → γ) :
    Machine (Recorded σ γ) ℓ where
  initial r := M.initial r.state ∧ r.record = start
  step r l := (M.step r.state l).map fun s => ⟨s, add r.record r.state l s⟩

section

variable {γ : Type w} {start : γ} {add : γ → σ → ℓ → σ → γ} {r r' : Recorded σ γ} {l : ℓ}

theorem recording_step : (M.recording start add).step r l = some r' ↔
      M.step r.state l = some r'.state ∧ r'.record = add r.record r.state l r'.state := by
  show ((M.step r.state l).map fun s => (⟨s, add r.record r.state l s⟩ : Recorded σ γ)) = some r' ↔
    _
  rw [map_eq_some_iff]
  constructor
  · rintro ⟨s, step, rfl⟩
    exact ⟨step, rfl⟩
  rintro ⟨step, record⟩
  obtain ⟨s', g'⟩ := r'
  exact ⟨s', step, congrArg (Recorded.mk s') record.symm⟩

theorem Reachable.of_recording (reachable : (M.recording start add).Reachable r) :
    M.Reachable r.state :=
  reachable.induct (P := fun r => M.Reachable r.state) (fun _ first => .initial first.1)
    fun _ _ _ _ step before => before.step (recording_step.mp step).1

/-- What holds at the start, and is kept by every step that meets a guard, holds of the states and
their records. -/
theorem Reachable.recording_induct {guard : Recorded σ γ → ℓ → Prop}
    [∀ r l, Decidable (guard r l)] {P : σ → γ → Prop}
    (reachable : ((M.recording start add).restrict guard).Reachable r)
    (initial : ∀ s, M.initial s → P s start)
    (step : ∀ s g l s', M.Reachable s → guard ⟨s, g⟩ l → M.step s l = some s' → P s g →
      P s' (add g s l s')) : P r.state r.record := by
  refine reachable.induct (P := fun r => P r.state r.record) (fun r first => ?_) ?_
  · exact first.2 ▸ initial r.state first.1
  intro r l r' before step' holds
  obtain ⟨met, step'⟩ := restrict_step.mp step'
  obtain ⟨step', record⟩ := recording_step.mp step'
  exact record ▸ step _ _ _ _ before.of_restrict.of_recording met step' holds

end

/-! ## Progress by a rank -/

/-- **The progress rule.** While a request is pending, a step of the serving thread lowers the rank
and no other step raises it. A run with more serving steps than the rank of its first state has
answered the request on the way. -/
theorem rank_bound {pending : σ → Prop} {own : ℓ → Bool}
    (served : ∀ a l b, M.step a l = some b → pending a → own l = true → pending b → rank b < rank a)
    (others : ∀ a l b, M.step a l = some b → pending a → own l = false →
      pending b ∧ rank b ≤ rank a)
    (run : M.exec s ls = some t) (start : pending s) (enough : rank s < ls.countP own) :
    ∃ first second mid, ls = first ++ second ∧ M.exec s first = some mid ∧ ¬ pending mid := by
  induction ls generalizing s with
  | nil => exact absurd enough (by simp)
  | cons l ls ih =>
    obtain ⟨s', step, rest⟩ := exec_cons_cases run
    by_cases still : pending s'
    · have fewer : rank s' < ls.countP own := by
        cases mine : own l with
        | true =>
          have := served s l s' step start mine still
          rw [List.countP_cons_of_pos mine] at enough
          omega
        | false =>
          have := (others s l s' step start mine).2
          rw [List.countP_cons_of_neg (by simp [mine])] at enough
          omega
      obtain ⟨first, second, mid, rfl, run', done⟩ := ih rest still fewer
      exact ⟨l :: first, second, mid, rfl, by rw [exec_cons_of_step step, run'], done⟩
    · exact ⟨[l], ls, s', rfl, by rw [exec_cons_of_step step, exec_nil], still⟩

/-- No label is enabled: a run that has come here is at its end. -/
def Stuck (M : Machine σ ℓ) (s : σ) : Prop := ∀ l, M.step s l = none

/-- **The termination rule.** When every step keeps an invariant and lowers a rank, a run is
no longer than the rank of its first state. -/
theorem length_le_rank {I : σ → Prop}
    (lowers : ∀ a l b, M.step a l = some b → I a → I b ∧ rank b < rank a)
    (run : M.exec s ls = some t) (start : I s) : ls.length ≤ rank s := by
  induction ls generalizing s with
  | nil => exact Nat.zero_le _
  | cons l ls ih =>
    obtain ⟨s', step, rest⟩ := exec_cons_cases run
    obtain ⟨holds, lower⟩ := lowers s l s' step start
    have short := ih rest holds
    rw [List.length_cons]
    omega

end Machine

end Strimserver.Library
