import Mathlib.Data.Finset.SDiff

/-!
# Condition variables

The threads that sleep on a condition variable are its wait set. A signal wakes at
least one of them, whichever, and a broadcast wakes all.

A signal can miss the thread it is meant for when others sleep on the same variable.
`Sole` is the discipline that excludes this: the thread sleeps only when no other does,
and then a signal is for it.
-/

namespace Strimserver.Library.Condition

universe u

variable {τ : Type u} [DecidableEq τ]

/-- What is done to a condition variable. -/
inductive Notify where
  | nothing
  | signal
  | broadcast

/-- The threads that still sleep when some are woken, if these may be the ones. -/
def Notify.left (waiting woken : Finset τ) : Notify → Option (Finset τ)
  | .nothing => if woken = ∅ then some waiting else none
  | .signal => if woken ⊆ waiting ∧ (woken = ∅ → waiting = ∅) then some (waiting \ woken) else none
  | .broadcast => if woken = waiting then some ∅ else none

/-- A thread that sleeps only alone. -/
def Sole (thread : τ) (waiting : Finset τ) : Prop := thread ∈ waiting → waiting = {thread}

variable {kind : Notify} {thread : τ} {waiting woken left : Finset τ}

/-- Nobody goes to sleep. -/
theorem left_subset (notified : kind.left waiting woken = some left) : left ⊆ waiting := by
  unfold Notify.left at notified
  split at notified <;> split at notified <;> cases notified
  · exact Finset.Subset.refl waiting
  · exact Finset.sdiff_subset
  · exact Finset.empty_subset waiting

theorem left_of_broadcast (notified : Notify.broadcast.left waiting woken = some left) :
    left = ∅ := by
  unfold Notify.left at notified
  dsimp only at notified
  split at notified <;> cases notified
  rfl

/-- There is always a choice. -/
theorem exists_left (kind : Notify) (waiting : Finset τ) :
    ∃ woken left, kind.left waiting woken = some left := by
  cases kind with
  | nothing => exact ⟨∅, waiting, by rw [Notify.left, if_pos rfl]⟩
  | signal => exact ⟨waiting, waiting \ waiting, if_pos ⟨Finset.Subset.refl waiting, id⟩⟩
  | broadcast => exact ⟨waiting, ∅, by rw [Notify.left, if_pos rfl]⟩

namespace Sole

omit [DecidableEq τ] in
theorem of_notMem (awake : thread ∉ waiting) : Sole thread waiting := fun mem => absurd mem awake

omit [DecidableEq τ] in
theorem subset (sole : Sole thread waiting) (less : left ⊆ waiting) : Sole thread left := by
  intro mem
  rw [sole (less mem)] at less
  exact Finset.Subset.antisymm less (Finset.singleton_subset_iff.mpr mem)

/-- **A signal is not lost** for a thread that sleeps only alone. -/
theorem notMem_of_signal (sole : Sole thread waiting)
    (notified : Notify.signal.left waiting woken = some left) : thread ∉ left := by
  unfold Notify.left at notified
  dsimp only at notified
  split at notified <;> cases notified
  rename_i choice
  obtain ⟨among, some⟩ := choice
  intro mem
  obtain ⟨asleep, notWoken⟩ := Finset.mem_sdiff.mp mem
  have alone := sole asleep
  have none : woken = ∅ := by
    rw [alone, Finset.subset_singleton_iff] at among
    refine among.resolve_right fun same => notWoken ?_
    rw [same]
    exact Finset.mem_singleton_self thread
  rw [some none] at asleep
  exact Finset.notMem_empty thread asleep

end Sole

end Strimserver.Library.Condition
