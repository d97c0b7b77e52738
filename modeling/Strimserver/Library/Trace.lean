import Mathlib.Data.List.Basic

/-!
# Traces

A trace is the list of what happened, the newest first, so a step of a machine
prepends its events. A statement about the order of two events is a statement
about how the trace splits at them. `split_past` moves such a split over the
events of a step that did not record the event it splits at, and `split_head`
says that a split at the newest event has nothing before it or has that event
among the later ones.
-/

namespace Strimserver.Library.Trace

open List

universe u

variable {α : Type u} {a : α} {events log later earlier : List α}

/-- A split at an event that the new events do not contain is a split of the
older trace. -/
theorem split_past (absent : a ∉ events) (split : events ++ log = later ++ a :: earlier) :
    ∃ later', later = events ++ later' ∧ log = later' ++ a :: earlier := by
  induction events generalizing later with
  | nil => exact ⟨later, rfl, split⟩
  | cons e events ih =>
    rw [mem_cons, not_or] at absent
    cases later with
    | nil =>
      rw [cons_append, nil_append, List.cons.injEq] at split
      exact absurd split.1.symm absent.1
    | cons =>
      rw [cons_append, cons_append, List.cons.injEq] at split
      obtain ⟨rfl, rest⟩ := split
      obtain ⟨later', rfl, older⟩ := ih absent.2 rest
      exact ⟨later', rfl, older⟩

/-- A split of a trace is at its newest event or has that event among the later
ones. -/
theorem split_head {e : α} (split : e :: log = later ++ a :: earlier) :
    (later = [] ∧ a = e ∧ earlier = log) ∨
      ∃ later', later = e :: later' ∧ log = later' ++ a :: earlier := by
  cases later with
  | nil =>
    rw [nil_append, List.cons.injEq] at split
    exact .inl ⟨rfl, split.1.symm, split.2.symm⟩
  | cons e' later =>
    rw [cons_append, List.cons.injEq] at split
    exact .inr ⟨later, by rw [split.1], split.2⟩

end Strimserver.Library.Trace
