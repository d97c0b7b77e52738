import Mathlib.Algebra.BigOperators.Group.List.Basic
import Mathlib.Algebra.GroupWithZero.Nat

/-!
# Lists that are cut to a size

A store of items with sizes drops its oldest items until what is left is small
enough. Seen with the newest item first, what is left is the longest prefix of
the store whose total size is within the limit: `fit`. A store that keeps the
oldest item first and drops from that end in a loop computes it: `evictWhile`,
also when it limits the number of items.

Cutting is monotone in the store, so a store that is a prefix of another one
stays a prefix of it when both are cut.
-/

namespace Strimserver.Library

open List

universe u

variable {α : Type u} (size : α → ℕ)

def total (xs : List α) : ℕ := (xs.map size).sum

/-- The longest prefix within the limit. -/
def fit : ℕ → List α → List α
  | _, [] => []
  | limit, x :: xs => if size x ≤ limit then x :: fit (limit - size x) xs else []

/-- Dropping the first items while the rest is too large, by size or number. -/
def evictWhile (bad : List α → Bool) : List α → List α
  | [] => []
  | e :: es => if bad (e :: es) then evictWhile bad es else e :: es

variable {size}

@[simp] theorem total_nil : total size [] = 0 := rfl

@[simp] theorem total_cons (x : α) (xs : List α) :
    total size (x :: xs) = size x + total size xs := by
  simp [total]

@[simp] theorem total_append (xs ys : List α) :
    total size (xs ++ ys) = total size xs + total size ys := by
  simp [total]

@[simp] theorem total_reverse (xs : List α) : total size xs.reverse = total size xs := by
  simp [total, sum_reverse]

variable (limit : ℕ)

theorem total_fit_le (xs : List α) : total size (fit size limit xs) ≤ limit := by
  induction xs generalizing limit with
  | nil => exact Nat.zero_le _
  | cons x xs ih =>
    unfold fit
    split_ifs with within
    · have rest := ih (limit - size x)
      rw [total_cons]
      omega
    · exact Nat.zero_le _

theorem fit_of_total_le {limit : ℕ} {xs : List α} (within : total size xs ≤ limit) :
    fit size limit xs = xs := by
  induction xs generalizing limit with
  | nil => rfl
  | cons x xs ih =>
    rw [total_cons] at within
    unfold fit
    rw [if_pos (by omega), ih (by omega)]

theorem prefix_fit (xs : List α) : fit size limit xs <+: xs := by
  induction xs generalizing limit with
  | nil => exact prefix_refl _
  | cons x xs ih =>
    unfold fit
    split
    · exact prefix_cons_inj x |>.mpr (ih _)
    · exact nil_prefix

/-- Cutting is monotone, in the limit and in the list. -/
theorem fit_mono {limit limit' : ℕ} (le : limit ≤ limit') {xs ys : List α} (sub : xs <+: ys) :
    fit size limit xs <+: fit size limit' ys := by
  induction xs generalizing limit limit' ys with
  | nil => exact nil_prefix
  | cons x xs ih =>
    obtain ⟨zs, rfl⟩ := sub
    rw [cons_append]
    unfold fit
    split
    · rename_i within
      rw [if_pos (Nat.le_trans within le)]
      exact prefix_cons_inj x |>.mpr (ih (by omega) (prefix_append xs zs))
    · exact nil_prefix

/-- One more item at the old end. -/
theorem fit_concat (xs : List α) (e : α) : fit size limit (xs ++ [e]) =
      if total size (xs ++ [e]) ≤ limit then xs ++ [e] else fit size limit xs := by
  induction xs generalizing limit with
  | nil =>
    simp only [nil_append, total_cons, total_nil, Nat.add_zero]
    rfl
  | cons x xs ih =>
    rw [cons_append, fit, ih, total_cons, fit]
    by_cases within : size x ≤ limit
    · rw [if_pos within, if_pos within]
      by_cases fits : total size (xs ++ [e]) ≤ limit - size x
      · rw [if_pos fits, if_pos (by omega)]
      · rw [if_neg fits, if_neg (by omega)]
    · rw [if_neg within, if_neg within, if_neg (by omega)]

/-- **The loop computes the cut.** -/
theorem reverse_evictWhile {bad : List α → Bool} {limit count : ℕ} {es : List α}
    (condition : ∀ es', es' <:+ es →
      (bad es' = false ↔ total size es' ≤ limit ∧ es'.length ≤ count)) :
    (evictWhile bad es).reverse = (fit size limit es.reverse).take count := by
  induction es with
  | nil => simp [evictWhile, fit]
  | cons e es ih =>
    have good := condition (e :: es) (suffix_refl _)
    have ih := ih fun es' sub => condition es' (sub.trans (suffix_cons e es))
    rw [evictWhile, reverse_cons, fit_concat]
    simp only [total_append, total_reverse, total_cons, total_nil, length_cons] at good ⊢
    by_cases keep : bad (e :: es) = false
    · obtain ⟨within, few⟩ := good.mp keep
      have whole : (es.reverse ++ [e]).length ≤ count := by simpa using few
      rw [keep, if_neg Bool.false_ne_true, if_pos (by omega), reverse_cons, take_of_length_le whole]
    rw [if_pos (Bool.of_not_eq_false keep), ih]
    by_cases within : total size es + (size e + 0) ≤ limit
    · -- The size is within the limit, so it is the number of items that is not.
      have many : count ≤ es.length := by
        by_contra few
        exact keep (good.mpr ⟨by omega, by omega⟩)
      have shorter : total size es.reverse ≤ limit := by
        rw [total_reverse]
        omega
      rw [if_pos within, fit_of_total_le shorter, take_append_of_le_length (by simpa using many)]
    · rw [if_neg within]

/-- The loop stops at an empty list or when nothing more has to go. -/
theorem evictWhile_stops (bad : List α → Bool) (es : List α) :
    evictWhile bad es = [] ∨ bad (evictWhile bad es) = false := by
  induction es with
  | nil => exact .inl rfl
  | cons e es ih =>
    unfold evictWhile
    split_ifs with keep
    · exact ih
    · exact .inr (Bool.eq_false_iff.mpr keep)

theorem evictWhile_suffix (bad : List α → Bool) (es : List α) : evictWhile bad es <:+ es := by
  induction es with
  | nil => exact suffix_refl _
  | cons e es ih =>
    unfold evictWhile
    split
    · exact ih.trans (suffix_cons e es)
    · exact suffix_refl _

/-- Cutting the items and cutting what they stand for. -/
theorem map_fit {β : Type u} {size' : β → ℕ} {f : α → β} {xs : List α}
    (same : ∀ x ∈ xs, size x = size' (f x)) (limit : ℕ) :
    (fit size limit xs).map f = fit size' limit (xs.map f) := by
  induction xs generalizing limit with
  | nil => rfl
  | cons x xs ih =>
    have head := same x mem_cons_self
    rw [map_cons, fit, fit, ← head, ← ih fun y mem => same y (mem_cons_of_mem x mem)]
    split <;> rfl

end Strimserver.Library
