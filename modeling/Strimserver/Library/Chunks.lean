import Mathlib.Data.List.TakeDrop

/-!
# A list that is sent in chunks

A list is cut into chunks of a bounded length, and the last of them is marked. `Cut n xs k`
holds of chunks that continue behind the first `k` elements. The chunks can come in several
runs: `Cut.append` puts them together. What the receiver of such chunks can rely on follows
from the definition: the chunks in turn are the list, each is short and not empty, and the
mark stands on the chunk with which the list is complete and on no other.
-/

namespace Strimserver.Library

open List

universe u

variable {α : Type u}

/-- The chunk behind the first `k` elements. -/
def chunkAt (n : ℕ) (xs : List α) (k : ℕ) : List α := (xs.drop k).take n

/-- Chunks of a list, with the mark of the last, that continue behind `k` elements. -/
def Cut (n : ℕ) (xs : List α) : ℕ → List (List α × Bool) → Prop
  | _, [] => True
  | k, (piece, last) :: pieces =>
    k < xs.length ∧ piece = chunkAt n xs k ∧ last = decide (xs.length ≤ k + piece.length) ∧
      Cut n xs (k + piece.length) pieces

def joined (pieces : List (List α × Bool)) : List α := (pieces.map Prod.fst).flatten

theorem joined_cons (piece : List α × Bool) (pieces : List (List α × Bool)) :
    joined (piece :: pieces) = piece.1 ++ joined pieces := rfl

theorem joined_append (first second : List (List α × Bool)) :
    joined (first ++ second) = joined first ++ joined second := by
  rw [joined, map_append, flatten_append]
  rfl

namespace Cut

variable {n k : ℕ} {xs : List α} {pieces : List (List α × Bool)} {more : List (List α × Bool)}

theorem append (first : Cut n xs k pieces) (second : Cut n xs (k + (joined pieces).length) more) :
    Cut n xs k (pieces ++ more) := by
  induction pieces generalizing k with
  | nil => exact second
  | cons piece pieces ih =>
    obtain ⟨unsent, eq, last, rest⟩ := first
    refine ⟨unsent, eq, last, ih rest ?_⟩
    rw [joined_cons, length_append, ← Nat.add_assoc] at second
    exact second

/-- **The chunks in turn are the list**, as far as they go. -/
theorem joined_prefix (cut : Cut n xs k pieces) : joined pieces <+: xs.drop k := by
  induction pieces generalizing k with
  | nil => exact nil_prefix
  | cons piece pieces ih =>
    obtain ⟨piece, last⟩ := piece
    obtain ⟨-, rfl, -, rest⟩ := cut
    have split : xs.drop k = chunkAt n xs k ++ xs.drop (k + (chunkAt n xs k).length) := by
      rw [← drop_drop, chunkAt]
      conv_lhs => rw [← take_append_drop n (xs.drop k)]
      congr 1
      rw [length_take]
      by_cases long : n ≤ (xs.drop k).length
      · rw [Nat.min_eq_left long]
      · rw [Nat.min_eq_right (Nat.le_of_not_le long), drop_length,
          drop_eq_nil_of_le (Nat.le_of_not_le long)]
    rw [joined_cons, split]
    exact (prefix_append_right_inj _).mpr (ih rest)

theorem length_le (cut : Cut n xs k pieces) (start : k ≤ xs.length) :
    k + (joined pieces).length ≤ xs.length := by
  have short := cut.joined_prefix.length_le
  rw [length_drop] at short
  omega

/-- The chunks are the whole list just if they are as long. -/
theorem joined_eq_iff (cut : Cut n xs 0 pieces) :
    joined pieces = xs ↔ (joined pieces).length = xs.length := by
  constructor
  · intro all
    rw [all]
  intro length
  have initial := cut.joined_prefix
  rw [drop_zero] at initial
  exact initial.eq_of_length length

theorem of_append (cut : Cut n xs k (pieces ++ more)) :
    Cut n xs k pieces ∧ Cut n xs (k + (joined pieces).length) more := by
  induction pieces generalizing k with
  | nil => exact ⟨trivial, cut⟩
  | cons piece pieces ih =>
    obtain ⟨unsent, eq, last, rest⟩ := cut
    obtain ⟨first, second⟩ := ih rest
    refine ⟨⟨unsent, eq, last, first⟩, ?_⟩
    rw [joined_cons, length_append, ← Nat.add_assoc]
    exact second

/-- **The mark** stands on a chunk just if the list is complete with it. -/
theorem last_iff {pre post : List (List α × Bool)} {piece : List α} {last : Bool}
    (cut : Cut n xs 0 (pre ++ (piece, last) :: post)) :
    last = true ↔ joined (pre ++ [(piece, last)]) = xs := by
  have upTo : Cut n xs 0 (pre ++ [(piece, last)]) := by
    rw [append_cons] at cut
    exact cut.of_append.1
  rw [upTo.joined_eq_iff, joined_append, length_append]
  obtain ⟨-, eq, rfl, -⟩ := cut.of_append.2
  have short := upTo.length_le (Nat.zero_le _)
  rw [joined_append, length_append] at short
  have single : (joined [(piece, decide (xs.length ≤ 0 + (joined pre).length + piece.length))]) =
      piece := append_nil piece
  rw [single] at short ⊢
  rw [decide_eq_true_iff]
  omega

end Cut

end Strimserver.Library
