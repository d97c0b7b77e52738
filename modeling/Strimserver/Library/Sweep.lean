import Mathlib.Data.List.Nodup

/-!
# Loops over independent cells

`sweep` visits cells one after another. The body for a cell reads and writes
that cell only, and may put out a value. When no cell is visited twice the
order does not matter: each visited cell holds what the body makes of its first
value, and the outputs are those of the cells in the order of the visits.
-/

namespace Strimserver.Library

universe u v w

variable {κ : Type u} {β : Type v} {ω : Type w} [DecidableEq κ]

/-- The loop: the cells after it, and the outputs in order. -/
def sweep (body : κ → β → β × Option ω) : (κ → β) → List κ → (κ → β) × List ω
  | cells, [] => (cells, [])
  | cells, k :: ks =>
    let visited := body k (cells k)
    let rest := sweep body (Function.update cells k visited.1) ks
    (rest.1, visited.2.toList ++ rest.2)

variable {body : κ → β → β × Option ω}

/-- **A sweep is pointwise.** -/
theorem sweep_of_nodup {ks : List κ} (nodup : ks.Nodup) (cells : κ → β) : sweep body cells ks =
      (fun k => if k ∈ ks then (body k (cells k)).1 else cells k,
        ks.filterMap fun k => (body k (cells k)).2) := by
  induction ks generalizing cells with
  | nil => simp [sweep]
  | cons k ks ih =>
    obtain ⟨fresh, nodup⟩ := List.nodup_cons.mp nodup
    have later : ∀ k' ∈ ks, Function.update cells k (body k (cells k)).1 k' = cells k' := by
      intro k' mem
      refine Function.update_of_ne ?_ _ _
      rintro rfl
      exact fresh mem
    simp only [sweep, ih nodup]
    refine Prod.ext ?_ ?_
    · funext k'
      by_cases same : k' = k
      · subst same
        simp [fresh]
      by_cases mem : k' ∈ ks
      · simp [mem, later k' mem]
      · simp [mem, same]
    have outputs : ks.filterMap (fun k' => (body k'
        (Function.update cells k (body k (cells k)).1 k')).2) =
        ks.filterMap fun k' => (body k' (cells k')).2 := by
      apply List.filterMap_congr
      intro k' mem
      rw [later k' mem]
    show _ ++ _ = _
    rw [outputs, List.filterMap_cons]
    cases (body k (cells k)).2 <;> rfl

end Strimserver.Library
