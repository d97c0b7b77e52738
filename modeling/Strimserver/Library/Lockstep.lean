import Mathlib.Data.List.Forall2

/-!
# Two systems in lockstep

A system takes inputs one after another and answers each. Two systems refine
each other along related inputs when one step of both, from related states and
on related inputs, leads to related states and gives related answers.
-/

namespace Strimserver.Library

universe u

variable {σ τ ι κ ο ω : Type u}

/-- The state after the inputs, and the answers in order. -/
def answers (step : σ → ι → σ × ο) : σ → List ι → σ × List ο
  | s, [] => (s, [])
  | s, i :: is =>
    let next := step s i
    let rest := answers step next.1 is
    (rest.1, next.2 :: rest.2)

/-- **The lockstep rule.** -/
theorem answers_lockstep {f : σ → ι → σ × ο} {g : τ → κ → τ × ω} {R : σ → τ → Prop}
    {I : ι → κ → Prop} {O : ο → ω → Prop}
    (step : ∀ {s t i k}, R s t → I i k → R (f s i).1 (g t k).1 ∧ O (f s i).2 (g t k).2)
    {s : σ} {t : τ} {is : List ι} {ks : List κ} (start : R s t) (inputs : List.Forall₂ I is ks) :
    R (answers f s is).1 (answers g t ks).1 ∧
      List.Forall₂ O (answers f s is).2 (answers g t ks).2 := by
  induction inputs generalizing s t with
  | nil => exact ⟨start, .nil⟩
  | cons input _ ih =>
    obtain ⟨next, answer⟩ := step start input
    obtain ⟨last, rest⟩ := ih next
    exact ⟨last, .cons answer rest⟩

end Strimserver.Library
