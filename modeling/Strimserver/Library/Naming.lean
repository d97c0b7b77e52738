import Mathlib.Logic.Function.Basic

/-!
# Named values and maps over their names

A naming gives each value of a type a name in another type and reads the names
back. Maps keyed by names, with the named values as their keys, are the maps
that a program with dictionaries keeps where another one has an array: `map`
turns the array into the dictionary, and an assignment to a cell of the array
is an assignment under its name.
-/

namespace Strimserver.Library

open Function Option

universe u v w

/-- Names of the values of `α` in `κ`. -/
structure Naming (α : Type u) (κ : Type v) where
  name : α → κ
  parse : κ → Option α
  parse_eq_some : ∀ {key : κ} {a : α}, parse key = some a ↔ key = name a

namespace Naming

/-- The naming of a table of distinct names, which are read by a search of it. -/
def ofTable {α : Type u} {κ : Type v} [DecidableEq κ] (name : α → κ) (all : List α)
    (complete : ∀ a, a ∈ all) (injective : Function.Injective name) : Naming α κ where
  name := name
  parse key := all.find? fun a => decide (key = name a)
  parse_eq_some := by
    intro key a
    constructor
    · intro found
      simpa using List.find?_some found
    rintro rfl
    obtain ⟨b, found⟩ : ∃ b, all.find? (fun b => decide (name a = name b)) = some b := by
      apply isSome_iff_exists.mp
      rw [List.find?_isSome]
      exact ⟨a, complete a, decide_eq_true rfl⟩
    have same : name a = name b := by simpa using List.find?_some found
    rw [found, injective same]

variable {α : Type u} {κ : Type v} {β : Type w} (N : Naming α κ)

@[simp] theorem parse_name (a : α) : N.parse (N.name a) = some a := N.parse_eq_some.mpr rfl

theorem name_injective : Function.Injective N.name := by
  intro a b same
  have parsed := N.parse_name a
  rw [same, N.parse_name] at parsed
  exact (Option.some.inj parsed).symm

def map (cells : α → β) (key : κ) : Option β := (N.parse key).map cells

@[simp] theorem map_name (cells : α → β) (a : α) : N.map cells (N.name a) = some (cells a) := by
  rw [map, parse_name, map_some]

theorem map_eq_none {cells : α → β} {key : κ} (unnamed : N.parse key = none) :
    N.map cells key = none := by
  rw [map, unnamed, map_none]

/-- An assignment to a cell is an assignment under its name. -/
theorem map_update [DecidableEq α] [DecidableEq κ] (cells : α → β) (a : α) (value : β) :
    N.map (Function.update cells a value) =
      Function.update (N.map cells) (N.name a) (some value) := by
  funext key
  by_cases named : key = N.name a
  · rw [named, map_name, update_self, update_self]
  rw [update_of_ne named, map, map]
  rcases parsed : N.parse key with _ | b
  · rfl
  have other : b ≠ a := by
    rintro rfl
    exact named (N.parse_eq_some.mp parsed)
  rw [map_some, map_some, update_of_ne other]

end Naming

end Strimserver.Library
