import Mathlib.Data.List.Forall2
import Mathlib.Data.List.Induction
import Mathlib.Data.Option.Basic

/-!
# Decoding a prefix code

A code is a partial function from words to what they stand for: a symbol, or nothing that may
be used (an end marker). The decoder reads one letter after the other and emits a symbol as
soon as the letters since the last symbol are a word.

For a prefix code the decoder cuts its input in the only possible way: it ends with the symbols
`out` and the letters `rest` exactly when the input is the words of `out` followed by
`rest`, and no word begins `rest` (`decode_eq_some_iff`).
-/

namespace Strimserver.Library.PrefixCode

open List

universe u v

variable {β : Type u} {σ : Type v}

/-- One more letter: the letters since the last symbol, and the symbols so far. -/
def step (symbol : List β → Option (Option σ)) (s : List β × List σ) (b : β) :
    Option (List β × List σ) :=
  match symbol (s.1 ++ [b]) with
  | none => some (s.1 ++ [b], s.2)
  | some none => none
  | some (some x) => some ([], s.2 ++ [x])

/-- No word begins another one. -/
structure IsPrefixCode (symbol : List β → Option (Option σ)) : Prop where
  empty : symbol [] = none
  free : ∀ {w v a b}, symbol w = some a → symbol v = some b → w <+: v → w = v

variable {symbol : List β → Option (Option σ)}

theorem step_none {acc : List β} {b : β} (off : symbol (acc ++ [b]) = none) (out : List σ) :
    step symbol (acc, out) b = some (acc ++ [b], out) := by
  rw [step, off]

variable {words : List (List β)} {v : List β}

/-- What begins a word and is shorter is no word. -/
theorem IsPrefixCode.not_word (code : IsPrefixCode symbol) {w : List β} {a : Option σ}
    (word : symbol w = some a) (sub : v <+: w) (shorter : v ≠ w) : symbol v = none := by
  cases other : symbol v with
  | none => rfl
  | some => exact (shorter (code.free other word sub)).elim

variable {out : List σ}

/-- The rest of a word, from its second letter on or from its start. -/
theorem IsPrefixCode.foldlM_word (code : IsPrefixCode symbol) {x : σ} :
    ∀ {acc : List β}, symbol (acc ++ v) = some (some x) → v ≠ [] →
      v.foldlM (step symbol) (acc, out) = some ([], out ++ [x]) := by
  induction v with
  | nil => exact fun _ absurd => (absurd rfl).elim
  | cons b v ih =>
    intro acc word _
    have split : acc ++ b :: v = (acc ++ [b]) ++ v := by simp
    rw [split] at word
    rw [foldlM_cons]
    by_cases last : v = []
    · subst last
      rw [append_nil] at word
      rw [step, word]
      rfl
    have shorter : acc ++ [b] ≠ (acc ++ [b]) ++ v := by
      intro same
      exact last (append_right_eq_self.mp same.symm)
    rw [step_none (code.not_word word (prefix_append _ _) shorter)]
    exact ih word last

/-- Letters that no word begins. -/
theorem foldlM_rest : ∀ {acc : List β}, (∀ p, p <+: acc ++ v → symbol p = none) →
      v.foldlM (step symbol) (acc, out) = some (acc ++ v, out) := by
  induction v with
  | nil =>
    intro acc _
    rw [append_nil]
    rfl
  | cons b v ih =>
    intro acc off
    have split : acc ++ b :: v = (acc ++ [b]) ++ v := by simp
    rw [split] at off ⊢
    rw [foldlM_cons, step_none (off _ (prefix_append _ _))]
    exact ih off

/-- The words of the symbols, one after the other. -/
def Spells (symbol : List β → Option (Option σ)) (words : List (List β)) (out : List σ) : Prop :=
  List.Forall₂ (fun w x => symbol w = some (some x)) words out

theorem IsPrefixCode.foldlM_words (code : IsPrefixCode symbol) (spells : Spells symbol words out) :
    ∀ {before : List σ} {rest : List β}, (words.flatten ++ rest).foldlM (step symbol) ([], before) =
      rest.foldlM (step symbol) ([], before ++ out) := by
  induction spells with
  | nil =>
    intro before rest
    rw [append_nil]
    rfl
  | @cons w x words out word _ ih =>
    intro before rest
    have nonempty : w ≠ [] := by
      rintro rfl
      rw [code.empty] at word
      cases word
    have read : w.foldlM (step symbol) ([], before) = _ := code.foldlM_word word nonempty
    rw [flatten_cons, append_assoc, foldlM_append, read]
    have joined : before ++ x :: out = (before ++ [x]) ++ out := by simp
    rw [joined]
    exact ih

/-- What the decoder has read. -/
theorem spells_of_foldlM (code : IsPrefixCode symbol) {input : List β} :
    ∀ {rest : List β} {out : List σ}, input.foldlM (step symbol) ([], []) = some (rest, out) →
      ∃ words, Spells symbol words out ∧ input = words.flatten ++ rest ∧
        ∀ p, p <+: rest → symbol p = none := by
  induction input using List.reverseRecOn with
  | nil =>
    intro rest out run
    cases run
    refine ⟨[], .nil, rfl, fun p sub => ?_⟩
    rw [prefix_nil.mp sub]
    exact code.empty
  | append_singleton input b ih =>
    intro rest out run
    rw [foldlM_append] at run
    obtain ⟨⟨acc, before⟩, first, last⟩ := Option.bind_eq_some_iff.mp run
    obtain ⟨words, spells, rfl, off⟩ := ih first
    have last : step symbol (acc, before) b = some (rest, out) := by simpa using last
    unfold step at last
    cases word : symbol (acc ++ [b]) with
    | none =>
      rw [word] at last
      cases last
      refine ⟨words, spells, by rw [append_assoc], fun p sub => ?_⟩
      rcases prefix_concat_iff.mp sub with rfl | shorter
      · exact word
      · exact off p shorter
    | some a =>
      cases a with
      | none =>
        rw [word] at last
        cases last
      | some =>
        rw [word] at last
        cases last
        refine ⟨words ++ [acc ++ [b]], rel_append spells (.cons word .nil), ?_, fun p sub => ?_⟩
        · simp
        · rw [prefix_nil.mp sub]
          exact code.empty

/-- **The decoder cuts its input into words.** -/
theorem IsPrefixCode.decode_eq_some_iff (code : IsPrefixCode symbol) {input rest : List β} :
    input.foldlM (step symbol) ([], []) = some (rest, out) ↔
      ∃ words, Spells symbol words out ∧ input = words.flatten ++ rest ∧
        ∀ p, p <+: rest → symbol p = none := by
  constructor
  · exact spells_of_foldlM code
  rintro ⟨words, spells, rfl, off⟩
  rw [code.foldlM_words spells, nil_append]
  exact foldlM_rest off

/-- Where each symbol has one word, the words of the symbols are known. -/
theorem spells_iff {word : σ → List β} (words_of : ∀ w x, symbol w = some (some x) ↔ w = word x) :
    Spells symbol words out ↔ words = out.map word := by
  constructor
  · intro spells
    induction spells with
    | nil => rfl
    | cons first _ ih => rw [map_cons, ih, (words_of _ _).mp first]
  rintro rfl
  induction out with
  | nil => exact .nil
  | cons x out ih => exact .cons ((words_of _ _).mpr rfl) ih

end Strimserver.Library.PrefixCode
