import Mathlib.Data.UInt

/-!
# UTF-8

Well-formed UTF-8 as an automaton over octets: after the first octet of a character some
continuation octets are owed, and the first octet limits the next one, which excludes
overlong forms, surrogates and numbers above `0x10FFFF`.

An ASCII octet stands for itself and never lies inside a character, so a text that is put
together from pieces around ASCII octets is well formed exactly when the pieces are.
-/

namespace Strimserver.Library.Utf8

open List Option

/-- The continuation octets that are owed, and the range of the next one. -/
structure Owed where
  count : ℕ
  low : UInt8
  high : UInt8
  continuation : 0x80 ≤ low
  deriving DecidableEq

def Owed.start : Owed := ⟨0, 0x80, 0xBF, by decide⟩

/-- Continuation octets of any value. -/
def Owed.plain (count : ℕ) : Owed := ⟨count, 0x80, 0xBF, by decide⟩

/-- What the first octet of a character makes owed. -/
def lead (b : UInt8) : Option Owed :=
  if b < 0x80 then some .start
  else if 0xC2 ≤ b ∧ b ≤ 0xDF then some (.plain 1)
  else if b = 0xE0 then some ⟨2, 0xA0, 0xBF, by decide⟩
  else if b = 0xED then some ⟨2, 0x80, 0x9F, by decide⟩
  else if 0xE1 ≤ b ∧ b ≤ 0xEF then some (.plain 2)
  else if b = 0xF0 then some ⟨3, 0x90, 0xBF, by decide⟩
  else if b = 0xF4 then some ⟨3, 0x80, 0x8F, by decide⟩
  else if 0xF1 ≤ b ∧ b ≤ 0xF3 then some (.plain 3)
  else none

def step (owed : Owed) (b : UInt8) : Option Owed :=
  match owed.count with
  | 0 => lead b
  | count + 1 => if owed.low ≤ b ∧ b ≤ owed.high then some (.plain count) else none

/-- The octets of a text, one after the other. -/
def run (owed : Owed) (text : List UInt8) : Option Owed := text.foldlM step owed

/-- Well-formed UTF-8. -/
def Valid (text : List UInt8) : Prop := run .start text = some .start

instance (text : List UInt8) : Decidable (Valid text) := inferInstanceAs (Decidable (_ = _))

def encode (c : ℕ) : List UInt8 :=
  if c < 0x80 then [UInt8.ofNat c]
  else if c < 0x800 then [UInt8.ofNat (0xC0 + c / 0x40), UInt8.ofNat (0x80 + c % 0x40)]
  else if c < 0x10000 then
    [UInt8.ofNat (0xE0 + c / 0x1000), UInt8.ofNat (0x80 + c / 0x40 % 0x40),
      UInt8.ofNat (0x80 + c % 0x40)]
  else
    [UInt8.ofNat (0xF0 + c / 0x40000), UInt8.ofNat (0x80 + c / 0x1000 % 0x40),
      UInt8.ofNat (0x80 + c / 0x40 % 0x40), UInt8.ofNat (0x80 + c % 0x40)]

theorem encode_ascii {c : ℕ} (ascii : c < 0x80) : encode c = [UInt8.ofNat c] := if_pos ascii

variable {owed : Owed} {first second : List UInt8} {b : UInt8}

theorem run_append : run owed (first ++ second) = (run owed first).bind fun q => run q second :=
  foldlM_append

theorem run_cons : run owed (b :: second) = (step owed b).bind fun q => run q second := foldlM_cons

/-- An ASCII octet stands for itself and never lies inside a character. -/
theorem step_of_ascii (ascii : b < 0x80) :
    step owed b = if owed.count = 0 then some .start else none := by
  unfold step
  split
  · rename_i between
    rw [between, if_pos rfl, lead, if_pos ascii]
  rename_i count owes
  rw [owes, if_neg (Nat.succ_ne_zero count)]
  refine if_neg fun range => ?_
  exact absurd (UInt8.le_trans owed.continuation range.1) (UInt8.not_le.mpr ascii)

theorem step_start_of_ascii (ascii : b < 0x80) : step .start b = some .start := by
  rw [step_of_ascii ascii]
  rfl

/-- Between two octets no continuation is owed exactly at the start of a character. -/
def Owed.Regular (owed : Owed) : Prop := owed.count = 0 → owed = .start

theorem regular_lead {q : Owed} (found : lead b = some q) : q.Regular := by
  unfold lead at found
  repeat' (split at found)
  all_goals first
    | (cases found; exact fun _ => rfl)
    | (cases found; exact fun none => absurd none (by decide))
    | cases found

theorem regular_step {q : Owed} (found : step owed b = some q) : q.Regular := by
  unfold step at found
  split at found
  · exact regular_lead found
  split at found <;> cases found
  intro none
  obtain rfl := none
  rfl

theorem regular_run {q : Owed} (regular : owed.Regular) (found : run owed first = some q) :
    q.Regular := by
  induction first generalizing owed with
  | nil =>
    cases found
    exact regular
  | cons b rest ih =>
    rw [run_cons] at found
    obtain ⟨q', step, rest⟩ := bind_eq_some_iff.mp found
    exact ih (regular_step step) rest

namespace Valid

theorem nil : Valid [] := rfl

/-- After a well-formed text another one begins. -/
theorem append_iff (valid : Valid first) : Valid (first ++ second) ↔ Valid second := by
  unfold Valid at *
  rw [run_append, valid, bind_some]

theorem append (valid : Valid first) (valid' : Valid second) : Valid (first ++ second) :=
  (append_iff valid).mpr valid'

theorem cons_iff (ascii : b < 0x80) : Valid (b :: second) ↔ Valid second := by
  unfold Valid
  rw [run_cons, step_start_of_ascii ascii, bind_some]

theorem of_ascii (ascii : ∀ b ∈ first, b < 0x80) : Valid first := by
  induction first with
  | nil => exact nil
  | cons b rest ih =>
    rw [cons_iff (ascii b mem_cons_self)]
    exact ih fun b mem => ascii b (mem_cons_of_mem _ mem)

/-- A text around an ASCII octet is well formed exactly when its parts are. -/
theorem append_cons_iff (ascii : b < 0x80) :
    Valid (first ++ b :: second) ↔ Valid first ∧ Valid second := by
  constructor
  · intro valid
    unfold Valid at valid
    rw [run_append] at valid
    obtain ⟨q, run, rest⟩ := bind_eq_some_iff.mp valid
    rw [run_cons] at rest
    have between : q.count = 0 := by
      by_contra owes
      rw [step_of_ascii ascii, if_neg owes] at rest
      cases rest
    obtain rfl := regular_run (fun _ => rfl) run between
    rw [step_start_of_ascii ascii, bind_some] at rest
    exact ⟨run, rest⟩
  · rintro ⟨valid, valid'⟩
    exact append valid ((cons_iff ascii).mpr valid')

end Valid

theorem run_of_ascii (ascii : ∀ c ∈ first, c < 0x80) (nonempty : first ≠ []) :
    run owed first = if owed.count = 0 then some .start else none := by
  cases first with
  | nil => exact absurd rfl nonempty
  | cons b =>
    rw [run_cons, step_of_ascii (ascii b mem_cons_self)]
    split
    · rw [bind_some]
      exact Valid.of_ascii fun c mem => ascii c (mem_cons_of_mem _ mem)
    · rfl

end Strimserver.Library.Utf8
