import Mathlib.Data.FinEnum
import Mathlib.Data.List.TakeWhile
import Strimserver.Library.Octets

/-!
# Tokens of a header

`header_contains_token` of `http_server.c`, which looks for `upgrade` and `websocket` in the
headers of a handshake. A header is a list of elements with commas between them. The loop
compares no more than the first word of an element, so that an element of several words is
taken for its first.
-/

namespace Strimserver.Http

open List

/-- `tolower` on ASCII. -/
def lower (b : UInt8) : UInt8 := if 0x41 ≤ b ∧ b ≤ 0x5A then b + 0x20 else b

def isSeparator (b : UInt8) : Bool := b = 0x20 || b = 0x09 || b = 0x2C

/-- The comparison by `strncasecmp`, and the look at the octet behind it. -/
def startsWith : Octets → Octets → Bool
  | [], p => p.head?.all isSeparator
  | _ :: _, [] => false
  | t :: token, b :: p => lower b = lower t && startsWith token p

/-- The loop of `header_contains_token`. It looks for the token at the first octet of an
element, and otherwise skips the element up to its comma. -/
def findToken (token : Octets) : Bool → Octets → Bool
  | _, [] => false
  | true, b :: rest =>
    if isSeparator b then findToken token true rest
    else startsWith token (b :: rest) || findToken token false rest
  | false, b :: rest => findToken token (b = 0x2C) rest

/-- `header_contains_token`. -/
def headerContainsToken (value : Option Octets) (token : Octets) : Bool :=
  value.any (findToken token true)

/-! ## Elements -/

def isBlank (b : UInt8) : Bool := b = 0x20 || b = 0x09

/-- An element without the blanks around it. -/
def trim (element : Octets) : Octets :=
  ((element.dropWhile isBlank).reverse.dropWhile isBlank).reverse

def firstWord (element : Octets) : Octets :=
  (element.dropWhile isBlank).takeWhile fun c => !isBlank c

variable {token : Octets}

theorem isSeparator_lower (c : UInt8) : isSeparator (lower c) = isSeparator c := by
  revert c
  decide +kernel

/-- The comparison is one with all up to the next separator. -/
theorem startsWith_iff (plain : ∀ c ∈ token, isSeparator c = false) (p : Octets) :
    startsWith token p = true ↔
      (p.takeWhile fun c => !isSeparator c).map lower = token.map lower := by
  induction token generalizing p with
  | nil => cases p <;> simp [startsWith]
  | cons t token ih =>
    obtain ⟨first, plain⟩ := forall_mem_cons.mp plain
    cases p with
    | nil => simp [startsWith]
    | cons b p =>
      by_cases separator : isSeparator b = true
      · have other : lower b ≠ lower t := fun same => by
          rw [← isSeparator_lower, same, isSeparator_lower, first] at separator
          cases separator
        simp [startsWith, separator, other]
      · simp [startsWith, separator, ih plain]

theorem splitOn_head (v : Octets) :
    ∃ others, v.splitOn 0x2C = v.takeWhile (fun c => c ≠ 0x2C) :: others := by
  induction v with
  | nil => exact ⟨[], rfl⟩
  | cons b rest ih =>
    obtain ⟨others, split⟩ := ih
    rw [splitOn_cons_eq_if_modifyHead, split]
    by_cases comma : b = 0x2C
    · exact ⟨_, by simp [comma]; rfl⟩
    · exact ⟨others, by simp [comma]⟩

/-- The first word of an element that begins with one. -/
theorem firstWord_cons {b : UInt8} (plain : isSeparator b = false) (rest : Octets) :
    firstWord (b :: rest.takeWhile (fun c => c ≠ 0x2C)) =
      (b :: rest).takeWhile fun c => !isSeparator c := by
  obtain ⟨blank, comma⟩ := Bool.or_eq_false_iff.mp plain
  have both (c : UInt8) : decide ((!isBlank c) = true ∧ decide (c ≠ 0x2C) = true) =
      !isSeparator c := by
    simp [isSeparator, isBlank]
  rw [firstWord, dropWhile_cons_of_neg (by simp [isBlank, blank]),
    ← takeWhile_cons_of_pos (p := fun c => decide (c ≠ 0x2C)) (by simpa using comma),
    takeWhile_takeWhile]
  exact congrArg (fun p => (b :: rest).takeWhile p) (funext both)

/-- What the loop finds, at the beginning of an element and inside of one. -/
theorem findToken_iff (nonempty : token ≠ []) (plain : ∀ c ∈ token, isSeparator c = false)
    (v : Octets) :
    (findToken token true v = true ↔
      ∃ e ∈ v.splitOn 0x2C, (firstWord e).map lower = token.map lower) ∧
    (findToken token false v = true ↔
      ∃ e ∈ (v.splitOn 0x2C).tail, (firstWord e).map lower = token.map lower) := by
  have absent : ¬ (firstWord []).map lower = token.map lower := by
    intro same
    exact nonempty (map_eq_nil_iff.mp same.symm)
  induction v with
  | nil =>
    refine ⟨iff_of_false Bool.false_ne_true ?_, iff_of_false Bool.false_ne_true nofun⟩
    simpa using absent
  | cons b rest ih =>
    obtain ⟨starts, inside⟩ := ih
    obtain ⟨others, split⟩ := splitOn_head rest
    rw [splitOn_cons_eq_if_modifyHead]
    by_cases comma : b = 0x2C
    · subst comma
      have skip : ∀ mode, findToken token mode (0x2C :: rest) = findToken token true rest := by
        intro mode
        cases mode <;> simp [findToken, isSeparator]
      simp only [skip, beq_self_eq_true, if_true, tail_cons, exists_mem_cons_iff, absent, false_or]
      exact ⟨starts, starts⟩
    rw [split] at starts inside
    simp only [beq_iff_eq, comma, if_false, split, modifyHead_cons, tail_cons,
      exists_mem_cons_iff] at starts inside ⊢
    refine ⟨?_, by simpa [findToken, comma] using inside⟩
    cases separator : isSeparator b with
    | true =>
      have blank : isBlank b = true := by simpa [isSeparator, isBlank, comma] using separator
      rw [findToken, separator, if_pos rfl, starts, firstWord, firstWord,
        dropWhile_cons_of_pos blank]
    | false =>
      rw [findToken, separator, if_neg Bool.false_ne_true, Bool.or_eq_true, startsWith_iff plain,
        inside, firstWord_cons separator]

theorem firstWord_eq_trim {e : Octets} (single : ∀ c ∈ trim e, isBlank c = false) :
    firstWord e = trim e := by
  have parts := congrArg List.reverse
    (takeWhile_append_dropWhile (p := isBlank) (l := (e.dropWhile isBlank).reverse))
  rw [reverse_append, reverse_reverse] at parts
  change trim e ++ _ = _ at parts
  rw [firstWord, ← parts, takeWhile_append_of_pos (fun c mem => by rw [single c mem]; rfl)]
  cases blanks : ((e.dropWhile isBlank).reverse.takeWhile isBlank).reverse with
  | nil => rw [takeWhile_nil, append_nil]
  | cons c others =>
    have mem : c ∈ ((e.dropWhile isBlank).reverse.takeWhile isBlank).reverse :=
      blanks ▸ mem_cons_self
    have blank : isBlank c = true := mem_takeWhile_imp (mem_reverse.mp mem)
    rw [takeWhile_cons_of_neg (by rw [blank]; decide), append_nil]

/-- An element that is a token is its first word. -/
theorem firstWord_of_trim {e : Octets} (plain : ∀ c ∈ token, isSeparator c = false)
    (same : (trim e).map lower = token.map lower) : (firstWord e).map lower = token.map lower := by
  rw [firstWord_eq_trim fun c mem => ?_, same]
  obtain ⟨t, memToken, eq⟩ := mem_map.mp (same ▸ mem_map_of_mem mem)
  have separator : isSeparator c = false := by
    rw [← isSeparator_lower, ← eq, isSeparator_lower, plain t memToken]
  exact (Bool.or_eq_false_iff.mp separator).1

/-- **Which tokens are found**: the first words of the elements. These are the elements
themselves exactly where no element of several words begins with a token that is not there. -/
theorem header_tokens (value token : Octets) (nonempty : token ≠ [])
    (plain : ∀ c ∈ token, isSeparator c = false) :
    (headerContainsToken (some value) token = true ↔
      ∃ e ∈ value.splitOn 0x2C, (firstWord e).map lower = token.map lower) ∧
    ((headerContainsToken (some value) token = true ↔
        ∃ e ∈ value.splitOn 0x2C, (trim e).map lower = token.map lower) ↔
      ((∃ e ∈ value.splitOn 0x2C, (firstWord e).map lower = token.map lower) →
        ∃ e ∈ value.splitOn 0x2C, (trim e).map lower = token.map lower)) := by
  have found := (findToken_iff nonempty plain value).1
  refine ⟨found, fun claimed some => claimed.mp (found.mpr some), fun single => ?_⟩
  refine found.trans ⟨single, ?_⟩
  rintro ⟨e, mem, same⟩
  exact ⟨e, mem, firstWord_of_trim plain same⟩

/-- `Upgrade` among other elements, of which one has two words. -/
theorem header_tokens_upgrade :
    headerContainsToken (some (ascii "keep alive, \tUpgrade ,x")) (ascii "upgrade") = true := by
  have facts : (∀ c ∈ ascii "upgrade", isSeparator c = false) ∧
      ∃ e ∈ (ascii "keep alive, \tUpgrade ,x").splitOn 0x2C,
        (trim e).map lower = (ascii "upgrade").map lower := by decide +kernel
  obtain ⟨plain, present⟩ := facts
  exact ((header_tokens _ _ (by decide) plain).2.mpr fun _ => present).mpr present

/-- An element of two words is no token, and is taken for its first word. -/
theorem two_words_accepted :
    headerContainsToken (some (ascii "upgrade later")) (ascii "upgrade") = true ∧
      ¬ ∃ e ∈ (ascii "upgrade later").splitOn 0x2C,
      (trim e).map lower = (ascii "upgrade").map lower := by
  decide

end Strimserver.Http
