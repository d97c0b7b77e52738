import Mathlib.Data.Nat.Digits.Lemmas
import Strimserver.Library.Octets
import Strimserver.Library.Utf8

/-!
# JSON

JSON values, a parser of JSON texts after RFC 8259, and the compact text of a value.

A text is a list of octets, and so is a string of a value. The parser wants well-formed
UTF-8. A number is read as a mantissa and a decimal exponent. The members of an object are
kept in their order, with duplicates, and `get?` takes the first of a name.

`parse_render` is the round trip: the compact text of a value is accepted exactly when all
its strings are well-formed UTF-8, and then it is read as that value.
-/

namespace Strimserver.Library

open List

/-- A value of JSON. -/
inductive Json where
  | null
  | bool (b : Bool)
  /-- The number `mantissa * 10 ^ exponent`. -/
  | num (mantissa exponent : ℤ)
  | str (s : Octets)
  | arr (items : List Json)
  | obj (members : List (Octets × Json))

namespace Json

/-! ## Reading -/

/-- The first member of a name. -/
def lookup (key : Octets) : List (Octets × Json) → Option Json
  | [] => none
  | (name, value) :: rest => if name = key then some value else lookup key rest

/-- A member of an object. -/
def get? (key : Octets) : Json → Option Json
  | obj members => lookup key members
  | _ => none

def str? : Json → Option Octets
  | str s => some s
  | _ => none

/-- The items of an array. -/
def arr? : Json → Option (List Json)
  | arr items => some items
  | _ => none

def int? : Json → Option ℤ
  | num mantissa 0 => some mantissa
  | _ => none

def bool? : Json → Option Bool
  | bool b => some b
  | _ => none

/-- The elements of an array, each read in the same way. -/
def list? {α : Type} (read : Json → Option α) (value : Json) : Option (List α) :=
  value.arr?.bind fun items => items.mapM read

/-! ## The parser -/

/-- White space. -/
def isSpace (b : UInt8) : Bool := b = 0x20 ∨ b = 0x09 ∨ b = 0x0A ∨ b = 0x0D

def skipSpace (text : Octets) : Octets := text.dropWhile isSpace

def signed (negative : Bool) (n : ℕ) : ℤ := if negative then -n else n

/-- `int`: one digit, or digits that do not begin with a zero. -/
def integerPart (text : Octets) : Option (Octets × Octets) :=
  let digits := text.takeWhile isDigit
  if digits = [] ∨ (digits.head? = some 0x30 ∧ digits.length ≠ 1) then none
  else some (digits, text.dropWhile isDigit)

/-- `frac`, if there is one: a point and digits. -/
def fraction : Octets → Option (Octets × Octets)
  | [] => some ([], [])
  | b :: text =>
    if b = 0x2E then
      if text.takeWhile isDigit = [] then none
      else some (text.takeWhile isDigit, text.dropWhile isDigit)
    else some ([], b :: text)

def sign : Octets → Bool × Octets
  | [] => (false, [])
  | b :: text =>
    if b = 0x2D then (true, text) else if b = 0x2B then (false, text) else (false, b :: text)

/-- `exp`, if there is one: a letter, a sign and digits. -/
def exponentPart : Octets → Option (ℤ × Octets)
  | [] => some (0, [])
  | b :: text =>
    if b = 0x65 ∨ b = 0x45 then
      let digits := (sign text).2.takeWhile isDigit
      if digits = [] then none
      else some (signed (sign text).1 (digitsValue digits), (sign text).2.dropWhile isDigit)
    else some (0, b :: text)

def minus : Octets → Bool × Octets
  | [] => (false, [])
  | b :: text => if b = 0x2D then (true, text) else (false, b :: text)

/-- A number. -/
def number (text : Octets) : Option (Json × Octets) :=
  (integerPart (minus text).2).bind fun (digits, text') =>
    (fraction text').bind fun (decimals, text') =>
      (exponentPart text').map fun (exponent, text') =>
        (.num (signed (minus text).1 (digitsValue (digits ++ decimals)))
          (exponent - decimals.length), text')

/-- A hexadecimal digit. -/
def hexDigit (b : UInt8) : Option ℕ :=
  if 0x30 ≤ b ∧ b ≤ 0x39 then some (b.toNat - 0x30)
  else if 0x61 ≤ b ∧ b ≤ 0x66 then some (b.toNat - 0x61 + 10)
  else if 0x41 ≤ b ∧ b ≤ 0x46 then some (b.toNat - 0x41 + 10)
  else none

/-- Four hexadecimal digits. -/
def hex4 : Octets → Option (ℕ × Octets)
  | a :: b :: c :: d :: text =>
    (hexDigit a).bind fun a => (hexDigit b).bind fun b => (hexDigit c).bind fun c =>
      (hexDigit d).map fun d => (a * 0x1000 + b * 0x100 + c * 0x10 + d, text)
  | _ => none

/-- The second half of a surrogate pair. -/
def lowSurrogate : Octets → Option (ℕ × Octets)
  | b :: u :: text =>
    if b = 0x5C ∧ u = 0x75 then
      (hex4 text).bind fun (c, text) => if 0xDC00 ≤ c ∧ c < 0xE000 then some (c, text) else none
    else none
  | _ => none

/-- The character after `\u`: one that is not a surrogate, or a surrogate pair. -/
def unicode (text : Octets) : Option (ℕ × Octets) :=
  (hex4 text).bind fun (c, text) =>
    if 0xD800 ≤ c ∧ c < 0xDC00 then
      (lowSurrogate text).map fun (d, text) => (0x10000 + (c - 0xD800) * 0x400 + (d - 0xDC00), text)
    else if 0xDC00 ≤ c ∧ c < 0xE000 then none
    else some (c, text)

def unescape (c : UInt8) : Option UInt8 :=
  if c = 0x22 ∨ c = 0x5C ∨ c = 0x2F then some c
  else if c = 0x62 then some 0x08
  else if c = 0x66 then some 0x0C
  else if c = 0x6E then some 0x0A
  else if c = 0x72 then some 0x0D
  else if c = 0x74 then some 0x09
  else none

/-- What stands after a backslash. -/
def escape : Octets → Option (Octets × Octets)
  | [] => none
  | c :: text =>
    if c = 0x75 then (unicode text).map fun (c, text) => (Utf8.encode c, text)
    else (unescape c).map fun b => ([b], text)

/-- The rest of a string, after its quotation mark. -/
def string : ℕ → Octets → Option (Octets × Octets)
  | 0, _ => none
  | _ + 1, [] => none
  | fuel + 1, b :: text =>
    if b = 0x22 then some ([], text)
    else if b = 0x5C then
      (escape text).bind fun (c, text) => (string fuel text).map fun (s, text) => (c ++ s, text)
    else if b < 0x20 then none
    else (string fuel text).map fun (s, text) => (b :: s, text)

/-- A fixed word. -/
def literal (word : Octets) (value : Json) (text : Octets) : Option (Json × Octets) :=
  if word <+: text then some (value, text.drop word.length) else none

/-- A key with its colon. -/
def name (text : Octets) : Option (Octets × Octets) :=
  match skipSpace text with
  | [] => none
  | b :: text =>
    if b = 0x22 then
      (string (text.length + 1) text).bind fun (key, text) =>
        match skipSpace text with
        | [] => none
        | b :: text => if b = 0x3A then some (key, text) else none
    else none

mutual

/-- A value. The fuel bounds the depth of the calls. -/
def value : ℕ → Octets → Option (Json × Octets)
  | 0, _ => none
  | fuel + 1, text =>
    match skipSpace text with
    | [] => none
    | b :: rest =>
      if b = 0x22 then (string (rest.length + 1) rest).map fun (s, rest) => (.str s, rest)
      else if b = 0x5B then
        if (skipSpace rest).head? = some 0x5D then some (.arr [], (skipSpace rest).tail)
        else (elements fuel rest).map fun (items, rest) => (.arr items, rest)
      else if b = 0x7B then
        if (skipSpace rest).head? = some 0x7D then some (.obj [], (skipSpace rest).tail)
        else (fields fuel rest).map fun (members, rest) => (.obj members, rest)
      else if b = 0x74 then literal [0x74, 0x72, 0x75, 0x65] (.bool true) (b :: rest)
      else if b = 0x66 then literal [0x66, 0x61, 0x6C, 0x73, 0x65] (.bool false) (b :: rest)
      else if b = 0x6E then literal [0x6E, 0x75, 0x6C, 0x6C] .null (b :: rest)
      else number (b :: rest)

/-- The elements of an array up to its end. -/
def elements : ℕ → Octets → Option (List Json × Octets)
  | 0, _ => none
  | fuel + 1, text =>
    (value fuel text).bind fun (item, text) =>
      match skipSpace text with
      | [] => none
      | b :: text =>
        if b = 0x2C then (elements fuel text).map fun (items, text) => (item :: items, text)
        else if b = 0x5D then some ([item], text)
        else none

/-- The members of an object up to its end. -/
def fields : ℕ → Octets → Option (List (Octets × Json) × Octets)
  | 0, _ => none
  | fuel + 1, text =>
    (name text).bind fun (key, text) =>
      (value fuel text).bind fun (item, text) =>
        match skipSpace text with
        | [] => none
        | b :: text =>
          if b = 0x2C then
            (fields fuel text).map fun (members, text) => ((key, item) :: members, text)
          else if b = 0x7D then some ([(key, item)], text)
          else none

end

/-- The value of a JSON text. -/
def parse (text : Octets) : Option Json :=
  if Utf8.Valid text then
    (value (2 * text.length + 1) text).bind fun (result, rest) =>
      if skipSpace rest = [] then some result else none
  else none

/-! ## The compact text of a value -/

/-- The octets that have an escape of one letter and need it. -/
def shorthand (b : UInt8) : Option UInt8 :=
  if b = 0x22 then some 0x22
  else if b = 0x5C then some 0x5C
  else if b = 0x08 then some 0x62
  else if b = 0x0C then some 0x66
  else if b = 0x0A then some 0x6E
  else if b = 0x0D then some 0x72
  else if b = 0x09 then some 0x74
  else none

def escaped (b : UInt8) : Octets :=
  match shorthand b with
  | some c => [0x5C, c]
  | none =>
    if b < 0x20 then
      [0x5C, 0x75, 0x30, 0x30, hexChar (b.toNat / 0x10), hexChar (b.toNat % 0x10)]
    else [b]

/-- A string in quotes. -/
def quote (s : Octets) : Octets := 0x22 :: (s.flatMap escaped ++ [0x22])

mutual

/-- The text of a value. -/
def render : Json → Octets
  | null => [0x6E, 0x75, 0x6C, 0x6C]
  | bool true => [0x74, 0x72, 0x75, 0x65]
  | bool false => [0x66, 0x61, 0x6C, 0x73, 0x65]
  | num mantissa exponent =>
    integer mantissa ++ if exponent = 0 then [] else 0x65 :: integer exponent
  | str s => quote s
  | arr items => 0x5B :: (renderItems items ++ [0x5D])
  | obj members => 0x7B :: (renderMembers members ++ [0x7D])

/-- The elements of an array, with commas between them. -/
def renderItems : List Json → Octets
  | [] => []
  | [item] => render item
  | item :: next :: rest => render item ++ 0x2C :: renderItems (next :: rest)

/-- The members of an object, with commas between them. -/
def renderMembers : List (Octets × Json) → Octets
  | [] => []
  | [(key, item)] => quote key ++ 0x3A :: render item
  | (key, item) :: next :: rest =>
    quote key ++ 0x3A :: (render item ++ 0x2C :: renderMembers (next :: rest))

end

theorem renderItems_cons_eq (item : Json) (items : List Json) :
    renderItems (item :: items) = render item ++ items.flatMap fun item => 0x2C :: render item := by
  induction items generalizing item with
  | nil => rw [renderItems, flatMap_nil, append_nil]
  | cons next items ih => rw [renderItems, ih, flatMap_cons, cons_append]

theorem renderMembers_cons_eq (key : Octets) (item : Json) (members : List (Octets × Json)) :
    renderMembers ((key, item) :: members) = quote key ++ 0x3A :: (render item ++
        members.flatMap fun (key, item) => 0x2C :: (quote key ++ 0x3A :: render item)) := by
  induction members generalizing key item with
  | nil => rw [renderMembers, flatMap_nil, append_nil]
  | cons next members ih =>
    rw [renderMembers, ih, flatMap_cons]
    simp only [append_assoc, cons_append]

/-! ## Numbers -/

section

variable {rest : Octets}

theorem takeWhile_digits {digits : Octets} (all : ∀ d ∈ digits, isDigit d = true)
    (stop : ∀ b ∈ rest.head?, isDigit b = false) :
    (digits ++ rest).takeWhile isDigit = digits ∧ (digits ++ rest).dropWhile isDigit = rest := by
  rw [takeWhile_append_of_pos all, dropWhile_append_of_pos all]
  cases rest with
  | nil => simp
  | cons b => simp [stop b rfl]

theorem isDigit_ofNat : ∀ d < 10, isDigit (UInt8.ofNat (0x30 + d)) = true := by decide

theorem toNat_digit : ∀ d < 10, (UInt8.ofNat (0x30 + d)).toNat - 0x30 = d := by decide

variable (n : ℕ)

theorem decimal_digits : ∀ d ∈ decimal n, isDigit d = true := by
  intro d member
  unfold decimal at member
  split at member
  · rw [mem_singleton.mp member]
    decide
  · obtain ⟨k, digit, rfl⟩ := mem_map.mp member
    exact isDigit_ofNat k (Nat.digits_lt_base (by decide) (mem_reverse.mp digit))

theorem decimal_ne_nil : decimal n ≠ [] := by
  unfold decimal
  split_ifs with positive
  · exact cons_ne_nil _ _
  · simp [Nat.digits_ne_nil_iff_ne_zero.mpr positive]

theorem length_decimal_le {m n : ℕ} (le : m ≤ n) : (decimal m).length ≤ (decimal n).length := by
  have positive := length_pos_of_ne_nil (decimal_ne_nil n)
  have digits := Nat.le_length_digits_le 10 m n le
  unfold decimal at positive ⊢
  split_ifs at positive ⊢ with zero
  · rfl
  · exact positive
  · omega
  · simpa using digits

theorem digitsValue_decimal : digitsValue (decimal n) = n := by
  unfold decimal
  split
  · rename_i zero
    rw [zero]
    decide
  have back : ((Nat.digits 10 n).map fun d => UInt8.ofNat (0x30 + d)).map
      (fun d => d.toNat - 0x30) = Nat.digits 10 n := by
    rw [map_map]
    refine (map_congr_left fun d member => ?_).trans (map_id _)
    exact toNat_digit d (Nat.digits_lt_base (by decide) member)
  rw [digitsValue, ← map_reverse, reverse_reverse, back, Nat.ofDigits_digits]

/-- A number does not begin with a zero, except zero itself. -/
theorem decimal_head : ¬ ((decimal n).head? = some 0x30 ∧ (decimal n).length ≠ 1) := by
  rintro ⟨head, long⟩
  unfold decimal at head long
  split_ifs at head with zero
  · exact long (by rw [if_pos zero]; rfl)
  have some := Nat.digits_ne_nil_iff_ne_zero (b := 10).mpr zero
  have last := Nat.getLast_digit_ne_zero 10 zero
  rw [List.head?_map, List.head?_reverse, List.getLast?_eq_some_getLast some, Option.map_some,
    Option.some_inj] at head
  have small := Nat.digits_lt_base (m := n) (by decide : 1 < 10) (getLast_mem some)
  have zero : ∀ d < 10, UInt8.ofNat (0x30 + d) = 0x30 → d = 0 := by decide
  exact last (zero _ small head)

theorem decimal_cons : ∃ d ds, decimal n = d :: ds ∧ isDigit d = true := by
  obtain ⟨d, ds, split⟩ := exists_cons_of_ne_nil (decimal_ne_nil n)
  exact ⟨d, ds, split, decimal_digits n d (split ▸ mem_cons_self)⟩

theorem integerPart_decimal (stop : ∀ b ∈ rest.head?, isDigit b = false) :
    integerPart (decimal n ++ rest) = some (decimal n, rest) := by
  obtain ⟨taken, left⟩ := takeWhile_digits (decimal_digits n) stop
  unfold integerPart
  rw [taken, left]
  exact if_neg (not_or.mpr ⟨decimal_ne_nil n, decimal_head n⟩)

variable {b : UInt8}

theorem isDigit_ne (digit : isDigit b = true) : b ≠ 0x2D ∧ b ≠ 0x2B := by
  constructor <;> rintro rfl <;> cases digit

variable (z : ℤ)

/-- The sign of a number, where no plus can stand and where one can. -/
theorem sign_integer : minus (integer z ++ rest) = (decide (z < 0), decimal z.natAbs ++ rest) ∧
      sign (integer z ++ rest) = (decide (z < 0), decimal z.natAbs ++ rest) := by
  obtain ⟨d, ds, split, digit⟩ := decimal_cons z.natAbs
  obtain ⟨minus, plus⟩ := isDigit_ne digit
  by_cases negative : z < 0
  · rw [integer, if_pos negative, decide_eq_true negative]
    exact ⟨rfl, rfl⟩
  · rw [integer, if_neg negative, decide_eq_false negative, split]
    exact ⟨if_neg minus, (if_neg minus).trans (if_neg plus)⟩

theorem signed_natAbs : signed (decide (z < 0)) z.natAbs = z := by
  unfold signed
  split_ifs with negative
  · have := of_decide_eq_true negative
    omega
  have := of_decide_eq_false (Bool.eq_false_iff.mpr negative)
  omega

/-- What stands behind a value: a comma, the end of an array or of an object, or nothing. -/
def Ends (rest : Octets) : Prop := ∀ b ∈ rest.head?, b = 0x2C ∨ b = 0x5D ∨ b = 0x7D

theorem Ends.stop (ends : Ends rest) : ∀ b ∈ rest.head?, isDigit b = false := by
  intro b head
  rcases ends b head with rfl | rfl | rfl <;> rfl

theorem exponentPart_render (exponent : ℤ) (ends : Ends rest) :
    exponentPart ((if exponent = 0 then [] else 0x65 :: integer exponent) ++ rest) =
      some (exponent, rest) := by
  split_ifs with zero
  · subst zero
    cases rest with
    | nil => rfl
    | cons b =>
      refine if_neg ?_
      rcases ends b rfl with rfl | rfl | rfl <;> decide
  · obtain ⟨taken, left⟩ := takeWhile_digits (decimal_digits exponent.natAbs) ends.stop
    rw [cons_append, exponentPart, if_pos (.inl rfl), (sign_integer _).2]
    rw [taken, left, if_neg (decimal_ne_nil _), digitsValue_decimal, signed_natAbs]

theorem fraction_none (stop : rest.head? ≠ some 0x2E) : fraction rest = some ([], rest) := by
  cases rest with
  | nil => rfl
  | cons => exact if_neg fun point => stop (congrArg some point)

theorem number_render (mantissa exponent : ℤ) (ends : Ends rest) :
    number (render (.num mantissa exponent) ++ rest) = some (.num mantissa exponent, rest) := by
  -- Behind the digits stands the exponent or the end.
  have behind : ∀ b ∈ ((if exponent = 0 then [] else 0x65 :: integer exponent) ++ rest).head?,
      isDigit b = false ∧ b ≠ 0x2E := by
    intro b head
    split at head
    · rcases ends b head with rfl | rfl | rfl <;> decide
    · obtain rfl : 0x65 = b := Option.some.inj head
      decide
  have point : ((if exponent = 0 then [] else 0x65 :: integer exponent) ++ rest).head? ≠
    some 0x2E :=
    fun head => (behind _ head).2 rfl
  unfold number
  rw [render, append_assoc, (sign_integer _).1]
  rw [integerPart_decimal _ fun b head => (behind b head).1, Option.bind_some]
  dsimp only
  rw [fraction_none point, Option.bind_some]
  rw [exponentPart_render exponent ends, Option.map_some, append_nil, digitsValue_decimal,
    signed_natAbs]
  simp

/-! ## Strings -/

theorem hexDigit_hexChar : ∀ n < 0x10, hexDigit (hexChar n) = some n := by decide

theorem shorthand_spec {c : UInt8} (short : shorthand b = some c) :
    unescape c = some b ∧ c ≠ 0x75 ∧ b < 0x80 ∧ c < 0x80 := by
  unfold shorthand at short
  repeat' (split at short)
  all_goals first
    | (rename_i same; cases short; subst same; decide)
    | cases short

theorem unicode_control (control : b < 0x20) (text : Octets) :
    unicode (0x30 :: 0x30 :: hexChar (b.toNat / 0x10) :: hexChar (b.toNat % 0x10) :: text) =
      some (b.toNat, text) := by
  have small : b.toNat < 0x20 := control
  have high := hexDigit_hexChar (b.toNat / 0x10) (by omega)
  have low := hexDigit_hexChar (b.toNat % 0x10) (by omega)
  have zero : hexDigit 0x30 = some 0 := rfl
  have digits :
      hex4 (0x30 :: 0x30 :: hexChar (b.toNat / 0x10) :: hexChar (b.toNat % 0x10) :: text) =
      some (b.toNat, text) := by
    rw [hex4, zero, high, low]
    simp only [Option.bind_some, Option.map_some, Option.some_inj, Prod.mk.injEq, and_true]
    omega
  rw [unicode, digits, Option.bind_some]
  dsimp only
  rw [if_neg (by omega), if_neg (by omega)]

/-- One octet of a string is read back. -/
theorem string_escaped (fuel : ℕ) (b : UInt8) (text : Octets) :
    string (fuel + 1) (escaped b ++ text) =
      (string fuel text).map fun (s, text) => (b :: s, text) := by
  unfold escaped
  split
  · rename_i c short
    obtain ⟨back, other, -⟩ := shorthand_spec short
    have read : escape (c :: text) = some ([b], text) := by
      rw [escape, if_neg other, back, Option.map_some]
    show string (fuel + 1) (0x5C :: c :: text) = _
    rw [string, if_neg (by decide), if_pos rfl, read, Option.bind_some]
    rfl
  rename_i plain
  split_ifs with control
  · have small : b.toNat < 0x20 := control
    have read : escape (0x75 :: 0x30 :: 0x30 :: hexChar (b.toNat / 0x10) ::
        hexChar (b.toNat % 0x10) :: text) = some ([b], text) := by
      rw [escape, if_pos rfl, unicode_control control, Option.map_some]
      dsimp only
      rw [Utf8.encode_ascii (by omega), UInt8.ofNat_toNat]
    show string (fuel + 1) (0x5C :: _ :: _ :: _ :: _ :: _ :: text) = _
    rw [string, if_neg (by decide), if_pos rfl, read, Option.bind_some]
    rfl
  have quote : b ≠ 0x22 := by
    rintro rfl
    cases plain
  have backslash : b ≠ 0x5C := by
    rintro rfl
    cases plain
  show string (fuel + 1) (b :: text) = _
  rw [string, if_neg quote, if_neg backslash, if_neg control]

variable (s : Octets)

theorem string_quoted (fuel : ℕ) (enough : s.length < fuel) :
    string fuel (s.flatMap escaped ++ 0x22 :: rest) = some (s, rest) := by
  induction s generalizing fuel with
  | nil =>
    obtain ⟨fuel, rfl⟩ := Nat.exists_eq_succ_of_ne_zero (Nat.ne_of_gt enough)
    rw [flatMap_nil, nil_append, string, if_pos rfl]
  | cons b s ih =>
    obtain ⟨fuel, rfl⟩ := Nat.exists_eq_succ_of_ne_zero (Nat.ne_zero_of_lt enough)
    rw [flatMap_cons, append_assoc, string_escaped, ih fuel (Nat.lt_of_succ_lt_succ enough),
      Option.map_some]

theorem length_escaped (b : UInt8) : 1 ≤ (escaped b).length := by
  unfold escaped
  split
  · exact Nat.le_add_left 1 1
  split
  · exact Nat.le_add_left 1 5
  · exact Nat.le_refl 1

theorem length_flatMap_escaped : s.length ≤ (s.flatMap escaped).length := by
  induction s with
  | nil => exact Nat.le_refl 0
  | cons b s ih =>
    have own := length_escaped b
    simp only [flatMap_cons, length_append, length_cons]
    omega

/-! ## Values -/

theorem skipSpace_cons (dense : isSpace b = false) (text : Octets) :
    skipSpace (b :: text) = b :: text := by
  unfold skipSpace
  rw [dropWhile_cons_of_neg (by rw [dense]; decide)]

/-- The octets with which no value begins. -/
def opens (b : UInt8) : Bool := !isSpace b && b != 0x5D && b != 0x7D

theorem opens_digit (digit : isDigit b = true) : opens b = true := by
  by_contra closed
  simp only [opens, isSpace, Bool.and_eq_true, Bool.not_eq_true', decide_eq_false_iff_not,
    bne_iff_ne, ne_eq, not_and_or, not_not] at closed
  rcases closed with ((rfl | rfl | rfl | rfl) | rfl) | rfl <;> cases digit

theorem opens_iff (first : opens b = true) : isSpace b = false ∧ b ≠ 0x5D ∧ b ≠ 0x7D := by
  simpa only [opens, Bool.and_eq_true, Bool.not_eq_true', bne_iff_ne, and_assoc] using first

theorem render_cons (value : Json) : ∃ b text, render value = b :: text ∧ opens b = true := by
  cases value with
  | null | str => exact ⟨_, _, rfl, rfl⟩
  | bool b => cases b <;> exact ⟨_, _, rfl, rfl⟩
  | num mantissa =>
    obtain ⟨d, ds, split, digit⟩ := decimal_cons mantissa.natAbs
    rw [render, integer]
    split
    · exact ⟨_, _, rfl, rfl⟩
    · rw [split]
      exact ⟨_, _, rfl, opens_digit digit⟩
  | arr | obj => exact ⟨_, _, by rw [render], rfl⟩

theorem integer_cons : ∃ b text, integer z = b :: text ∧ (b = 0x2D ∨ isDigit b = true) := by
  obtain ⟨d, ds, split, digit⟩ := decimal_cons z.natAbs
  unfold integer
  split
  · exact ⟨_, _, rfl, .inl rfl⟩
  · exact ⟨d, ds, split, .inr digit⟩

theorem value_number (first : b = 0x2D ∨ isDigit b = true) (fuel : ℕ) (text : Octets) :
    value (fuel + 1) (b :: text) = number (b :: text) := by
  have other (c : UInt8) (none : ¬ (c = 0x2D ∨ isDigit c = true)) : b ≠ c := by
    rintro rfl
    exact none first
  have dense : isSpace b = false := by
    rcases first with rfl | digit
    · rfl
    · exact (opens_iff (opens_digit digit)).1
  rw [value, skipSpace_cons dense]
  dsimp only
  rw [if_neg (other _ (by decide)), if_neg (other _ (by decide)), if_neg (other _ (by decide)),
    if_neg (other _ (by decide)), if_neg (other _ (by decide)), if_neg (other _ (by decide))]

theorem value_literal (word : Octets) (result : Json) (text : Octets) :
    literal word result (word ++ text) = some (result, text) := by
  rw [literal, if_pos (prefix_append word text), drop_left]

/-- The fuel is enough for a string. -/
theorem string_quote : let text := s.flatMap escaped ++ [0x22] ++ rest
    string (text.length + 1) text = some (s, rest) := by
  have long := length_flatMap_escaped s
  dsimp only
  rw [append_assoc, singleton_append, string_quoted s]
  simp only [length_append, length_cons]
  omega

theorem value_quote (fuel : ℕ) : value (fuel + 1) (quote s ++ rest) = some (.str s, rest) := by
  show value (fuel + 1) (0x22 :: (s.flatMap escaped ++ [0x22] ++ rest)) = _
  rw [value, skipSpace_cons rfl]
  dsimp only
  rw [if_pos rfl, string_quote, Option.map_some]

theorem name_quote (key : Octets) : name (quote key ++ 0x3A :: rest) = some (key, rest) := by
  show name (0x22 :: (key.flatMap escaped ++ [0x22] ++ 0x3A :: rest)) = _
  rw [name, skipSpace_cons rfl]
  dsimp only
  rw [if_pos rfl, string_quote, Option.bind_some]
  exact if_pos rfl

variable (text : Octets)

theorem Ends.comma : Ends (0x2C :: text) := fun _ head => .inl (Option.some.inj head).symm

theorem Ends.bracket : Ends (0x5D :: text) := fun _ head => .inr (.inl (Option.some.inj head).symm)

theorem Ends.brace : Ends (0x7D :: text) := fun _ head => .inr (.inr (Option.some.inj head).symm)

theorem renderItems_cons (item : Json) (items : List Json) :
    ∃ b text, renderItems (item :: items) = b :: text ∧ opens b = true := by
  obtain ⟨b, text, first, opened⟩ := render_cons item
  cases items with
  | nil => exact ⟨b, text, by rw [renderItems, first], opened⟩
  | cons =>
    rw [renderItems, first]
    exact ⟨b, _, rfl, opened⟩

/-- The parser reads back what fits its fuel. -/
structure Reads (fuel : ℕ) : Prop where
  value : ∀ item rest, Ends rest → 2 * (render item).length ≤ fuel →
    value fuel (render item ++ rest) = some (item, rest)
  elements : ∀ item items rest, 2 * (renderItems (item :: items)).length + 1 ≤ fuel →
    elements fuel (renderItems (item :: items) ++ 0x5D :: rest) = some (item :: items, rest)
  fields : ∀ member members rest, 2 * (renderMembers (member :: members)).length + 1 ≤ fuel →
    fields fuel (renderMembers (member :: members) ++ 0x7D :: rest) = some (member :: members, rest)

namespace Reads

variable {fuel : ℕ}

theorem value_succ (reads : Reads fuel) (item : Json) (ends : Ends rest)
    (enough : 2 * (render item).length ≤ fuel + 1) :
    Json.value (fuel + 1) (render item ++ rest) = some (item, rest) := by
  cases item with
  | null => exact value_literal [0x6E, 0x75, 0x6C, 0x6C] .null rest
  | bool b =>
    cases b with
    | true => exact value_literal [0x74, 0x72, 0x75, 0x65] (.bool true) rest
    | false => exact value_literal [0x66, 0x61, 0x6C, 0x73, 0x65] (.bool false) rest
  | num mantissa exponent =>
    obtain ⟨b, text, split, first⟩ := integer_cons mantissa
    have read := number_render mantissa exponent ends
    rw [render, split] at read ⊢
    rw [cons_append, cons_append] at read ⊢
    rw [value_number first, read]
  | str s => exact value_quote s fuel
  | arr items =>
    rw [render] at enough ⊢
    cases items with
    | nil => rfl
    | cons item items =>
      obtain ⟨b, text, first, opened⟩ := renderItems_cons item items
      obtain ⟨dense, bracket, -⟩ := opens_iff opened
      have inner := reads.elements item items rest (by
        simp only [length_cons, length_append, length_nil] at enough
        omega)
      rw [cons_append, append_assoc, singleton_append, Json.value, skipSpace_cons rfl]
      rw [first, cons_append] at inner ⊢
      dsimp only
      rw [if_neg (by decide), if_pos rfl, skipSpace_cons dense, List.head?_cons,
        if_neg (fun same => bracket (Option.some.inj same)), inner, Option.map_some]
  | obj members =>
    rw [render] at enough ⊢
    cases members with
    | nil => rfl
    | cons member members =>
      obtain ⟨text, first⟩ : ∃ text, renderMembers (member :: members) = 0x22 :: text := by
        cases members with
        | nil | cons => exact ⟨_, by rw [renderMembers]; rfl⟩
      have inner := reads.fields member members rest (by
        simp only [length_cons, length_append, length_nil] at enough
        omega)
      rw [cons_append, append_assoc, singleton_append, Json.value, skipSpace_cons rfl]
      rw [first, cons_append] at inner ⊢
      dsimp only
      rw [if_neg (by decide), if_neg (by decide), if_pos rfl, skipSpace_cons rfl, List.head?_cons,
        if_neg (by decide), inner, Option.map_some]

theorem elements_succ (reads : Reads fuel) (item : Json) (items : List Json)
    (enough : 2 * (renderItems (item :: items)).length + 1 ≤ fuel + 1) :
    Json.elements (fuel + 1) (renderItems (item :: items) ++ 0x5D :: rest) =
      some (item :: items, rest) := by
  cases items with
  | nil =>
    rw [renderItems] at enough ⊢
    rw [Json.elements, reads.value item _ (.bracket rest) (by omega), Option.bind_some]
    rfl
  | cons next items =>
    rw [renderItems] at enough ⊢
    simp only [length_cons, length_append] at enough
    rw [Json.elements, append_assoc, cons_append, reads.value item _ (.comma _) (by omega),
      Option.bind_some]
    dsimp only
    rw [skipSpace_cons rfl]
    dsimp only
    rw [if_pos rfl, reads.elements next items rest (by omega), Option.map_some]

theorem fields_succ (reads : Reads fuel) (member : Octets × Json) (members : List (Octets × Json))
    (enough : 2 * (renderMembers (member :: members)).length + 1 ≤ fuel + 1) :
    Json.fields (fuel + 1) (renderMembers (member :: members) ++ 0x7D :: rest) =
      some (member :: members, rest) := by
  obtain ⟨key, item⟩ := member
  cases members with
  | nil =>
    rw [renderMembers] at enough ⊢
    simp only [length_cons, length_append] at enough
    rw [Json.fields, append_assoc, cons_append, name_quote, Option.bind_some]
    dsimp only
    rw [reads.value item _ (.brace rest) (by omega), Option.bind_some]
    rfl
  | cons next members =>
    rw [renderMembers] at enough ⊢
    simp only [length_cons, length_append] at enough
    rw [Json.fields, append_assoc, cons_append, name_quote, Option.bind_some]
    dsimp only
    rw [append_assoc, cons_append, reads.value item _ (.comma _) (by omega), Option.bind_some]
    rw [skipSpace_cons rfl]
    dsimp only
    rw [if_pos rfl, reads.fields next members rest (by omega), Option.map_some]

end Reads

theorem reads (fuel : ℕ) : Reads fuel := by
  induction fuel with
  | zero =>
    refine ⟨fun item rest _ enough => ?_, nofun, nofun⟩
    obtain ⟨b, text, first, -⟩ := render_cons item
    rw [first] at enough
    exact absurd enough (Nat.not_succ_le_zero _)
  | succ fuel ih =>
    exact ⟨fun item rest ends enough => ih.value_succ item ends enough,
      fun item items rest enough => ih.elements_succ item items enough,
      fun member members rest enough => ih.fields_succ member members enough⟩

end

/-! ## Well-formed texts -/

mutual

/-- The strings of a value, names included. -/
def strings : Json → List Octets
  | null => []
  | bool _ => []
  | num _ _ => []
  | str s => [s]
  | arr items => stringsItems items
  | obj members => stringsMembers members

def stringsItems : List Json → List Octets
  | [] => []
  | item :: items => strings item ++ stringsItems items

def stringsMembers : List (Octets × Json) → List Octets
  | [] => []
  | (key, item) :: members => key :: (strings item ++ stringsMembers members)

end

section

open Utf8

variable {rest : Octets}

theorem hexChar_ascii : ∀ n < 0x10, hexChar n < 0x80 := by decide

/-- An escape is ASCII, and so is what it stands for. -/
theorem escaped_cases (b : UInt8) :
    escaped b = [b] ∨ b < 0x80 ∧ escaped b ≠ [] ∧ ∀ c ∈ escaped b, c < 0x80 := by
  unfold escaped
  split
  · rename_i c short
    obtain ⟨-, -, ascii, ascii'⟩ := shorthand_spec short
    refine .inr ⟨ascii, cons_ne_nil _ _, ?_⟩
    simp only [mem_cons, not_mem_nil, or_false]
    rintro d (rfl | rfl)
    · decide
    · exact ascii'
  split
  · rename_i control
    have small : b.toNat < 0x20 := control
    refine .inr ⟨UInt8.lt_trans control (by decide), cons_ne_nil _ _, ?_⟩
    simp only [mem_cons, not_mem_nil, or_false]
    rintro d (rfl | rfl | rfl | rfl | rfl | rfl)
    · decide
    · decide
    · decide
    · decide
    · exact hexChar_ascii _ (by omega)
    · exact hexChar_ascii _ (by omega)
  · exact .inl rfl

theorem run_escaped (owed : Owed) (b : UInt8) : run owed (escaped b) = step owed b := by
  rcases escaped_cases b with plain | ⟨ascii, nonempty, all⟩
  · rw [plain, run_cons]
    exact bind_pure (step owed b)
  · rw [run_of_ascii all nonempty, step_of_ascii ascii]

theorem run_flatMap_escaped (s : Octets) (owed : Owed) :
    run owed (s.flatMap escaped) = run owed s := by
  induction s generalizing owed with
  | nil => rfl
  | cons b s ih =>
    rw [flatMap_cons, run_append, run_escaped, run_cons]
    exact congrArg _ (funext ih)

theorem valid_quote (s : Octets) : Valid (quote s ++ rest) ↔ Valid s ∧ Valid rest := by
  show Valid (0x22 :: (s.flatMap escaped ++ [0x22] ++ rest)) ↔ _
  rw [Valid.cons_iff (by decide), append_assoc, singleton_append, Valid.append_cons_iff (by decide)]
  unfold Valid
  rw [run_flatMap_escaped]

theorem decimal_ascii (n : ℕ) : ∀ b ∈ decimal n, b < 0x80 := by
  intro b member
  have digit := decimal_digits n b member
  simp only [isDigit, decide_eq_true_eq] at digit
  exact UInt8.lt_of_le_of_lt digit.2 (by decide)

theorem integer_ascii (z : ℤ) : ∀ b ∈ integer z, b < 0x80 := by
  intro b member
  unfold integer at member
  split at member
  · rcases mem_cons.mp member with rfl | member
    · decide
    · exact decimal_ascii _ b member
  · exact decimal_ascii _ b member

theorem num_ascii (mantissa exponent : ℤ) : ∀ b ∈ render (.num mantissa exponent), b < 0x80 := by
  intro b member
  rcases mem_append.mp member with mantissa | exponent
  · exact integer_ascii _ b mantissa
  split at exponent
  · cases exponent
  rcases mem_cons.mp exponent with rfl | digits
  · decide
  · exact integer_ascii _ b digits

mutual

/-- The compact text of a value is well formed exactly when its strings are. -/
theorem valid_render : ∀ (item : Json) (rest : Octets),
    Valid (render item ++ rest) ↔ (∀ s ∈ strings item, Valid s) ∧ Valid rest
  | .null, rest | .bool true, rest | .bool false, rest => by
    rw [render, Valid.append_iff (.of_ascii (by decide +kernel)), strings]
    simp
  | .num mantissa exponent, rest => by
    rw [Valid.append_iff (.of_ascii (num_ascii mantissa exponent)), strings]
    simp
  | .str s, rest => by
    rw [render, valid_quote, strings]
    simp
  | .arr items, rest => by
    rw [render, cons_append, Valid.cons_iff (by decide), append_assoc, valid_renderItems items,
      singleton_append, Valid.cons_iff (by decide), strings]
  | .obj members, rest => by
    rw [render, cons_append, Valid.cons_iff (by decide), append_assoc, valid_renderMembers members,
      singleton_append, Valid.cons_iff (by decide), strings]

theorem valid_renderItems : ∀ (items : List Json) (rest : Octets),
    Valid (renderItems items ++ rest) ↔ (∀ s ∈ stringsItems items, Valid s) ∧ Valid rest
  | [], rest => by
    rw [renderItems, stringsItems]
    simp
  | [item], rest => by rw [renderItems, valid_render item, stringsItems, stringsItems, append_nil]
  | item :: next :: items, rest => by
    rw [renderItems, append_assoc, valid_render item, cons_append, Valid.cons_iff (by decide),
      valid_renderItems (next :: items)]
    simp only [stringsItems, mem_append, or_imp, forall_and, and_assoc]

theorem valid_renderMembers : ∀ (members : List (Octets × Json)) (rest : Octets),
    Valid (renderMembers members ++ rest) ↔ (∀ s ∈ stringsMembers members, Valid s) ∧ Valid rest
  | [], rest => by
    rw [renderMembers, stringsMembers]
    simp
  | [(key, item)], rest => by
    rw [renderMembers, append_assoc, valid_quote, cons_append, Valid.cons_iff (by decide),
      valid_render item, stringsMembers, stringsMembers]
    simp only [append_nil, mem_cons, forall_eq_or_imp, and_assoc]
  | (key, item) :: next :: members, rest => by
    rw [renderMembers, append_assoc, valid_quote, cons_append, Valid.cons_iff (by decide),
      append_assoc, valid_render item, cons_append, Valid.cons_iff (by decide),
      valid_renderMembers (next :: members)]
    simp only [stringsMembers, mem_cons, mem_append, forall_eq, or_imp, forall_and, and_assoc]

end

/-- **The round trip.** The compact text of a value is accepted exactly when the strings of the
value are well-formed UTF-8, and then it is read as the value. -/
theorem parse_render (item : Json) :
    parse (render item) = if ∀ s ∈ strings item, Valid s then some item else none := by
  have valid := valid_render item []
  have read := (reads (2 * (render item).length + 1)).value item [] nofun (Nat.le_succ _)
  rw [append_nil] at valid read
  unfold parse
  simp only [valid, Valid.nil, and_true]
  split
  · rw [read, Option.bind_some]
    rfl
  · rfl

end

/-! ## Well-formed values -/

variable {s : Octets} {members : List (Octets × Json)} {items : List Json}

theorem mem_stringsItems : s ∈ stringsItems items ↔ ∃ item ∈ items, s ∈ strings item := by
  induction items with
  | nil => simp only [stringsItems, not_mem_nil, false_and, exists_false]
  | cons item items ih => simp only [stringsItems, mem_append, ih, exists_mem_cons_iff]

theorem mem_stringsMembers :
    s ∈ stringsMembers members ↔ ∃ m ∈ members, s = m.1 ∨ s ∈ strings m.2 := by
  induction members with
  | nil => simp only [stringsMembers, not_mem_nil, false_and, exists_false]
  | cons m members ih =>
    rw [stringsMembers, mem_cons, mem_append, ih, exists_mem_cons_iff, or_assoc]

/-- A value all of whose strings are well-formed. -/
def WellFormed (item : Json) : Prop := ∀ s ∈ strings item, Utf8.Valid s

theorem wellFormed_bool (b : Bool) : WellFormed (.bool b) := by
  intro s mem
  cases mem

theorem wellFormed_num (mantissa exponent : ℤ) : WellFormed (.num mantissa exponent) := by
  intro s mem
  cases mem

theorem wellFormed_str : WellFormed (.str s) ↔ Utf8.Valid s := by
  rw [WellFormed, strings, forall_mem_singleton]

theorem wellFormed_arr : WellFormed (.arr items) ↔ ∀ item ∈ items, WellFormed item := by
  simp only [WellFormed, strings, mem_stringsItems, forall_exists_index, and_imp]
  exact ⟨fun all item mem s here => all s item mem here,
    fun all s item mem here => all item mem s here⟩

theorem wellFormed_obj :
    WellFormed (.obj members) ↔ ∀ m ∈ members, Utf8.Valid m.1 ∧ WellFormed m.2 := by
  simp only [WellFormed, strings, mem_stringsMembers, forall_exists_index, and_imp]
  constructor
  · intro all m mem
    exact ⟨all m.1 m mem (.inl rfl), fun s here => all s m mem (.inr here)⟩
  intro all s m mem here
  rcases here with rfl | here
  · exact (all m mem).1
  · exact (all m mem).2 s here

/-! ## Lengths -/

theorem length_le_quote (s : Octets) : s.length ≤ (quote s).length := by
  have octets := length_flatMap_escaped s
  rw [quote, length_cons, length_append]
  omega

mutual

/-- The text of a value is at least as long as its strings together. -/
theorem length_strings_le : ∀ item : Json, (strings item).flatten.length ≤ (render item).length
  | .null | .bool _ | .num _ _ => by exact Nat.zero_le _
  | .str s => by
    rw [strings, render, flatten_singleton]
    exact length_le_quote s
  | .arr items => by
    have inside := length_stringsItems_le items
    rw [strings, render, length_cons, length_append]
    omega
  | .obj members => by
    have inside := length_stringsMembers_le members
    rw [strings, render, length_cons, length_append]
    omega

theorem length_stringsItems_le : ∀ items : List Json,
    (stringsItems items).flatten.length ≤ (renderItems items).length
  | [] => Nat.zero_le _
  | [item] => by
    rw [stringsItems, stringsItems, append_nil, renderItems]
    exact length_strings_le item
  | item :: next :: items => by
    have own := length_strings_le item
    have others := length_stringsItems_le (next :: items)
    rw [stringsItems, renderItems, flatten_append, length_append, length_append, length_cons]
    omega

theorem length_stringsMembers_le : ∀ members : List (Octets × Json),
    (stringsMembers members).flatten.length ≤ (renderMembers members).length
  | [] => Nat.zero_le _
  | [(key, item)] => by
    have name := length_le_quote key
    have own := length_strings_le item
    simp only [stringsMembers, renderMembers, append_nil, flatten_cons, length_append, length_cons]
    omega
  | (key, item) :: next :: members => by
    have name := length_le_quote key
    have own := length_strings_le item
    have others := length_stringsMembers_le (next :: members)
    rw [stringsMembers, renderMembers]
    simp only [flatten_cons, flatten_append, length_append, length_cons]
    omega

end

/-! ## Tight texts -/

section

variable {text rest s key : Octets} {fuel : ℕ}

theorem length_hex4 {c : ℕ} (read : hex4 text = some (c, rest)) :
    rest.length + 4 = text.length := by
  match text, read with
  | a :: b :: c :: d :: text, read =>
    obtain ⟨_, -, read⟩ := Option.bind_eq_some_iff.mp read
    obtain ⟨_, -, read⟩ := Option.bind_eq_some_iff.mp read
    obtain ⟨_, -, read⟩ := Option.bind_eq_some_iff.mp read
    obtain ⟨_, -, same⟩ := Option.map_eq_some_iff.mp read
    cases same
    rfl

theorem length_unicode {c : ℕ} (read : unicode text = some (c, rest)) :
    rest.length + 4 ≤ text.length := by
  obtain ⟨⟨high, text'⟩, first, read⟩ := Option.bind_eq_some_iff.mp read
  have four := length_hex4 first
  dsimp only at read
  split_ifs at read
  · obtain ⟨⟨low, text''⟩, second, same⟩ := Option.map_eq_some_iff.mp read
    obtain ⟨-, rfl⟩ := Prod.mk.inj same
    match text', second with
    | b :: u :: text', second =>
      obtain ⟨-, digits⟩ := Option.ite_none_right_eq_some.mp second
      obtain ⟨⟨d, behind⟩, digits, same⟩ := Option.bind_eq_some_iff.mp digits
      have more := length_hex4 digits
      obtain ⟨-, same⟩ := Option.ite_none_right_eq_some.mp same
      cases same
      simp only [length_cons] at four more ⊢
      omega
  · cases read
    omega

/-- An escape is longer than what it stands for, with its backslash. -/
theorem length_escape (read : escape text = some (s, rest)) :
    s.length + rest.length ≤ text.length := by
  match text, read with
  | c :: text, read =>
    rw [escape] at read
    split_ifs at read
    · obtain ⟨⟨c, text'⟩, read, same⟩ := Option.map_eq_some_iff.mp read
      cases same
      have four := length_unicode read
      have most : (Utf8.encode c).length ≤ 4 := by
        unfold Utf8.encode
        split_ifs <;> simp
      rw [length_cons]
      omega
    obtain ⟨b, -, same⟩ := Option.map_eq_some_iff.mp read
    cases same
    simp only [length_cons, length_nil]
    omega

/-- A string that is as long as its text allows has no escapes. -/
theorem length_string (read : string fuel text = some (s, rest)) :
    s.length + 1 + rest.length ≤ text.length ∧
      (text.length ≤ s.length + 1 + rest.length → ∀ b ∈ s, 0x20 ≤ b ∧ b ≠ 0x5C) := by
  fun_induction string fuel text generalizing s with
  | case1 | case2 | case5 => cases read
  | case3 =>
    cases read
    exact ⟨by simp; omega, nofun⟩
  | case4 fuel text _ ih =>
    obtain ⟨⟨c, text'⟩, escaped, read⟩ := Option.bind_eq_some_iff.mp read
    obtain ⟨⟨more, _⟩, read, same⟩ := Option.map_eq_some_iff.mp read
    cases same
    have shorter := length_escape escaped
    have length := (ih _ read).1
    rw [length_append, length_cons]
    exact ⟨by omega, fun tight => by omega⟩
  | case6 fuel b text _ other control ih =>
    obtain ⟨⟨more, _⟩, read, same⟩ := Option.map_eq_some_iff.mp read
    cases same
    obtain ⟨length, plain⟩ := ih read
    rw [length_cons, length_cons, forall_mem_cons]
    exact ⟨by omega, fun tight => ⟨⟨UInt8.not_lt.mp control, other⟩, plain (by omega)⟩⟩

theorem length_skipSpace {b : UInt8} (start : skipSpace text = b :: rest) :
    rest.length + 1 ≤ text.length := by
  rw [← length_cons, ← start]
  exact (dropWhile_suffix _).length_le

theorem length_name (read : name text = some (key, rest)) :
    key.length + 3 + rest.length ≤ text.length := by
  unfold name at read
  split at read
  · cases read
  rename_i start
  obtain ⟨-, read⟩ := Option.ite_none_right_eq_some.mp read
  obtain ⟨⟨key', text'⟩, quoted, read⟩ := Option.bind_eq_some_iff.mp read
  dsimp only at read
  split at read
  · cases read
  rename_i behind
  obtain ⟨-, same⟩ := Option.ite_none_right_eq_some.mp read
  cases same
  have blanks := length_skipSpace start
  have length := (length_string quoted).1
  have blanks' := length_skipSpace behind
  omega

theorem length_value_str (read : value fuel text = some (.str s, rest)) :
    s.length + 2 + rest.length ≤ text.length ∧
      (text.length ≤ s.length + 2 + rest.length → ∀ b ∈ s, 0x20 ≤ b ∧ b ≠ 0x5C) := by
  cases fuel with
  | zero => cases read
  | succ fuel =>
    rw [value] at read
    split at read
    · cases read
    rename_i start
    have blanks := length_skipSpace start
    split_ifs at read
    · obtain ⟨⟨s', rest'⟩, quoted, same⟩ := Option.map_eq_some_iff.mp read
      obtain ⟨length, plain⟩ := length_string quoted
      cases same
      exact ⟨by omega, fun tight => plain (by omega)⟩
    all_goals simp [literal, number, Option.bind_eq_some_iff] at read

/-- The members of an object whose values are strings. -/
def texts (members : List (Octets × Octets)) : List (Octets × Json) :=
  members.map fun (key, s) => (key, .str s)

/-- The octets of the members without blanks and escapes, each with what stands behind it. -/
def tightLength (members : List (Octets × Octets)) : ℕ :=
  (members.map fun (key, s) => key.length + s.length + 6).sum

theorem length_fields {members : List (Octets × Octets)}
    (read : fields fuel text = some (texts members, rest)) :
    tightLength members + rest.length ≤ text.length ∧
      (text.length ≤ tightLength members + rest.length →
        ∀ member ∈ members, ∀ b ∈ member.2, 0x20 ≤ b ∧ b ≠ 0x5C) := by
  induction fuel generalizing text members with
  | zero => cases read
  | succ fuel ih =>
    obtain ⟨⟨key, text₁⟩, named, read⟩ := Option.bind_eq_some_iff.mp read
    obtain ⟨⟨item, text₂⟩, valued, read⟩ := Option.bind_eq_some_iff.mp read
    have first := length_name named
    dsimp only at read
    split at read
    · cases read
    rename_i start
    have blanks := length_skipSpace start
    split_ifs at read
    · obtain ⟨⟨more, _⟩, others, same⟩ := Option.map_eq_some_iff.mp read
      obtain ⟨same, rfl⟩ := Prod.mk.inj same
      cases members with
      | nil => cases same
      | cons member members =>
        cases same
        obtain ⟨second, plain⟩ := length_value_str valued
        obtain ⟨third, plain'⟩ := ih others
        simp only [tightLength, map_cons, sum_cons, forall_mem_cons] at third plain' ⊢
        exact ⟨by omega, fun tight => ⟨plain (by omega), plain' (by omega)⟩⟩
    obtain ⟨same, rfl⟩ := Prod.mk.inj (Option.some.inj read)
    obtain ⟨⟨key', s⟩, rfl, same⟩ := map_eq_singleton_iff.mp same.symm
    cases same
    obtain ⟨second, plain⟩ := length_value_str valued
    simp only [tightLength, map_cons, map_nil, sum_cons, sum_nil, forall_mem_singleton]
    exact ⟨by omega, fun tight => plain (by omega)⟩

/-- **Tight texts.** If the text of an object with strings is no longer than its members need, the
strings stand in it without escapes. -/
theorem parse_tight {members : List (Octets × Octets)}
    (read : parse text = some (.obj (texts members)))
    (tight : text.length ≤ tightLength members + 1) :
    ∀ member ∈ members, ∀ b ∈ member.2, 0x20 ≤ b ∧ b ≠ 0x5C := by
  obtain ⟨-, read⟩ := Option.ite_none_right_eq_some.mp read
  obtain ⟨⟨result, rest⟩, read, same⟩ := Option.bind_eq_some_iff.mp read
  obtain ⟨-, same⟩ := Option.ite_none_right_eq_some.mp same
  cases same
  rw [value] at read
  split at read
  · cases read
  rename_i start
  have blanks := length_skipSpace start
  split_ifs at read
  · simp at read
  · simp at read
  · simp at read
  · have none := congrArg Prod.fst (Option.some.inj read)
    rw [Json.obj.injEq, texts, nil_eq, map_eq_nil_iff] at none
    exact none ▸ nofun
  · obtain ⟨⟨members', rest'⟩, fields, same⟩ := Option.map_eq_some_iff.mp read
    cases same
    exact (length_fields fields).2 (by omega)
  all_goals simp [literal, number, Option.bind_eq_some_iff] at read

end

end Json

end Strimserver.Library
