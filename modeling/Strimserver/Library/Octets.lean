import Mathlib.Data.Nat.Digits.Defs

/-!
# Strings of octets

The strings of the programs, and the classes and digits of ASCII that several of them need.
-/

namespace Strimserver

/-- A string of octets. -/
abbrev Octets := List UInt8

/-- The octets of an ASCII text. -/
def ascii (s : String) : Octets := s.toList.map fun c => UInt8.ofNat c.toNat

/-- White space, as `isspace` has it in the C locale. -/
def isSpace (c : UInt8) : Bool := c = 0x20 ∨ (0x09 ≤ c ∧ c ≤ 0x0D)

/-- A decimal digit. -/
def isDigit (b : UInt8) : Bool := 0x30 ≤ b ∧ b ≤ 0x39

/-- The number of decimal digits. -/
def digitsValue (digits : Octets) : ℕ :=
  Nat.ofDigits 10 (digits.reverse.map fun d => d.toNat - 0x30)

/-- The decimal text of a number, `%u`. -/
def decimal (n : ℕ) : Octets :=
  if n = 0 then [0x30] else (Nat.digits 10 n).reverse.map fun d => UInt8.ofNat (0x30 + d)

/-- The decimal text of an integer, `%lld`. -/
def integer (z : ℤ) : Octets := if z < 0 then 0x2D :: decimal z.natAbs else decimal z.natAbs

/-- A lower-case hexadecimal digit. -/
def hexChar (n : ℕ) : UInt8 := UInt8.ofNat (if n < 10 then 0x30 + n else 0x57 + n)

end Strimserver
