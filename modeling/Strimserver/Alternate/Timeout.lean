import Strimserver.Library.Json

/-!
# The deadline of a request

The alternate controller sends the timeout of a connection in `grpc-timeout`, in at most
eight digits and a unit. `format_grpc_timeout` tries the units from the coarsest on and
takes the first in which the value fits. That is always the hour, since 64 bits of
nanoseconds are less than 99999999 hours. `timeout_denoted_iff` says for which timeouts the
header is as exact as gRPC allows all the same.
-/

namespace Strimserver.Alternate

open Library

/-! ## Writing -/

/-- The units of gRPC in nanoseconds, in the order of the code. -/
def units : List (UInt8 × ℕ) :=
  [(0x48, 3600000000000), (0x4D, 60000000000), (0x53, 1000000000), (0x6D, 1000000), (0x75, 1000),
    (0x6E, 1)]

/-- The loop of `format_grpc_timeout`. -/
def formatUnits (ns cap : ℕ) : List (UInt8 × ℕ) → Option (List UInt8)
  | [] => none
  | (unit, div) :: rest =>
    let v := ns / div
    if v ≤ 99999999 then
      let text := decimal v ++ [unit]
      if text.length < cap then some text else none
    else formatUnits ns cap rest

/-- `format_grpc_timeout`. -/
def formatGrpcTimeout (ns cap : ℕ) : Option (List UInt8) := formatUnits ns cap units

/-- The part of `build_request_headers` for the timeout: whether it succeeds, and the value
of `grpc-timeout` if there is one. -/
def timeoutField (ns : ℕ) : Option (Option (List UInt8)) :=
  if 0 < ns then (formatGrpcTimeout ns 16).map some else some none

/-! ## Reading -/

/-- The duration that a value of `grpc-timeout` denotes: up to eight digits and a unit. -/
def readTimeout (text : List UInt8) : Option ℕ :=
  let digits := text.takeWhile isDigit
  match text.dropWhile isDigit with
  | [unit] =>
    if digits ≠ [] ∧ digits.length ≤ 8 then (units.lookup unit).map (digitsValue digits * ·)
    else none
  | _ => none

/-- The finest unit in which a timeout fits in eight digits. -/
def finestUnit (ns : ℕ) : ℕ :=
  ((units.reverse.find? fun unit => ns / unit.2 ≤ 99999999).map Prod.snd).getD 0

/-! ## The hours -/

theorem length_decimal_le {n : ℕ} (small : n ≤ 99999999) : (decimal n).length ≤ 8 := by
  unfold decimal
  split
  · decide
  · rw [List.length_map, List.length_reverse, Nat.digits_length_le_iff (by decide)]
    omega

theorem formatGrpcTimeout_hours {ns : ℕ} (bounded : ns < 2 ^ 64) :
    formatGrpcTimeout ns 16 = some (decimal (ns / 3600000000000) ++ [0x48]) := by
  have fits : ns / 3600000000000 ≤ 99999999 := by omega
  have short := length_decimal_le fits
  refine (if_pos fits).trans (if_pos ?_)
  rw [List.length_append, List.length_singleton]
  omega

theorem readTimeout_hours {v : ℕ} (small : v ≤ 99999999) :
    readTimeout (decimal v ++ [0x48]) = some (v * 3600000000000) := by
  have stop : ∀ b ∈ [(0x48 : UInt8)].head?, isDigit b = false := by
    rintro _ ⟨⟩
    rfl
  obtain ⟨taken, left⟩ := Json.takeWhile_digits (Json.decimal_digits v) stop
  unfold readTimeout
  rw [taken, left]
  dsimp only
  rw [if_pos ⟨Json.decimal_ne_nil v, length_decimal_le small⟩, Json.digitsValue_decimal]
  rfl

/-- **The timeout that is sent** denotes the one that was set, as exactly as gRPC allows, just if it
is at least an hour and exceeds whole hours by less than one of the finest units. -/
theorem timeout_denoted_iff (ns : ℕ) (positive : 0 < ns) (bounded : ns < 2 ^ 64) :
    (∃ text d, timeoutField ns = some (some text) ∧ readTimeout text = some d ∧
        0 < d ∧ d ≤ ns ∧ ns - d < finestUnit ns) ↔
      3600000000000 ≤ ns ∧ ns % 3600000000000 < finestUnit ns := by
  have field : timeoutField ns = some (some (decimal (ns / 3600000000000) ++ [0x48])) := by
    rw [timeoutField, if_pos positive, formatGrpcTimeout_hours bounded, Option.map_some]
  have read := readTimeout_hours (v := ns / 3600000000000) (by omega)
  constructor
  · rintro ⟨text, d, written, denoted, more, -, close⟩
    rw [field] at written
    cases written
    rw [read] at denoted
    cases denoted
    omega
  · rintro ⟨hour, close⟩
    exact ⟨_, _, field, read, by omega, by omega, by omega⟩

/-- An hour is sent as it is. -/
theorem oneHour_denoted :
    ∃ text d, timeoutField 3600000000000 = some (some text) ∧ readTimeout text = some d ∧
      0 < d ∧ d ≤ 3600000000000 ∧ 3600000000000 - d < finestUnit 3600000000000 :=
  (timeout_denoted_iff 3600000000000 (by decide) (by decide)).mpr ⟨le_rfl, by decide⟩

/-- A second is sent as no hours. -/
theorem oneSecond_lost :
    timeoutField 1000000000 = some (some [0x30, 0x48]) ∧ readTimeout [0x30, 0x48] = some 0 := by
  refine ⟨?_, by decide⟩
  rw [timeoutField, if_pos (by decide), formatGrpcTimeout_hours (by decide)]
  rfl

end Strimserver.Alternate
