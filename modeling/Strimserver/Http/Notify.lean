import Strimserver.Library.Octets
import Strimserver.Library.Json

/-!
# The notifications of the media server

`notify.c` posts an event to the controller. It writes the JSON text of the event around its
two arguments without escaping them, behind a check that refuses three octets. A backslash
and the other control characters pass the check, and so the text is the event's only when
the arguments have none of them.
-/

namespace Strimserver.Http

open Library

/-- `is_json_safe`. -/
def isJsonSafe (value : Octets) : Bool := 0x22 ∉ value ∧ 0x0A ∉ value ∧ 0x0D ∉ value

/-- The check of the port: what `strtol` reads ends with the text and is from 1 to 65535. A
negative number is below 1, and one that no `long` holds is read as the largest. -/
def isPort (port : Octets) : Bool :=
  let (negative, digits) := Json.sign (port.dropWhile fun b => b = 0x20 ∨ 0x09 ≤ b ∧ b ≤ 0x0D)
  digits ≠ [] ∧ digits.all isDigit ∧ !negative ∧
    1 ≤ digitsValue digits ∧ digitsValue digits ≤ 65535

/-- The body of the request. -/
def notifyBody (path status : Octets) : Octets :=
  ascii "\x7b\"path\":\"" ++ path ++ ascii "\",\"status\":\"" ++ status ++ ascii "\"\x7d"

/-- The request up to its body. -/
def notifyHead (port : Octets) (contentLength : ℕ) : Octets :=
  ascii "POST /event HTTP/1.1\r\nHost: 127.0.0.1:" ++ port ++
    ascii "\r\nContent-Type: application/json\r\nContent-Length: " ++ decimal contentLength ++
    ascii "\r\nConnection: close\r\n\r\n"

/-- `main` up to the connection: the request that is then written, unless an argument, the
port of the environment or a length is refused. -/
def notify (port path status : Octets) : Option Octets :=
  if !isJsonSafe path ∨ !isJsonSafe status ∨ !isPort port then none
  else
    let body := notifyBody path status
    let request := notifyHead port body.length ++ body
    if 256 ≤ body.length ∨ 512 ≤ request.length then none else some request

/-- No octet that JSON wants escaped, quotes apart. -/
def Unescaped (value : Octets) : Prop := ∀ b ∈ value, 0x20 ≤ b ∧ b ≠ 0x5C

theorem quote_unescaped {value : Octets} (safe : isJsonSafe value = true)
    (plain : Unescaped value) : Json.quote value = 0x22 :: (value ++ [0x22]) := by
  have noQuote : 0x22 ∉ value := (of_decide_eq_true safe).1
  have itself : ∀ b ∈ value, Json.escaped b = [b] := by
    intro b mem
    obtain ⟨least, noEscape⟩ := plain b mem
    have none : Json.shorthand b = none := by
      unfold Json.shorthand
      grind
    rw [Json.escaped, none]
    exact if_neg (UInt8.not_lt.mpr least)
  rw [Json.quote, List.flatMap_congr itself, List.flatMap_singleton']

/-- A longer body has a longer request. -/
theorem body_le {port body body' : Octets}
    (same : notifyHead port body.length ++ body = notifyHead port body'.length ++ body') :
    body.length ≤ body'.length := by
  by_contra longer
  have digits := Json.length_decimal_le (Nat.le_of_not_le longer)
  have lengths := congrArg List.length same
  simp only [notifyHead, List.length_append] at lengths
  omega

/-- **Notifications**: what is sent is the head with the length of a body and a body that is read as
the event with the two arguments, just if these have no backslash and no control character. -/
theorem notification_faithful {port path status request : Octets} (pathText : Utf8.Valid path)
    (statusText : Utf8.Valid status) (sent : notify port path status = some request) :
    (∃ body, request = notifyHead port body.length ++ body ∧
      Json.parse body = some (.obj [(ascii "path", .str path), (ascii "status", .str status)])) ↔
    Unescaped path ∧ Unescaped status := by
  obtain ⟨accepted, sent⟩ := Option.ite_none_left_eq_some.mp sent
  obtain ⟨-, sent⟩ := Option.ite_none_left_eq_some.mp sent
  simp only [not_or, Bool.not_eq_true', Bool.not_eq_false] at accepted
  rw [← Option.some.inj sent]
  constructor
  · rintro ⟨body, same, read⟩
    -- The body has no room for an escape.
    have short := body_le same.symm
    have event : Json.parse body =
        some (.obj (Json.texts [(ascii "path", path), (ascii "status", status)])) := read
    have plain := Json.parse_tight event ?_
    · simpa [Unescaped] using plain
    · simp [notifyBody, Json.tightLength, ascii] at short ⊢
      omega
  rintro ⟨pathPlain, statusPlain⟩
  refine ⟨_, rfl, ?_⟩
  have text : notifyBody path status =
      Json.render (.obj [(ascii "path", .str path), (ascii "status", .str status)]) := by
    simp only [Json.render, Json.renderMembers, quote_unescaped accepted.1 pathPlain,
      quote_unescaped accepted.2.1 statusPlain, notifyBody, List.append_assoc, List.cons_append]
    rfl
  rw [text, Json.parse_render, if_pos]
  refine Json.wellFormed_obj.mpr ?_
  simp [Json.wellFormed_str, pathText, statusText]
  decide

/-- The event of the ingress path. -/
theorem notification_faithful_ready :
    ∃ body, notify (ascii "8080") (ascii "ingress0") (ascii "ready") =
        some (notifyHead (ascii "8080") body.length ++ body) ∧
      Json.parse body = some (.obj [(ascii "path", .str (ascii "ingress0")),
        (ascii "status", .str (ascii "ready"))]) := by
  have sent : (notify (ascii "8080") (ascii "ingress0") (ascii "ready")).isSome := by decide +kernel
  obtain ⟨request, sent⟩ := Option.isSome_iff_exists.mp sent
  obtain ⟨body, rfl, read⟩ := (notification_faithful (by decide +kernel) (by decide +kernel)
    sent).mpr (by unfold Unescaped; decide +kernel)
  exact ⟨body, sent, read⟩

/-- A backslash escapes the quote behind it, and no event is read; before a letter it changes
the path that is read. Both requests are sent. -/
theorem notification_backslash :
    (notify (ascii "8080") (ascii "\\") (ascii "ready") =
        some (notifyHead (ascii "8080") 29 ++ notifyBody (ascii "\\") (ascii "ready")) ∧
      (Json.parse (notifyBody (ascii "\\") (ascii "ready"))).isNone) ∧
    notify (ascii "8080") (ascii "\\t") (ascii "ready") =
        some (notifyHead (ascii "8080") 30 ++ notifyBody (ascii "\\t") (ascii "ready")) ∧
      ((Json.parse (notifyBody (ascii "\\t") (ascii "ready"))).bind fun event =>
        (event.get? (ascii "path")).bind Json.str?) = some [0x09] := by
  decide +kernel

end Strimserver.Http
