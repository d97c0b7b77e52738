import Mathlib.Data.List.Basic

/-!
# Messages behind headers of a fixed size

A stream of symbols that carries messages, each behind a header of a fixed size
from which its length is read. A header can be refused, and then nothing behind it
is a message.

`messages` are the messages that a stream holds completely, and `remainder` is what
is behind them. A receiver gets the stream in pieces: `messages_append` says that
it can forget all but the remainder, so what it delivers does not depend on where
the stream was cut.
-/

namespace Strimserver.Library.Prefixed

open List

universe u

variable {α : Type u}

/-- What the front of a stream is: not yet a message, a header that is refused, or a
message with what is behind it. -/
inductive Progress (α : Type u) where
  | more
  | refused
  | message (m rest : List α)

/-- The front of a stream, for headers of a size and the length that a header tells. -/
def progress (size : ℕ) (accept : List α → Option ℕ) (stream : List α) : Progress α :=
  if stream.length < size then .more
  else
    match accept (stream.take size) with
    | none => .refused
    | some length =>
      if stream.length < size + length then .more
      else .message ((stream.drop size).take length) (stream.drop (size + length))

/-- The messages at the front and what is behind them, at most as many as the fuel. -/
def split (size : ℕ) (accept : List α → Option ℕ) : ℕ → List α → List (List α) × List α
  | 0, stream => ([], stream)
  | fuel + 1, stream =>
    match progress size accept stream with
    | .message m rest =>
      let behind := split size accept fuel rest
      (m :: behind.1, behind.2)
    | _ => ([], stream)

/-- The messages that a stream holds completely. -/
def messages (size : ℕ) (accept : List α → Option ℕ) (stream : List α) : List (List α) :=
  (split size accept stream.length stream).1

/-- What is behind the last message. -/
def remainder (size : ℕ) (accept : List α → Option ℕ) (stream : List α) : List α :=
  (split size accept stream.length stream).2

/-- No header of the stream is refused. -/
def clean (size : ℕ) (accept : List α → Option ℕ) (stream : List α) : Bool :=
  match progress size accept (remainder size accept stream) with
  | .refused => false
  | _ => true

/-- The length that a stream without a message has when its first message is complete,
as far as the stream tells. -/
def demand (size : ℕ) (accept : List α → Option ℕ) (stream : List α) : ℕ :=
  if stream = [] then 0
  else if stream.length < size then size
  else size + (accept (stream.take size)).getD 0

variable {size : ℕ} {accept : List α → Option ℕ} {stream m rest : List α}

/-- A message at the front: its header, and its octets behind it. -/
theorem progress_eq_message_iff : progress size accept stream = .message m rest ↔
      ∃ header, header.length = size ∧ accept header = some m.length ∧
        stream = header ++ (m ++ rest) := by
  unfold progress
  constructor
  · intro front
    split at front
    · cases front
    split at front
    · cases front
    rename_i length accepted
    split at front <;> cases front
    have taken : ((stream.drop size).take length).length = length := by
      rw [length_take, length_drop]
      omega
    refine ⟨stream.take size, ?_, ?_, ?_⟩
    · rw [length_take]
      omega
    · rw [accepted, taken]
    · rw [← drop_drop, take_append_drop, take_append_drop]
  rintro ⟨header, rfl, accepted, rfl⟩
  rw [if_neg (by rw [length_append]; omega), take_left, accepted]
  dsimp only
  rw [if_neg (by rw [length_append, length_append]; omega), drop_left, take_left, ← drop_drop,
    drop_left, drop_left]

variable {header : List α} {length : ℕ}

theorem progress_of_refused (length : header.length = size) (none : accept header = none)
    (behind : List α) : progress size accept (header ++ behind) = .refused := by
  unfold progress
  rw [if_neg (by rw [length_append]; omega), take_left' length, none]

theorem progress_append_of_message (front : progress size accept stream = .message m rest)
    (behind : List α) : progress size accept (stream ++ behind) = .message m (rest ++ behind) := by
  obtain ⟨header, size', accepted, rfl⟩ := progress_eq_message_iff.mp front
  exact progress_eq_message_iff.mpr ⟨header, size', accepted, by simp only [append_assoc]⟩

/-- A message of which some is missing. -/
theorem progress_of_prefix {body octets : List α} (size' : header.length = size)
    (accepted : accept header = some length) (few : body.length < length)
    (part : octets <+: header ++ body) : progress size accept octets = .more := by
  have short := part.length_le
  rw [length_append, size'] at short
  unfold progress
  split_ifs with long
  · rfl
  obtain ⟨behind, whole⟩ := part
  have same : (octets ++ behind).take size = octets.take size :=
    take_append_of_le_length (Nat.not_lt.mp long)
  have front : octets.take size = header := by rw [← same, whole, take_left' size']
  rw [front, accepted]
  exact if_pos (by omega)

/-- Two streams that differ in the octets of their first message only. -/
inductive Alike (size : ℕ) (accept : List α → Option ℕ) (stream stream' : List α) : Prop where
  | same (eq : stream' = stream)
  | more {header body body' : List α} (length : header.length = size)
      (eq : stream = header ++ body) (eq' : stream' = header ++ body')
      (front : progress size accept stream = .more) (front' : progress size accept stream' = .more)
  | message {m m' rest : List α} (length : m'.length = m.length)
      (front : progress size accept stream = .message m rest)
      (front' : progress size accept stream' = .message m' rest)

/-- Another body of the same length. -/
theorem alike_of_header {body body' : List α} (size' : header.length = size)
    (accepted : accept header = some length) (short : body.length ≤ length)
    (same : body'.length = body.length) (behind : List α) :
    Alike size accept (header ++ (body ++ behind)) (header ++ (body' ++ behind)) := by
  have more {octets : List α} (few : octets.length < length) :
      progress size accept (header ++ octets) = .more :=
    progress_of_prefix size' accepted few (prefix_refl _)
  by_cases few : body.length + behind.length < length
  · exact .more size' rfl rfl (more (by rw [length_append]; omega))
      (more (by rw [length_append]; omega))
  have whole {front : List α} (long : front.length = body.length) :
      progress size accept (header ++ (front ++ behind)) =
        .message (front ++ behind.take (length - body.length))
          (behind.drop (length - body.length)) := by
    refine progress_eq_message_iff.mpr ⟨header, size', ?_, ?_⟩
    · rw [accepted, length_append, length_take, long]
      congr 1
      omega
    · rw [append_assoc, take_append_drop]
  refine .message ?_ (whole rfl) (whole same)
  rw [length_append, length_append, same]

variable (positive : 0 < size)

include positive

theorem length_rest_lt (front : progress size accept stream = .message m rest) :
    rest.length < stream.length := by
  obtain ⟨header, rfl, -, rfl⟩ := progress_eq_message_iff.mp front
  rw [length_append, length_append]
  omega

/-- Enough fuel is enough. -/
theorem split_of_length_le {fuel : ℕ} (enough : stream.length ≤ fuel) :
    split size accept fuel stream = split size accept stream.length stream := by
  induction fuel using Nat.strongRecOn generalizing stream with
  | _ fuel ih =>
    rcases fuel with _ | fuel
    · obtain rfl : stream = [] := length_eq_zero_iff.mp (by omega)
      rfl
    rcases symbols : stream with _ | ⟨a, tail⟩
    · rw [split, progress, if_pos (show [].length < size from positive)]
      rfl
    rw [length_cons, split, split, ← symbols]
    rcases front : progress size accept stream with _ | _ | ⟨m, rest⟩
    · rfl
    · rfl
    have shorter := length_rest_lt positive front
    rw [symbols, length_cons] at shorter enough
    dsimp only
    rw [ih fuel (by omega) (by omega), ih tail.length (by omega) (by omega)]

theorem messages_of_message (front : progress size accept stream = .message m rest) :
    messages size accept stream = m :: messages size accept rest ∧
      remainder size accept stream = remainder size accept rest := by
  have shorter := length_rest_lt positive front
  obtain ⟨fuel, fuel_eq⟩ := Nat.exists_eq_succ_of_ne_zero (n := stream.length) (by omega)
  have behind : split size accept fuel rest = split size accept rest.length rest :=
    split_of_length_le positive (by omega)
  unfold messages remainder
  rw [fuel_eq, split, front]
  dsimp only
  rw [behind]
  exact ⟨rfl, rfl⟩

theorem clean_of_message (front : progress size accept stream = .message m rest) :
    clean size accept stream = clean size accept rest := by
  unfold clean
  rw [(messages_of_message positive front).2]

omit positive in
theorem messages_of_no_message (front : ∀ m rest, progress size accept stream ≠ .message m rest) :
    messages size accept stream = [] ∧ remainder size accept stream = stream := by
  unfold messages remainder
  rcases stream.length with _ | fuel
  · exact ⟨rfl, rfl⟩
  rw [split]
  split
  · rename_i m rest message
    exact absurd message (front m rest)
  · exact ⟨rfl, rfl⟩

omit positive in
theorem messages_of_more (front : progress size accept stream = .more) :
    messages size accept stream = [] ∧ remainder size accept stream = stream := by
  refine messages_of_no_message fun m rest => ?_
  rw [front]
  exact nofun

omit positive in
theorem messages_of_refused (front : progress size accept stream = .refused) :
    messages size accept stream = [] ∧ remainder size accept stream = stream := by
  refine messages_of_no_message fun m rest => ?_
  rw [front]
  exact nofun

omit positive in
theorem clean_of_more (front : progress size accept stream = .more) :
    clean size accept stream = true := by
  unfold clean
  rw [(messages_of_more front).2, front]

omit positive in
theorem clean_of_refused (front : progress size accept stream = .refused) :
    clean size accept stream = false := by
  unfold clean
  rw [(messages_of_refused front).2, front]

omit positive in
/-- A message that is begun and not complete is shorter than it will be. -/
theorem length_lt_demand (front : progress size accept stream = .more) (begun : stream ≠ []) :
    stream.length < demand size accept stream := by
  unfold progress at front
  unfold demand
  rw [if_neg begun]
  split_ifs with long
  · assumption
  rw [if_neg long] at front
  split at front
  · cases front
  rename_i length accepted
  rw [accepted]
  split at front
  · assumption
  · cases front

/-- A message whose header is there. -/
theorem demand_of_header (length : header.length = size) (octets : List α) :
    demand size accept (header ++ octets) = size + (accept header).getD 0 := by
  have long : (header ++ octets).length = size + octets.length := by rw [length_append, length]
  have begun : header ++ octets ≠ [] := by
    rw [← length_pos_iff]
    omega
  unfold demand
  rw [if_neg begun, if_neg (by omega), take_left' length]

namespace Alike

variable {stream' : List α} (alike : Alike size accept stream stream')

include alike

theorem clean_eq : clean size accept stream' = clean size accept stream := by
  cases alike with
  | same eq => rw [eq]
  | more length eq eq' front front' => rw [clean_of_more front, clean_of_more front']
  | message length front front' =>
    rw [clean_of_message positive front, clean_of_message positive front']

theorem lengths_eq :
    (messages size accept stream').map List.length =
      (messages size accept stream).map List.length := by
  cases alike with
  | same eq => rw [eq]
  | more length eq eq' front front' => rw [(messages_of_more front).1, (messages_of_more front').1]
  | message length front front' =>
    rw [(messages_of_message positive front).1, (messages_of_message positive front').1, map_cons,
      map_cons, length]

theorem remainder_eq_nil_iff :
    remainder size accept stream' = [] ↔ remainder size accept stream = [] := by
  cases alike with
  | same eq => rw [eq]
  | @more header body body' length eq eq' front front' =>
    have nonempty (octets : List α) : header ++ octets ≠ [] := by
      rw [← length_pos_iff, length_append]
      omega
    rw [(messages_of_more front).2, (messages_of_more front').2, eq, eq']
    exact iff_of_false (nonempty body') (nonempty body)
  | message length front front' =>
    rw [(messages_of_message positive front).2, (messages_of_message positive front').2]

theorem demand_eq : demand size accept (remainder size accept stream') =
      demand size accept (remainder size accept stream) := by
  cases alike with
  | same eq => rw [eq]
  | @more header body body' length eq eq' front front' =>
    rw [(messages_of_more front).2, (messages_of_more front').2, eq, eq',
      demand_of_header positive length, demand_of_header positive length]
  | message length front front' =>
    rw [(messages_of_message positive front).2, (messages_of_message positive front').2]

end Alike

/-- **Cutting a stream.** Of the part in front, a receiver needs the remainder only. -/
theorem messages_append (stream behind : List α) : messages size accept (stream ++ behind) =
        messages size accept stream ++
          messages size accept (remainder size accept stream ++ behind) ∧
      remainder size accept (stream ++ behind) =
        remainder size accept (remainder size accept stream ++ behind) := by
  induction fuel : stream.length using Nat.strongRecOn generalizing stream with
  | _ fuel' ih =>
    rcases front : progress size accept stream with _ | _ | ⟨m, rest⟩
    · obtain ⟨none, all⟩ := messages_of_more front
      rw [none, all]
      exact ⟨rfl, rfl⟩
    · obtain ⟨none, all⟩ := messages_of_refused front
      rw [none, all]
      exact ⟨rfl, rfl⟩
    obtain ⟨first, left⟩ := messages_of_message positive front
    obtain ⟨whole, whole'⟩ := messages_of_message positive (progress_append_of_message front behind)
    have shorter := length_rest_lt positive front
    obtain ⟨inner, inner'⟩ := ih rest.length (by omega) rest rfl
    rw [whole, whole', first, left, inner, inner']
    exact ⟨rfl, rfl⟩

end Strimserver.Library.Prefixed
