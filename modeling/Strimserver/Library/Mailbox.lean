import Mathlib.Data.List.Basic
import Mathlib.Data.Option.Basic

/-!
# A mailbox with one place

A sender puts messages into the one place of the mailbox, where a new message replaces
the one that is there. A receiver takes the message out, holds it for a while, and then
hands it over or drops it. The mailbox records what was put in and what was handed over.

What was handed over, is held and is pending is always a part of what was put in, in
order (`Kept`). As long as nothing is dropped, the newest of it is the newest that was put in
(`Fresh`).
-/

namespace Strimserver.Library

universe u

/-- A place for one value, the newest. -/
structure Mailbox (α : Type u) where
  /-- Everything that was put in. -/
  accepted : List α
  /-- Everything that was handed over. -/
  handed : List α
  /-- The message that was taken out and not yet handed over. -/
  held : Option α
  /-- The message in the place. -/
  pending : Option α

namespace Mailbox

variable {α : Type u} {m : Mailbox α}

def empty : Mailbox α := ⟨[], [], none, none⟩

/-- A new message replaces the one in the place. -/
def put (m : Mailbox α) (a : α) : Mailbox α :=
  { m with accepted := m.accepted ++ [a], pending := some a }

def take (m : Mailbox α) : Mailbox α := { m with held := m.pending, pending := none }

/-- The message that is held is handed over. -/
def deliver (m : Mailbox α) : Mailbox α :=
  { m with handed := m.handed ++ m.held.toList, held := none }

/-- The message that is held is lost. -/
def drop (m : Mailbox α) : Mailbox α := { m with held := none }

/-- The message in the place is lost. -/
def discard (m : Mailbox α) : Mailbox α := { m with pending := none }

/-- What was handed over, and what can still be, in order. -/
def line (m : Mailbox α) : List α := m.handed ++ m.held.toList ++ m.pending.toList

theorem line_take (idle : m.held = none) : m.take.line = m.line := by simp [line, take, idle]

theorem line_deliver : m.deliver.line = m.line := by simp [line, deliver]

/-! ## Nothing is reordered or doubled -/

/-- The line is a part of what was put in. -/
def Kept (m : Mailbox α) : Prop := m.line.Sublist m.accepted

namespace Kept

theorem empty : Kept (Mailbox.empty : Mailbox α) := List.Sublist.slnil

section

variable (kept : m.Kept)

include kept

theorem taken_part : (m.handed ++ m.held.toList).Sublist m.accepted :=
  (List.sublist_append_left _ _).trans kept

theorem handed : m.handed.Sublist m.accepted := (List.sublist_append_left _ _).trans kept.taken_part

theorem put (a : α) : (m.put a).Kept := kept.taken_part.append (List.Sublist.refl [a])

theorem take (idle : m.held = none) : m.take.Kept := by
  rw [Kept, line_take idle]
  exact kept

theorem deliver : m.deliver.Kept := by
  rw [Kept, line_deliver]
  exact kept

theorem drop : m.drop.Kept := by
  refine List.Sublist.trans ?_ kept
  exact ((List.nil_sublist _).append_left _).append_right _

theorem discard : m.discard.Kept := by
  refine List.Sublist.trans ?_ kept
  exact (List.nil_sublist _).append_left _

end

end Kept

/-! ## The newest message is not lost -/

/-- The newest message of the line is the newest that was put in. -/
def Fresh (m : Mailbox α) : Prop := m.line.getLast? = m.accepted.getLast?

namespace Fresh

theorem empty : Fresh (Mailbox.empty : Mailbox α) := rfl

theorem put (m : Mailbox α) (a : α) : (m.put a).Fresh := by
  show (m.handed ++ m.held.toList ++ [a]).getLast? = (m.accepted ++ [a]).getLast?
  rw [List.getLast?_concat, List.getLast?_concat]

theorem take (fresh : m.Fresh) (idle : m.held = none) : m.take.Fresh := by
  rw [Fresh, line_take idle]
  exact fresh

theorem deliver (fresh : m.Fresh) : m.deliver.Fresh := by
  rw [Fresh, line_deliver]
  exact fresh

/-- Once nothing is on its way, the newest message has been handed over. -/
theorem handed (fresh : m.Fresh) (held : m.held = none) (pending : m.pending = none) :
    m.handed.getLast? = m.accepted.getLast? := by
  have line : m.line = m.handed := by simp [line, held, pending]
  rw [← fresh, line]

end Fresh

end Mailbox

end Strimserver.Library
