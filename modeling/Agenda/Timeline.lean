import Agenda.Message

/-!
# The order of pending messages

The order of a queue as a rule on plain lists, without slots and links: where a message goes, and
which one the consumer may take next.
-/

namespace Agenda.Timeline

/-- A list with `m` at its due position: behind everything that is not due later, or in front of
everything for due-time 0. -/
def insert (m : Message) (ms : List Message) : List Message :=
  if m.due = 0 then m :: ms
  else ms.takeWhile (·.due ≤ m.due) ++ m :: ms.dropWhile (·.due ≤ m.due)

/-- The message that the consumer may take next: the first one, or behind a barrier the first
asynchronous one. -/
def eligible? : List Message → Option Message
  | [] => none
  | m :: ms => if m.isBarrier then ms.find? Message.async else some m

/-- The messages of a list that are due at `now`. -/
def due (now : Time) (ms : List Message) : List Message :=
  ms.filter (·.due ≤ now)

/-- No message stands before one that is due earlier. -/
abbrev Ascending (ms : List Message) : Prop :=
  ms.Pairwise fun a b => a.due ≤ b.due

end Agenda.Timeline
