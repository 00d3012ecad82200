import Agenda.Notice

/-!
# Replies

An operation on a queue answers with the queue as it leaves it, a value, whether the consumer's
parker is notified, and what goes to the log. Each operation is one critical section.
-/

namespace Agenda

/-- The outcome of an operation on a state `σ`. -/
structure Reply (σ α : Type) where
  state : σ
  value : α
  /-- The operation notifies the parker. -/
  wakes : Bool := false
  notices : List Notice := []

end Agenda
