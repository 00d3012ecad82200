import Agenda.Consumer

/-!
# The parker

The consumer sleeps in a parker. A notification that comes while nobody sleeps is kept, and makes
the next park return at once. The parker is a lock, two flags and a condition variable, written
here as a machine: each function is one section under the lock, and a wait on the condition
variable separates two sections of one park.
-/

namespace Agenda

/-- The flags of a parker. -/
structure Parker where
  /-- A notification has come that no park has taken. -/
  notified : Bool := false
  /-- A thread waits in a park. -/
  parked : Bool := false
  deriving DecidableEq, Repr, Inhabited

/-- Where a park stands between two sections. -/
inductive Park where
  /-- It waits on the condition variable, with this timeout. -/
  | waiting (timeout : Timeout)
  | returned
  deriving DecidableEq, Repr, Inhabited

/-- Why a wait on the condition variable ends. -/
inductive Waking where
  /-- For a notification, or for no reason. -/
  | signal
  | timedOut
  deriving DecidableEq, Repr

namespace Parker

/-- The end of a park: the notification is taken. -/
def leave (_ : Parker) : Parker × Park :=
  ({}, .returned)

/-- The first section of a park. -/
def enter (p : Parker) (timeout : Timeout) : Parker × Park :=
  if p.notified then ({ p with notified := false }, .returned)
  else
    match timeout with
    | .immediate => ({ p with notified := false }, .returned)
    | timeout => ({ p with parked := true }, .waiting timeout)

/-- The section after a wait. A park goes on waiting until it is notified or its time is over; one
without a time does not time out. -/
def wake (p : Parker) (timeout : Timeout) : Waking → Parker × Park
  | .signal => if p.notified then p.leave else (p, .waiting timeout)
  | .timedOut => if timeout = .indefinite && !p.notified then (p, .waiting timeout) else p.leave

/-- Notifies the parker. The answer says whether the condition variable is signalled. -/
def notify (p : Parker) : Parker × Bool :=
  ({ p with notified := true }, p.parked)

end Parker

end Agenda
