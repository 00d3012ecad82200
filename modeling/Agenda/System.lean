import Agenda.Consumer
import Agenda.Operation

/-!
# A queue at work

One consumer takes messages from a queue while any number of threads do operations on it and time
goes on. Each critical section is one action, and between two actions anyone may come next, so a
course of events is any list of actions. A park may end at any moment, for a notification, for the
time or for no reason; what a notification does is to be pending until a park ends.
-/

namespace Agenda

/-- A queue with its clock, its parker and its consumer. -/
structure System where
  queue : Queue := {}
  now : Time := 0
  /-- The parker was notified and no park has ended since. -/
  notified : Bool := false
  /-- Where the consumer's latest call stands. -/
  call : Call := .returned none
  /-- The clock reading at the consumer's latest look at the queue. -/
  lookedAt : Time := 0
  deriving DecidableEq, Repr, Inhabited

/-- One step of somebody. -/
inductive Action where
  /-- Some thread does an operation. -/
  | operate (op : Operation)
  /-- The clock goes on. -/
  | tick (t : Time)
  /-- The consumer calls for the next message. -/
  | call
  /-- The consumer's park ends. -/
  | wake
  /-- The consumer looks at the queue. -/
  | look
  /-- The next handler of an idle pass has run. -/
  | idle (outcome : IdleOutcome)
  /-- All handlers of an idle pass have run. -/
  | endPass
  deriving Repr

namespace System

/-- A system after an operation of the queue that leaves the consumer in `call`. -/
def settle (s : System) (r : Reply Queue Call) : System :=
  { s with queue := r.state, call := r.value, notified := s.notified || r.wakes }

/-- The system after an action, if the action can happen. -/
def step? (s : System) : Action → Option System
  | .operate op =>
    let r := s.queue.perform s.now op
    some { s with queue := r.state, notified := s.notified || r.wakes }
  | .tick t => if s.now ≤ t then some { s with now := t } else none
  | .call =>
    match s.call with
    | .returned _ => some { s with call := s.queue.call }
    | _ => none
  | .wake =>
    match s.call with
    | .parking _ settled => some { s with call := .awake settled, notified := false }
    | _ => none
  | .look =>
    match s.call with
    | .awake settled => some { s.settle (s.queue.scan s.now settled) with lookedAt := s.now }
    | _ => none
  | .idle outcome =>
    match s.call with
    | .idle (h :: rest) => some (s.settle (s.queue.afterIdle h rest outcome))
    | _ => none
  | .endPass =>
    match s.call with
    | .idle [] => some (s.settle s.queue.endIdlePass)
    | _ => none

/-- `s.Leads as t` says that the actions `as` lead from `s` to `t`. -/
inductive Leads : System → List Action → System → Prop
  | refl (s : System) : Leads s [] s
  | tail {s t u : System} {as : List Action} {a : Action} (prior : Leads s as t)
      (h : t.step? a = some u) : Leads s (as ++ [a]) u

/-- A system in which nothing has happened yet. -/
def initial (quittable : Bool) (now : Time) : System :=
  { queue := { quittable }, now, lookedAt := now }

/-- The systems that come of some course of events. -/
def Reachable (s : System) : Prop :=
  ∃ quittable now as, Leads (initial quittable now) as s

end System

end Agenda
