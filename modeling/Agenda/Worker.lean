import Agenda.Loop
import Agenda.System

/-!
# A loop at work

A loop that takes messages from a queue at work and dispatches them, as a machine like the system it
is part of. It alone calls for messages. Between any two of its moves others may do operations and
time may go on; so may what a target does with a message, which is some operations, and the run of
an idle handler.
-/

namespace Agenda

/-- Where a loop stands. -/
inductive Stage where
  /-- About to call for a message. -/
  | ready
  /-- In a call, or back from it with the answer. -/
  | taking
  /-- `target` is at work on a message. -/
  | dispatching (target : Target) (m : Message)
  /-- Over, with its counts. -/
  | ended
  deriving DecidableEq, Repr, Inhabited

/-- A loop with its queue. -/
structure Worker where
  system : System := {}
  loop : Loop
  stage : Stage := .ready
  deriving DecidableEq, Repr, Inhabited

/-- One step of a loop, or of somebody else. -/
inductive Move where
  /-- Something else than a call: an operation, the clock, or a step in the loop's own call. -/
  | act (a : Action)
  /-- The loop calls for the next message. -/
  | call
  /-- The loop has the answer to its call. A message that has a target goes there. -/
  | receive
  /-- The target has dealt with its message, which took `elapsed` milliseconds. -/
  | finish (elapsed : Nat)
  deriving Repr

namespace Worker

/-- A loop that has done nothing yet, at a queue that nobody has used. -/
def initial (c : Config) (quittable : Bool) (now : Time) : Worker :=
  { system := .initial quittable now, loop := .ofConfig c }

/-- What a loop does with a message: it notes the delivery and gives it to its target. -/
def accept (w : Worker) (m : Message) : Worker :=
  match m.target with
  | none => { w with stage := .ready }
  | some target =>
    { w with loop := (w.loop.deliver w.system.now target m).1, stage := .dispatching target m }

/-- The worker after a move, if the move can be made. -/
def step? (w : Worker) : Move → Option Worker
  | .act .call => none
  | .act a => (w.system.step? a).map fun s => { w with system := s }
  | .call =>
    match w.stage with
    | .ready => (w.system.step? .call).map fun s => { w with system := s, stage := .taking }
    | _ => none
  | .receive =>
    match w.stage, w.system.call with
    | .taking, .returned none => some { w with stage := .ended }
    | .taking, .returned (some m) => some (w.accept m)
    | _, _ => none
  | .finish elapsed =>
    match w.stage with
    | .dispatching target m =>
      some { w with loop := (w.loop.dispatched elapsed target m).1, stage := .ready }
    | _ => none

/-- `w.Leads ms u` says that the moves `ms` lead from `w` to `u`. -/
def Leads (w : Worker) (ms : List Move) (u : Worker) : Prop :=
  ms.foldlM step? w = some u

instance (w : Worker) (ms : List Move) (u : Worker) : Decidable (w.Leads ms u) :=
  inferInstanceAs (Decidable (_ = _))

end Worker

end Agenda
