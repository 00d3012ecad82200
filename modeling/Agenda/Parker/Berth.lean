import Agenda.Parker

/-!
# A parker at work

One thread parks in a parker, and any thread may notify it or ask whether it waits. Each section
under the lock is one act, and between two acts anyone may come next. Of the condition variable this
alone is taken for granted: a wait gives the lock back in the section that begins it, and it may end
at any moment, with or without a reason.
-/

namespace Agenda

/-- One step of somebody at a parker. -/
inductive Parker.Act where
  /-- The thread begins a park. -/
  | park (timeout : Timeout)
  /-- The thread's wait ends. -/
  | wake (waking : Waking)
  /-- Some thread notifies the parker. -/
  | notify
  /-- Some thread asks whether the parker's thread waits. -/
  | ask
  deriving DecidableEq, Repr

/-- The act is one of the thread that parks. -/
def Parker.Act.isOwn : Act → Bool
  | .park _ | .wake _ => true
  | .notify | .ask => false

/-- A parker with the one thread that parks in it. -/
structure Berth where
  parker : Parker := {}
  /-- Where the thread's latest park stands. -/
  park : Park := .returned
  /-- The condition variable was signalled since the present wait began. -/
  signalled : Bool := false
  deriving DecidableEq, Repr, Inhabited

namespace Berth

/-- The berth after a section of a park. A wait that begins has not been signalled yet. -/
def settle (r : Parker × Park) : Berth :=
  { parker := r.1, park := r.2 }

/-- The berth after an act, if the act can happen. -/
def step? (b : Berth) : Parker.Act → Option Berth
  | .park timeout =>
    match b.park with
    | .returned => some (settle (b.parker.enter timeout))
    | .waiting _ => none
  | .wake waking =>
    match b.park with
    | .waiting timeout => some (settle (b.parker.wake timeout waking))
    | .returned => none
  | .notify =>
    let (parker, signals) := b.parker.notify
    some { b with parker, signalled := b.signalled || signals }
  | .ask => some b

/-- The berth after some acts, if they can happen in this order. -/
def run? (b : Berth) (acts : List Parker.Act) : Option Berth :=
  acts.foldlM step? b

end Berth

end Agenda
