import Agenda.Parker

/-!
# Trials of a parker

A parker is tried out step by step: it is notified, asked whether a thread waits in it, and parked
in. A park that would last longer than the trial's patience is not begun.
-/

namespace Agenda.Parker.Trial

/-- One step of a trial. -/
inductive Step where
  | notify
  | isParked
  /-- Parks in the trial's own thread. -/
  | park (timeout : Timeout)
  /-- Parks in another thread, and notifies that thread if it waits. -/
  | parkElsewhere (timeout : Timeout)
  deriving DecidableEq, Repr

/-- The answer to a step. -/
inductive Answer where
  | done
  | truth (b : Bool)
  /-- The park was not begun. -/
  | tooLong
  | returned
  /-- A park with a time returned, before its time was over or not. -/
  | timed (early : Bool)
  /-- A thread parked: whether it waited, and whether a thread waits after its return. -/
  | elsewhere (waited waits : Bool)
  deriving DecidableEq, Repr

/-- The longest park that is begun, in milliseconds. -/
def patience : UInt64 := 10

/-- A park that a trial does not wait for. -/
def isTooLong : Timeout → Bool
  | .immediate => false
  | .indefinite => true
  | .millis n => patience < n

/-- How a park that did not wait is seen. A time of 0 is over at once. -/
def prompt : Timeout → Answer
  | .millis n => .timed (n != 0)
  | _ => .returned

/-- Does one step. -/
def Step.exec (p : Parker) : Step → Parker × Answer
  | .notify => (p.notify.1, .done)
  | .isParked => (p, .truth p.parked)
  | .park timeout =>
    match p.enter timeout with
    | (p', .returned) => (p', prompt timeout)
    | (p', .waiting timeout) =>
      if isTooLong timeout then (p, .tooLong)
      else ((p'.wake timeout .timedOut).1, .timed false)
  | .parkElsewhere timeout =>
    match p.enter timeout with
    | (p', .returned) => (p', .elsewhere false p'.parked)
    | (p', .waiting timeout) =>
      let p := (p'.notify.1.wake timeout .signal).1
      (p, .elsewhere true p.parked)

/-- The answers to some steps. -/
def run (p : Parker) : List Step → List Answer
  | [] => []
  | step :: steps =>
    let (p, a) := step.exec p
    a :: run p steps

end Agenda.Parker.Trial
