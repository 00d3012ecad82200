import Agenda.Queue

/-!
# Operations

What may be done to a queue from any thread, as data: scenarios and sessions are lists of
operations, and what holds of every course of events is proved by going through them.
-/

namespace Agenda

/-- Something that is done to a queue. -/
inductive Operation where
  | enqueue (m : Message) (due : Time)
  | postBarrier (due : Time)
  | removeBarrier (token : Token)
  | remove (f : Filter)
  | addIdle (h : IdleHandler)
  | removeIdle (h : IdleHandler)
  | quit (safe : Bool)
  deriving DecidableEq, Repr

/-- The answer to an operation. -/
inductive Operation.Result where
  /-- A message was taken or not, or refused. -/
  | sent (taken : Except Refusal Bool)
  /-- A barrier was posted, unless it came too late. -/
  | posted (token : Option Token)
  | removed (count : Nat)
  | done (r : Except Refusal Unit)
  deriving Repr

/-- An operation's own answer as a result. -/
def Reply.toResult {α : Type} (r : Reply Queue α) (f : α → Operation.Result) :
    Reply Queue Operation.Result :=
  { r with value := f r.value }

/-- Does an operation, at clock reading `now`. -/
def Queue.perform (q : Queue) (now : Time) : Operation → Reply Queue Operation.Result
  | .enqueue m due => (q.enqueue m due).toResult .sent
  | .postBarrier due => (q.postBarrier due).toResult .posted
  | .removeBarrier token => (q.removeBarrier token).toResult .done
  | .remove f => (q.remove f).toResult .removed
  | .addIdle h => { state := q.addIdle h, value := .done (.ok ()) }
  | .removeIdle h => { state := q.removeIdle h, value := .done (.ok ()) }
  | .quit safe => (q.quit now safe).toResult .done

/-- Does operations one after the other, at one clock reading. -/
def Queue.performAll (q : Queue) (now : Time) : List Operation → List Operation.Result × Queue
  | [] => ([], q)
  | op :: ops =>
    let r := q.perform now op
    let (results, q) := r.state.performAll now ops
    (r.value :: results, q)

end Agenda
