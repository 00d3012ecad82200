import Agenda.Queue

/-!
# The consumer

A call for the next message alternates between parking and looking at the queue. It is written
here as a machine: a `Call` says where the call stands between two critical sections, and each
critical section is one function. What happens in between, such as other threads' work and the
idle handlers' own actions, is left to whoever runs the machine.

A look at the queue (`Queue.scan`) takes the first message that may run if it is due. If there is
none, a queue that is quitting is disposed; otherwise, once per call, the idle handlers run, after
which the queue is looked at again without sleeping.
-/

namespace Agenda

/-- How long a park may last. -/
inductive Timeout where
  /-- Not at all: a pending notification is taken, nothing else. -/
  | immediate
  /-- Until a notification. -/
  | indefinite
  /-- Until a notification, but no longer than this many milliseconds. -/
  | millis (n : UInt64)
  deriving DecidableEq, Repr, Inhabited

/-- The longest single park in milliseconds; a longer wait is split. -/
def longestPark : UInt64 := 2147483647

/-- Where a call for the next message stands. A call is settled when no idle pass will start in it
any more. -/
inductive Call where
  /-- About to park, or parked. -/
  | parking (timeout : Timeout) (settled : Bool)
  /-- Back from parking, about to look at the queue. -/
  | awake (settled : Bool)
  /-- In the idle pass, with the handlers that are still to run. -/
  | idle (batch : List IdleHandler)
  /-- Over, with a message unless the queue has quit. -/
  | returned (message : Option Message)
  deriving DecidableEq, Repr, Inhabited

/-- What a callback that did not return leaves behind. -/
inductive FaultCause where
  | text (s : String)
  /-- Something that is no text. -/
  | untold
  deriving DecidableEq, Repr

/-- The wording of a fault. -/
def FaultCause.reason : FaultCause → String
  | .text s => s
  | .untold => "non-string panic payload"

/-- How the run of an idle handler ended. -/
inductive IdleOutcome where
  | keep
  | drop
  /-- It did not return. -/
  | fault (cause : FaultCause)
  deriving DecidableEq, Repr

namespace Queue

/-- The place of the message that the consumer may take next: the head, or behind a barrier the
first asynchronous message. -/
def eligible? (q : Queue) : Option Place :=
  q.arena.head.bind fun head =>
    if (q.arena.get head).isBarrier then
      q.arena.search Message.async (some head) (q.arena.orderAfter head)
    else some ⟨none, head⟩

/-- Nothing at the head is due. -/
def headIdle (q : Queue) (now : Time) : Bool :=
  q.arena.first?.all fun m => now < m.due

/-- How a call begins. A queue that was disposed has no message. -/
def call (q : Queue) : Call :=
  if q.disposed then .returned none else .parking .immediate false

/-- The timeout of the next park, when `place` is not due at `now`. -/
def timeoutFor (q : Queue) (now : Time) : Option Place → Timeout
  | none => .indefinite
  | some place => .millis (min ((q.arena.get place.id).due - now) longestPark)

/-- Starts an idle pass with a copy of the registered handlers. -/
def startIdlePass (q : Queue) : Reply Queue Call :=
  ⟨{ q with spare := [] }, .idle q.idleHandlers, false, []⟩

/-- What a scan does when no message can be taken. -/
def sleepOrIdle (q : Queue) (now : Time) (settled : Bool) (timeout : Timeout) : Reply Queue Call :=
  if q.quitting then ⟨q.dispose, .returned none, false, [.disposed]⟩
  else
    let idle := !settled && q.headIdle now
    if idle && !q.idleHandlers.isEmpty then q.startIdlePass
    else ⟨{ q with blocked := true }, .parking timeout (settled || idle), false, []⟩

/-- One look at the queue, at clock reading `now`. -/
def scan (q : Queue) (now : Time) (settled : Bool) : Reply Queue Call :=
  if q.disposed then ⟨q, .returned none, false, []⟩
  else
    match q.eligible? with
    | none => q.sleepOrIdle now settled .indefinite
    | some place =>
      let m := q.arena.get place.id
      if now < m.due then q.sleepOrIdle now settled (q.timeoutFor now (some place))
      else
        ⟨{ q with blocked := false, arena := q.arena.unlink place }, .returned (some m), false,
          [.dispatching m]⟩

/-- The critical section after the run of an idle handler: one that does not want to stay loses a
registration. The handlers in `rest` are still to run. -/
def afterIdle (q : Queue) (h : IdleHandler) (rest : List IdleHandler) :
    IdleOutcome → Reply Queue Call
  | .keep => ⟨q, .idle rest, false, []⟩
  | .drop => ⟨q.removeIdle h, .idle rest, false, []⟩
  | .fault cause => ⟨q, .idle rest, false, [.idleFault cause.reason]⟩

/-- The end of an idle pass. A message may have come meanwhile, so the next park is immediate. -/
def endIdlePass (q : Queue) : Reply Queue Call :=
  ⟨{ q with spare := [] }, .parking .immediate true, false, []⟩

end Queue

end Agenda
