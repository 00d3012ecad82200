import Agenda.Arena
import Agenda.Refusal
import Agenda.Reply
import Agenda.Time

/-!
# The queue

A queue holds messages in the order in which they become due: ascending due-time, first come first
served among equal due-times, except that due-time 0 goes to the very front. A sync barrier holds
back the synchronous messages behind it. One consumer drains the queue; any number of producers
use the operations of this module.

A producer notifies the consumer's parker only if the consumer may be asleep (`blocked`) and the
new message is the next one it may take. Posting a barrier never does.
-/

namespace Agenda

/-- A callback for idle times, known by a number. -/
abbrev IdleHandler := Nat

/-- The state of a queue. -/
structure Queue where
  /-- Whether `quit` may stop this queue. -/
  quittable : Bool := true
  arena : Arena := {}
  /-- The registered idle handlers, oldest first; a handler may be registered more than once. -/
  idleHandlers : List IdleHandler := []
  /-- The list that the next idle pass fills with the handlers it runs. -/
  spare : List IdleHandler := []
  /-- The token of the next barrier. -/
  nextToken : Token := 0
  quitting : Bool := false
  /-- The consumer is about to park, or parked, with a timeout other than immediate. -/
  blocked : Bool := false
  disposed : Bool := false
  deriving DecidableEq, Repr, Inhabited

namespace Queue

/-- The pending messages and barriers, first to last. -/
def pending (q : Queue) : List Message :=
  q.arena.toList

/-- The number of pending messages and barriers. -/
def size (q : Queue) : Nat :=
  q.arena.size

/-- Nothing is pending. -/
def isEmpty (q : Queue) : Bool :=
  q.arena.head.isNone

/-- The last of `ids` that is not due later than `due`, `prev` being the slot before them. With it
comes `wake`, unless an asynchronous message was passed on the way. -/
def walk (a : Arena) (due : Time) (prev : Nat) (wake : Bool) : List Nat → Nat × Bool
  | [] => (prev, wake)
  | id :: ids =>
    if due < (a.get id).due then (prev, wake)
    else walk a due id (wake && !(a.get id).async) ids

/-- The slot at the head, when a message due at `due` belongs behind it. -/
def headBefore? (q : Queue) (due : Time) : Option Nat :=
  q.arena.head.filter fun head => due != 0 && (q.arena.get head).due ≤ due

/-- Links a message at its due position. The answer says whether a blocked consumer has to be
woken for it: always for a new head; further back only for the first asynchronous message of a
queue that is stalled by a barrier. -/
def link (q : Queue) (m : Message) : Queue × Bool :=
  match q.headBefore? m.due with
  | none => ({ q with arena := q.arena.pushFront m }, q.blocked)
  | some head =>
    let stalled := q.blocked && m.async && (q.arena.get head).isBarrier
    let (prev, wake) := walk q.arena m.due head stalled (q.arena.orderAfter head)
    ({ q with arena := q.arena.insertAfter prev m }, wake)

/-- Takes a message, to become due at `due`. A queue that is quitting answers `false` and drops
it. -/
def enqueue (q : Queue) (m : Message) (due : Time) : Reply Queue (Except Refusal Bool) :=
  match m.target with
  | none => ⟨q, .error .noTarget, false, []⟩
  | some target =>
    if m.inUse then ⟨q, .error (.inUse m), false, []⟩
    else if q.quitting then ⟨q, .ok false, false, [.deadTarget target.name]⟩
    else
      let (q', wake) := q.link { m with inUse := true, due }
      ⟨q', .ok true, wake, []⟩

/-- Posts a sync barrier due at `due`, and answers with its token; a queue that is quitting has
none. -/
def postBarrier (q : Queue) (due : Time) : Reply Queue (Option Token) :=
  if q.quitting then ⟨q, none, false, [.lateBarrier]⟩
  else
    let token := q.nextToken
    let (q', _) := { q with nextToken := token + 1 }.link (.barrier token due)
    ⟨q', some token, false, [.barrierPosted token due]⟩

/-- Removes the barrier with this token. If it stalled the head of the queue, the consumer is woken,
unless the next message is a barrier as well or the queue is quitting and so awake. -/
def removeBarrier (q : Queue) (token : Token) : Reply Queue (Except Refusal Unit) :=
  match q.arena.find? fun m => m.token? == some token with
  | none => ⟨q, .error (.noBarrier token), false, []⟩
  | some place =>
    let atHead := place.prev.isNone
    let beforeBarrier := (q.arena.next place.id).any fun next => (q.arena.get next).isBarrier
    let wake := atHead && !beforeBarrier && !q.quitting
    ⟨{ q with arena := q.arena.unlink place }, .ok (), wake, [.barrierRemoved token]⟩

/-- The last of `ids` that is due at `now`, `last` being the slot before them. -/
def lastDue (a : Arena) (now : Time) (last : Nat) : List Nat → Nat
  | [] => last
  | id :: ids => if now < (a.get id).due then last else lastDue a now id ids

/-- Drops every message that is due after `now`, and says how many. -/
def dropFuture (q : Queue) (now : Time) : Nat × Arena :=
  match q.arena.head with
  | none => (0, q.arena)
  | some head =>
    if now < (q.arena.get head).due then q.arena.clear
    else q.arena.truncateAfter (lastDue q.arena now head (q.arena.orderAfter head))

/-- Stops the queue. A safe quit keeps what is due at `now`, any other quit keeps nothing; the
consumer takes what is left and then gets no message. Quitting again changes nothing. -/
def quit (q : Queue) (now : Time) (safe : Bool) : Reply Queue (Except Refusal Unit) :=
  if !q.quittable then ⟨q, .error .quitForbidden, false, []⟩
  else if q.quitting then ⟨q, .ok (), false, []⟩
  else
    let (discarded, arena) := if safe then q.dropFuture now else q.arena.clear
    ⟨{ q with arena, quitting := true }, .ok (), true, [.quitting safe discarded arena.size]⟩

/-- Removes the pending messages that a filter accepts, and says how many. -/
def remove (q : Queue) (f : Filter) : Reply Queue Nat :=
  let (n, arena) := q.arena.removeIf f.accepts
  ⟨{ q with arena }, n, false, []⟩

/-- Some pending message is accepted by a filter. -/
def has (q : Queue) (f : Filter) : Bool :=
  q.pending.any f.accepts

/-- Registers an idle handler. -/
def addIdle (q : Queue) (h : IdleHandler) : Queue :=
  { q with idleHandlers := q.idleHandlers ++ [h] }

/-- Takes back the oldest registration of an idle handler, if there is one. -/
def removeIdle (q : Queue) (h : IdleHandler) : Queue :=
  { q with idleHandlers := q.idleHandlers.erase h }

/-- The consumer waits for work, given whether it is parked. -/
def isIdling (q : Queue) (parked : Bool) : Bool :=
  !q.quitting && parked

/-- Gives back everything that the queue holds. -/
def dispose (q : Queue) : Queue :=
  if q.disposed then q
  else { q with disposed := true, arena := {}, idleHandlers := [], spare := [] }

end Queue

end Agenda
