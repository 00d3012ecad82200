import Agenda.Arena.Checked
import Agenda.Consumer
import Agenda.Dump
import Agenda.Operation

/-!
# The queue with checks

What a queue does with its arena, by the checked accesses of `Arena.Checked`. What it decides
without a slot, such as whether a message is taken at all, it decides as ever. An operation has no
answer if one of its checks fails.
-/

namespace Agenda.Queue.Checked

open Arena.Checked (find get insertAfter next pushFront search truncateAfter unlink)

/-! ### Producers -/

/-- The last slot in front of the messages from `cursor` on that are due later than `due`, `prev`
being the slot before `cursor`. With it comes `wake`, unless an asynchronous message was passed. -/
def walk (a : Arena) (due : Time) :
    (bound : Nat) → (prev : Nat) → (wake : Bool) → (cursor : Option Nat) → Option (Nat × Bool)
  | _, prev, wake, none => some (prev, wake)
  | 0, _, _, some _ => none
  | bound + 1, prev, wake, some id => do
    let m ← get a id
    if due < m.due then return (prev, wake)
    else
      let after ← next a id
      walk a due bound id (wake && !m.async) after

/-- The slot at the head, when a message due at `due` belongs behind it. -/
def headBefore (q : Queue) (due : Time) : Option (Option Nat) :=
  match q.arena.head with
  | none => some none
  | some head => do
    let first ← get q.arena head
    return if due != 0 && first.due ≤ due then some head else none

/-- Links a message at its due position. -/
def link (q : Queue) (m : Message) : Option (Queue × Bool) := do
  let head? ← headBefore q m.due
  match head? with
  | none =>
    let arena ← pushFront q.arena m
    return ({ q with arena }, q.blocked)
  | some head =>
    let first ← get q.arena head
    let after ← next q.arena head
    let stalled := q.blocked && m.async && first.isBarrier
    let (prev, wake) ← walk q.arena m.due q.arena.slots.size head stalled after
    let arena ← insertAfter q.arena prev m
    return ({ q with arena }, wake)

/-- Takes a message, to become due at `due`. -/
def enqueue (q : Queue) (m : Message) (due : Time) : Option (Reply Queue (Except Refusal Bool)) :=
  if m.target.isSome && !m.inUse && !q.quitting then do
    let (q', wake) ← link q { m with inUse := true, due }
    return ⟨q', .ok true, wake, []⟩
  else some (q.enqueue m due)

/-- Posts a sync barrier due at `due`, and answers with its token. -/
def postBarrier (q : Queue) (due : Time) : Option (Reply Queue (Option Token)) :=
  if q.quitting then some (q.postBarrier due)
  else do
    let token := q.nextToken
    let (q', _) ← link { q with nextToken := token + 1 } (.barrier token due)
    return ⟨q', some token, false, [.barrierPosted token due]⟩

/-- The next message after a slot is a barrier. -/
def beforeBarrier (a : Arena) (id : Nat) : Option Bool := do
  let after ← next a id
  match after with
  | none => return false
  | some id =>
    let m ← get a id
    return m.isBarrier

/-- Removes the barrier with this token. -/
def removeBarrier (q : Queue) (token : Token) : Option (Reply Queue (Except Refusal Unit)) := do
  let place? ← find q.arena fun m => m.token? == some token
  match place? with
  | none => return ⟨q, .error (.noBarrier token), false, []⟩
  | some place =>
    let stays ← beforeBarrier q.arena place.id
    let (_, arena) ← unlink q.arena place
    let wake := place.prev.isNone && !stays && !q.quitting
    return ⟨{ q with arena }, .ok (), wake, [.barrierRemoved token]⟩

/-- The last slot in front of the messages from `cursor` on that are not due at `now`, `last` being
the slot before `cursor`. -/
def lastDue (a : Arena) (now : Time) :
    (bound : Nat) → (last : Nat) → (cursor : Option Nat) → Option Nat
  | _, last, none => some last
  | 0, _, some _ => none
  | bound + 1, last, some id => do
    let m ← get a id
    if now < m.due then return last
    else
      let after ← next a id
      lastDue a now bound id after

/-- Drops every message that is due after `now`, and says how many. -/
def dropFuture (q : Queue) (now : Time) : Option (Nat × Arena) :=
  match q.arena.head with
  | none => some (0, q.arena)
  | some head => do
    let first ← get q.arena head
    if now < first.due then Arena.Checked.clear q.arena
    else
      let after ← next q.arena head
      let last ← lastDue q.arena now q.arena.slots.size head after
      truncateAfter q.arena last

/-- Stops the queue. -/
def quit (q : Queue) (now : Time) (safe : Bool) : Option (Reply Queue (Except Refusal Unit)) :=
  if q.quittable && !q.quitting then do
    let (discarded, arena) ← if safe then dropFuture q now else Arena.Checked.clear q.arena
    return ⟨{ q with arena, quitting := true }, .ok (), true, [.quitting safe discarded arena.size]⟩
  else some (q.quit now safe)

/-- Removes the pending messages that a filter accepts, and says how many. -/
def remove (q : Queue) (f : Filter) : Option (Reply Queue Nat) := do
  let (n, arena) ← Arena.Checked.removeIf q.arena f.accepts
  return ⟨{ q with arena }, n, false, []⟩

/-- Does an operation, at clock reading `now`. The registry of idle handlers has no slots. -/
def perform (q : Queue) (now : Time) : Operation → Option (Reply Queue Operation.Result)
  | .enqueue m due => (enqueue q m due).map fun r => r.toResult .sent
  | .postBarrier due => (postBarrier q due).map fun r => r.toResult .posted
  | .removeBarrier token => (removeBarrier q token).map fun r => r.toResult .done
  | .remove f => (remove q f).map fun r => r.toResult .removed
  | .addIdle h => some (q.perform now (.addIdle h))
  | .removeIdle h => some (q.perform now (.removeIdle h))
  | .quit safe => (quit q now safe).map fun r => r.toResult .done

/-! ### Questions -/

/-- Some pending message is accepted by a filter. -/
def has (q : Queue) (f : Filter) : Option Bool := do
  let ms ← Arena.Checked.toList q.arena
  return ms.any f.accepts

/-- What is pending at clock reading `now`, given whether the consumer is parked. -/
def dump (q : Queue) (now : Time) (parked : Bool) : Option Dump := do
  let ms ← Arena.Checked.toList q.arena
  return { q.dump now parked with
    messages := ms.zipIdx.map fun entry => .describe entry.2 entry.1 now }

/-! ### The consumer -/

/-- The place of the message that the consumer may take next. -/
def eligible (q : Queue) : Option (Option Place) :=
  match q.arena.head with
  | none => some none
  | some head => do
    let first ← get q.arena head
    if first.isBarrier then
      let after ← next q.arena head
      search q.arena Message.async q.arena.slots.size (some head) after
    else return some ⟨none, head⟩

/-- Nothing at the head is due. -/
def headIdle (q : Queue) (now : Time) : Option Bool :=
  match q.arena.head with
  | none => some true
  | some head => do
    let first ← get q.arena head
    return now < first.due

/-- Gives back everything that the queue holds, the messages first. -/
def dispose (q : Queue) : Option Queue :=
  if q.disposed then some q
  else do
    let _ ← Arena.Checked.clear q.arena
    return q.dispose

/-- What a scan does when no message can be taken. -/
def sleepOrIdle (q : Queue) (now : Time) (settled : Bool) (timeout : Timeout) :
    Option (Reply Queue Call) :=
  if q.quitting then do
    let q' ← dispose q
    return ⟨q', .returned none, false, [.disposed]⟩
  else do
    let quiet ← headIdle q now
    let idle := !settled && quiet
    if idle && !q.idleHandlers.isEmpty then return q.startIdlePass
    else return ⟨{ q with blocked := true }, .parking timeout (settled || idle), false, []⟩

/-- One look at the queue, at clock reading `now`. -/
def scan (q : Queue) (now : Time) (settled : Bool) : Option (Reply Queue Call) :=
  if q.disposed then some ⟨q, .returned none, false, []⟩
  else do
    let place? ← eligible q
    match place? with
    | none => sleepOrIdle q now settled .indefinite
    | some place =>
      let m ← get q.arena place.id
      if now < m.due then
        sleepOrIdle q now settled (.millis (min (m.due - now) longestPark))
      else
        let (m, arena) ← unlink q.arena place
        return ⟨{ q with blocked := false, arena }, .returned (some m), false, [.dispatching m]⟩

end Agenda.Queue.Checked
