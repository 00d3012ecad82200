import Agenda.Config
import Agenda.Consumer

/-!
# The loop

A loop takes messages from its queue and dispatches each to its target, until the queue has no
more. It counts what it does, and what it finds slow.
-/

namespace Agenda

/-- What a loop has done. -/
structure Stats where
  dispatched : UInt64 := 0
  slowDispatches : UInt64 := 0
  slowDeliveries : UInt64 := 0
  deriving DecidableEq, Repr, Inhabited

namespace Stats

/-- The written names of the fields, in order. -/
def keys : List String :=
  ["dispatched", "slow_dispatches", "slow_deliveries"]

/-- The counts as an object. -/
def toJson (s : Stats) : Json :=
  .record (keys.zip
    [.nat s.dispatched.toNat, .nat s.slowDispatches.toNat, .nat s.slowDeliveries.toNat])

/-- The counts with the given fields, in the order of `keys`. -/
def ofFields? : List (Option Json) → Option Stats
  | [dispatched, slowDispatches, slowDeliveries] => do
    return {
      dispatched := ← Json.required Json.uint64? dispatched
      slowDispatches := ← Json.required Json.uint64? slowDispatches
      slowDeliveries := ← Json.required Json.uint64? slowDeliveries }
  | _ => none

/-- Reads the counts. -/
def ofJson? (v : Json) : Option Stats :=
  (v.fields? keys).bind ofFields?

end Stats

/-- A loop at work: its name, its thresholds in milliseconds, and its counts so far. -/
structure Loop where
  name : String
  slowDispatch : Option UInt64
  slowDelivery : Option UInt64
  stats : Stats := {}
  deriving DecidableEq, Repr, Inhabited

namespace Loop

/-- A loop that has done nothing yet. -/
def ofConfig (c : Config) : Loop :=
  { name := c.name, slowDispatch := c.slowDispatch, slowDelivery := c.slowDelivery }

/-- What is reported when a loop starts. -/
def started (l : Loop) : Notice :=
  .loopStarted l.name

/-- What is reported when a loop ends. -/
def ended (l : Loop) : Notice :=
  .loopEnded l.name l.stats.dispatched.toNat

/-- How late a message is at clock reading `now`. -/
def lateness (now : Time) (m : Message) : UInt64 :=
  if m.due ≤ now then now - m.due else 0

/-- The delivery of a message is slow at clock reading `now`. Messages from the front of the queue
were not promised for any time, so they are never late. -/
def isSlowDelivery (l : Loop) (now : Time) (m : Message) : Bool :=
  l.slowDelivery.any fun threshold => m.due != 0 && threshold ≤ lateness now m

/-- Notes the delivery of a message for `target`, at clock reading `now`. -/
def deliver (l : Loop) (now : Time) (target : Target) (m : Message) : Loop × List Notice :=
  if l.isSlowDelivery now m then
    ({ l with stats := { l.stats with slowDeliveries := l.stats.slowDeliveries + 1 } },
      [.slowDelivery l.name target.name m.what (lateness now m)])
  else (l, [])

/-- Notes that `target` has dealt with a message, which took `elapsed` milliseconds. -/
def dispatched (l : Loop) (elapsed : Nat) (target : Target) (m : Message) : Loop × List Notice :=
  let l := { l with stats := { l.stats with dispatched := l.stats.dispatched + 1 } }
  if l.slowDispatch.any fun threshold => threshold.toNat ≤ elapsed then
    ({ l with stats := { l.stats with slowDispatches := l.stats.slowDispatches + 1 } },
      [.slowDispatch l.name target.name m.what elapsed])
  else (l, [])

/-- Deals with a message at clock reading `now`, in no time. -/
def handle (l : Loop) (now : Time) (m : Message) : Loop :=
  match m.target with
  | none => l
  | some target => ((l.deliver now target m).1.dispatched 0 target m).1

/-- What a loop leaves behind that takes messages as long as its first look at the queue finds
one. -/
structure Drained where
  /-- The messages that it took, in order. -/
  messages : List Message := []
  loop : Loop
  queue : Queue
  /-- Where the last call for a message stands. -/
  call : Call

/-- Deals with messages, at clock reading `now`, as long as the first look at the queue finds
one. -/
def drain (now : Time) : (bound : Nat) → Loop → Queue → Drained
  | 0, loop, queue => { loop, queue, call := queue.call }
  | bound + 1, loop, queue =>
    let reply := queue.scan now false
    match reply.value with
    | .returned (some m) =>
      let rest := drain now bound (loop.handle now m) reply.state
      { rest with messages := m :: rest.messages }
    | call => { loop, queue := reply.state, call }

end Loop

end Agenda
