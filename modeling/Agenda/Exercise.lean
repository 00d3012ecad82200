import Agenda.Dump
import Agenda.Handler
import Agenda.Loop

/-!
# The exercise

Several producers send messages with various delays to one loop, through a plain and an
asynchronous handler, perhaps behind a barrier. Here time passes only when everyone waits for it.
Without a barrier the loop takes each message at its due-time before the next one is sent. With one,
everything is sent at the first reading of the clock, the barrier is removed when its time is over,
and then the loop takes every message at its due-time.
-/

namespace Agenda.Exercise

/-- The choices of an exercise. -/
structure Options where
  producers : UInt64 := 4
  /-- The number of messages that each producer sends. -/
  messages : UInt64 := 250
  /-- A bound of the delays, in milliseconds. -/
  maxDelay : UInt64 := 50
  /-- How long a barrier holds the messages, in milliseconds; without it there is no barrier. -/
  barrier : Option UInt64 := none
  /-- Every other message is asynchronous. -/
  mixAsync : Bool := false
  quitSafely : Bool := false
  /-- A dump is taken before the queue is told to quit. -/
  dump : Bool := false
  deriving DecidableEq, Repr, Inhabited

/-- What came of an exercise. -/
structure Report where
  sent : Nat
  dispatched : Nat
  asynchronous : Nat
  idlePasses : Nat
  /-- The number of synchronous messages that came after one that was due later. -/
  outOfOrder : Nat
  stats : Stats
  deriving DecidableEq, Repr, Inhabited

/-- A report as an object. -/
def Report.toJson (r : Report) : Json :=
  .record [("sent", .nat r.sent), ("dispatched", .nat r.dispatched),
    ("asynchronous", .nat r.asynchronous), ("idle_passes", .nat r.idlePasses),
    ("out_of_order", .nat r.outOfOrder), ("looper", r.stats.toJson)]

/-- The handler of synchronous messages. -/
def plain : Handler :=
  { target := { id := 0, name := "demo-sync" } }

/-- The handler of asynchronous messages. -/
def asynchronous : Handler :=
  { target := { id := 1, name := "demo-async" }, async := true }

/-- The idle handler, which counts its runs. -/
def idleHandler : IdleHandler := 0

/-- The queue, the loop and the clock of an exercise. -/
structure State where
  queue : Queue
  loop : Loop
  now : Time
  idlePasses : Nat := 0
  sent : Nat := 0
  /-- What was dispatched, newest first. -/
  dispatched : List Message := []

/-- Producer number `producer` sends its message number `i`. -/
def State.send (o : Options) (s : State) (producer i : Nat) : State :=
  let delay := UInt64.ofNat (i * 7 + producer * 3) % max o.maxDelay 1
  let handler := if o.mixAsync && i % 2 == 1 then asynchronous else plain
  let what := Int32.ofNat (producer * o.messages.toNat + i)
  let r := s.queue.perform s.now (handler.sendDelayed s.now (.coded handler.target what)
    (.ofMillis delay))
  let taken := r.value matches .sent (.ok true)
  { s with queue := r.state, sent := if taken then s.sent + 1 else s.sent }

/-- The loop deals with a message. -/
def State.deal (s : State) (m : Message) : State :=
  { s with loop := s.loop.handle s.now m, dispatched := m :: s.dispatched }

/-- The loop brings a call for a message to its end, or to a park without end. -/
def State.take : (bound : Nat) → Call → State → State
  | _ + 1, .returned (some m), s => s.deal m
  | bound + 1, .awake settled, s =>
    let r := s.queue.scan s.now settled
    take bound r.value { s with queue := r.state }
  | bound + 1, .parking (.millis n) settled, s =>
    take bound (.awake settled) { s with now := after s.now n.toNat }
  | bound + 1, .parking .immediate settled, s => take bound (.awake settled) s
  | bound + 1, .idle batch, s =>
    let r := s.queue.endIdlePass
    take bound r.value { s with queue := r.state, idlePasses := s.idlePasses + batch.length }
  | _, _, s => s

/-- More steps than a call can take: its park is split when it is long. -/
def callBound (o : Options) : Nat :=
  16 + 2 * (o.maxDelay.toNat / longestPark.toNat)

/-- The loop makes one call for a message, unless a barrier is in the way. -/
def State.attend (o : Options) (s : State) : State :=
  if o.barrier.isNone then s.take (callBound o) s.queue.call else s

/-- All producers send their messages, one producer after the other. -/
def State.sendAll (o : Options) (s : State) : State :=
  (List.range o.producers.toNat).foldl
    (fun s producer =>
      (List.range o.messages.toNat).foldl (fun s i => (s.send o producer i).attend o) s) s

/-- The loop makes `n` calls for a message. -/
def State.takeAll (o : Options) : Nat → State → State
  | 0, s => s
  | n + 1, s => takeAll o n (s.take (callBound o) s.queue.call)

/-- Posts the barrier, if there is one. -/
def State.hold (o : Options) (s : State) : State × Option Token :=
  match o.barrier with
  | none => (s, none)
  | some _ =>
    let r := s.queue.postBarrier s.now
    ({ s with queue := r.state }, r.value)

/-- Removes the barrier when its time is over. -/
def State.unhold (o : Options) (s : State) : Option Token → State
  | none => s
  | some token =>
    { s with
      now := after s.now (o.barrier.getD 0).toNat, queue := (s.queue.removeBarrier token).state }

/-- The number of synchronous messages that directly follow one that was due later. -/
def outOfOrder : List Message → Nat
  | a :: b :: ms => (if b.due < a.due && !b.async then 1 else 0) + outOfOrder (b :: ms)
  | _ => 0

/-- The report on what has happened so far. -/
def State.report (s : State) : Report where
  sent := s.sent
  dispatched := s.dispatched.length
  asynchronous := s.dispatched.countP Message.async
  idlePasses := s.idlePasses
  outOfOrder := outOfOrder s.dispatched.reverse
  stats := s.loop.stats

/-- The exercise up to the moment when everything is dispatched and the loop waits. -/
def course (c : Config) (o : Options) : State :=
  let queue : Queue := { quittable := c.quittable }
  let s : State :=
    { queue := queue.addIdle idleHandler, loop := Loop.ofConfig c, now := Clock.steady 0 }
  let (s, token) := s.hold o
  let s := (s.sendAll o).unhold o token
  s.takeAll o (s.sent - s.dispatched.length + 1)

/-- Runs an exercise: the dump, if one is taken, and the report unless quitting is refused. -/
def run (c : Config) (o : Options) : Option Dump × Except Refusal Report :=
  let s := course c o
  let dump := if o.dump then some (s.queue.dump s.now true) else none
  (dump, (s.queue.quit s.now o.quitSafely).value.map fun _ => s.report)

end Agenda.Exercise
