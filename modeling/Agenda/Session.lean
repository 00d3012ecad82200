import Agenda.Handler
import Agenda.Loop

/-!
# Sessions

A session is the life of a loop on a thread of its own. The first message holds the loop at a
gate. While it is held, an idle handler is registered, producers send, and the queue is told to
quit; then the gate opens and the loop ends.
-/

namespace Agenda.Session

/-- The way in which something is sent. -/
inductive Via where
  /-- A message through the plain handler. -/
  | sync
  /-- A message through the asynchronous handler. -/
  | async
  /-- A callback through the plain handler. -/
  | post
  /-- A barrier. -/
  | barrier
  /-- The removal of a barrier, the code being its token. -/
  | unbarrier
  deriving DecidableEq, Repr, Inhabited

/-- Something that is sent. -/
structure Send where
  via : Via
  what : Int32
  due : Time
  deriving DecidableEq, Repr, Inhabited

/-- The plan of a session. -/
structure Plan where
  config : Config
  /-- The reading of the clock, which stands still. -/
  now : Time
  sends : List Send
  /-- Whether the queue quits safely. -/
  safe : Bool

/-- The handler whose only message is the gate. -/
def gate : Handler :=
  { target := { id := 0, name := "gate" } }

/-- The message at whose handling the loop is held. -/
def gateMessage : Message :=
  .coded gate.target (-1)

/-- The plain handler. -/
def plain : Handler :=
  { target := { id := 1, name := "sync" } }

/-- The asynchronous handler. -/
def asynchronous : Handler :=
  { target := { id := 2, name := "async" }, async := true }

/-- The idle handler. -/
def idleHandler : IdleHandler := 0

/-- The operation that a send comes to. A callback is known by the number `i` of its send. -/
def Send.operation (i : Nat) (s : Send) : Operation :=
  match s.via with
  | .sync => plain.sendAt (.coded plain.target s.what) s.due
  | .async => asynchronous.sendAt (.coded asynchronous.target s.what) s.due
  | .post => plain.postAt i s.due
  | .barrier => .postBarrier s.due
  | .unbarrier => .removeBarrier s.what

/-- What a message of the session says: the way in which it was sent, and its code. -/
def received (sends : List Send) (m : Message) : Via × Int32 :=
  match m.callback with
  | some i => (.post, (sends[i]?.map Send.what).getD 0)
  | none => (if m.async then .async else .sync, m.what)

/-- What a session that has ended leaves behind. -/
structure Ending where
  /-- The number of messages that were left when the queue had been told to quit. -/
  left : Nat
  /-- What was dispatched after the gate. -/
  received : List (Via × Int32)
  stats : Stats
  /-- The idle handler ran. -/
  idleRan : Bool
  /-- The queue after the end. -/
  queue : Queue

/-- What comes of a session. -/
structure Outcome where
  sent : List Operation.Result
  /-- The number of messages that were pending before the queue was told to quit. -/
  queued : Nat
  ending : Except Refusal Ending

/-- A loop that is held at the gate, with its queue. -/
def held (p : Plan) : Loop × Queue :=
  let q : Queue := { quittable := p.config.quittable }
  let q := (q.perform p.now (gate.sendFront gateMessage)).state
  let r := q.scan p.now false
  let loop := Loop.ofConfig p.config
  match r.value with
  | .returned (some m) => ((loop.deliver p.now gate.target m).1, r.state)
  | _ => (loop, r.state)

/-- Runs a session. -/
def Plan.run (p : Plan) : Outcome :=
  let (loop, q) := held p
  let (sent, q) := (q.addIdle idleHandler).performAll p.now (p.sends.mapIdx Send.operation)
  let r := q.quit p.now p.safe
  let ending := r.value.map fun _ =>
    let loop := (loop.dispatched 0 gate.target gateMessage).1
    let drained := loop.drain p.now (r.state.size + 1) r.state
    { left := r.state.size, received := drained.messages.map (received p.sends)
      stats := drained.loop.stats, idleRan := drained.call matches .idle _, queue := drained.queue }
  { sent, queued := q.size, ending }

end Agenda.Session
