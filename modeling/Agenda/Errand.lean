import Agenda.Handler

/-!
# Errands

An errand is what any thread may have a queue do without a change to its life: a message is sent,
directly or through a handler, pending messages are removed or looked for, a barrier is posted or
removed. An errand is for one target or for none: a filter takes messages of its own target only,
and barriers have no target.
-/

namespace Agenda

/-- The time for which something is sent through a handler. -/
inductive Moment where
  /-- Ahead of everything that is pending. -/
  | front
  | now
  | after (delay : Span)
  | exactly (due : Time)
  deriving DecidableEq, Repr

namespace Handler

/-- Sends a message for a moment. -/
def sendFor (h : Handler) (now : Time) (m : Message) : Moment → Operation
  | .front => h.sendFront m
  | .now => h.send now m
  | .after delay => h.sendDelayed now m delay
  | .exactly due => h.sendAt m due

/-- Posts a callback for a moment. -/
def postFor (h : Handler) (now : Time) (c : Callback) : Moment → Operation
  | .front => h.postFront c
  | .now => h.post now c
  | .after delay => h.postDelayed now c delay
  | .exactly due => h.postAt c due

end Handler

/-- Something that a queue is asked to do. -/
inductive Errand where
  /-- Sends a message to the target it is addressed to. -/
  | enqueue (m : Message) (due : Time)
  | send (h : Handler) (m : Message) (moment : Moment)
  | sendCode (h : Handler) (what : Int32)
  | post (h : Handler) (c : Callback) (moment : Moment)
  | remove (f : Filter)
  | has (f : Filter)
  | postBarrier (due : Time)
  | removeBarrier (token : Token)
  deriving DecidableEq, Repr

namespace Errand

/-- The target that an errand is for. -/
def target? : Errand → Option Target
  | .enqueue m _ => m.target
  | .send h _ _ | .sendCode h _ | .post h _ _ => some h.target
  | .remove f | .has f => some f.target
  | .postBarrier _ | .removeBarrier _ => none

/-- What comes back from an errand. -/
inductive Answer where
  | result (r : Operation.Result)
  | found (b : Bool)
  deriving Repr

end Errand

/-- What has this target is this target's own. -/
def Target.owns (g : Target) (target : Option Target) : Bool :=
  target.any fun t => t.id == g.id

namespace Queue

/-- Does an operation that an errand comes to. -/
def carryOut (q : Queue) (now : Time) (op : Operation) : Errand.Answer × Queue :=
  let r := q.perform now op
  (.result r.value, r.state)

/-- Runs an errand, at clock reading `now`. -/
def serve (q : Queue) (now : Time) : Errand → Errand.Answer × Queue
  | .enqueue m due => q.carryOut now (.enqueue m due)
  | .send h m moment => q.carryOut now (h.sendFor now m moment)
  | .sendCode h what => q.carryOut now (h.sendCode now what)
  | .post h c moment => q.carryOut now (h.postFor now c moment)
  | .remove f => q.carryOut now (.remove f)
  | .has f => (.found (q.has f), q)
  | .postBarrier due => q.carryOut now (.postBarrier due)
  | .removeBarrier token => q.carryOut now (.removeBarrier token)

/-- Runs errands one after the other, each at a clock reading of its own. Each answer comes with
the errand that it is to. -/
def serveAll (q : Queue) : List (Time × Errand) → List (Errand × Errand.Answer) × Queue
  | [] => ([], q)
  | (now, e) :: es =>
    let (answer, q) := q.serve now e
    let (answers, q) := q.serveAll es
    ((e, answer) :: answers, q)

/-- What is pending for a target, in order. -/
def pendingFor (q : Queue) (g : Target) : List Message :=
  q.pending.filter fun m => g.owns m.target

end Queue

end Agenda
