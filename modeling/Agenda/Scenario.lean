import Agenda.Dump
import Agenda.Handler
import Agenda.Loop
import Agenda.Operation

/-!
# Scenarios

A scenario is a fixed course of events around one queue, for rehearsals and simulations.
Everything that happens on its own in a program is written out in it: when the clock moves, what
the targets, callbacks and idle handlers do when they run, and what other threads do while the
consumer is parked.
-/

namespace Agenda.Scenario

/-- The name under which a message is kept for later steps. -/
abbrev Register := String

/-- What is done through a handler. -/
inductive HandlerStep where
  | info
  | send (message : Register)
  | sendDelayed (message : Register) (delay : Span)
  | sendAt (message : Register) (due : Time)
  | sendFront (message : Register)
  | sendCode (what : Int32)
  | post (callback : Callback)
  | postDelayed (callback : Callback) (delay : Span)
  | postAt (callback : Callback) (due : Time)
  | postFront (callback : Callback)
  | remove (what : Int32)
  | removeCarrying (what : Int32) (object : Payload)
  | removePosts (callback : Callback)
  | removeAll (object : Option Payload)
  | has (what : Int32)
  | hasPosts (callback : Callback)
  deriving Repr

/-- One thing that is done. -/
inductive Step where
  /-- Reads the clock. -/
  | now
  /-- Moves the clock on. -/
  | advance (d : Span)
  /-- Sets the clock; it never goes back. -/
  | set (t : Time)
  /-- Moves the clock on by the length of the park in which the step is done. -/
  | elapse
  /-- Keeps a message. -/
  | keep (message : Register) (m : Message)
  /-- Changes a message. -/
  | edit (message : Register) (changes : List Message.Edit)
  /-- Copies a message as it is. -/
  | clone (message copy : Register)
  /-- Copies the content of a message. -/
  | duplicate (message copy : Register)
  /-- The text of a message. -/
  | text (message : Register)
  /-- Hands a message to its target. -/
  | dispatch (message : Register)
  /-- Tries a filter on a message. -/
  | accepts (f : Filter) (message : Register)
  /-- Sends a message and forgets it. -/
  | enqueue (message : Register) (due : Time)
  /-- Does an operation on the queue. -/
  | operation (op : Operation)
  /-- Calls for the next message. Each list of steps is done during one park that would last. -/
  | next (parks : List (List Step)) (keep : Register)
  /-- Runs a loop on the queue. -/
  | run (config : Config) (parks : List (List Step))
  | has (f : Filter)
  | idling
  | quitting
  | size
  | dump
  | handler (h : Handler) (step : HandlerStep)
  deriving Repr

/-- What something does when it runs; it does so only the first times. -/
structure Body where
  steps : List Step := []
  times : Nat := 1
  deriving Repr, Inhabited

/-- What a target does with a message. -/
inductive Role where
  /-- It notes every message. -/
  | plain
  /-- It is a handler: it runs the message's callback, or else notes the message. -/
  | listener
  /-- It is a handler for callbacks: it ignores a message without one. -/
  | poster
  deriving DecidableEq, Repr, Inhabited

/-- What stands behind a target. -/
structure Actor where
  role : Role := .plain
  body : Body := {}
  deriving Repr, Inhabited

/-- What stands behind an idle handler. -/
structure IdleActor where
  /-- Whether it stays, run by run; the last answer is repeated, and without any it stays. -/
  keep : List Bool := []
  /-- It never returns, and leaves this. -/
  fault : Option FaultCause := none
  body : Body := {}
  deriving Repr, Inhabited

/-- The setting of a scenario and its course. -/
structure Plan where
  start : Time := 0
  quittable : Bool := true
  actors : Array Actor := #[]
  callbacks : Array Body := #[]
  idleActors : Array IdleActor := #[]
  steps : List Step := []

mutual

/-- The number of steps that a step can cause, itself included. -/
def Step.weight : Step → Nat
  | .next parks _ => 1 + parksWeight parks
  | .run _ parks => 1 + parksWeight parks
  | _ => 1

/-- The number of steps that a list of steps can cause. -/
def stepsWeight : List Step → Nat
  | [] => 0
  | step :: steps => step.weight + stepsWeight steps

/-- The number of steps that can be caused during parks. -/
def parksWeight : List (List Step) → Nat
  | [] => 0
  | steps :: parks => stepsWeight steps + parksWeight parks

end

/-- The number of steps that a body can cause in all. -/
def Body.weight (b : Body) : Nat :=
  b.times * stepsWeight b.steps

/-- The number of steps that some bodies can cause in all. -/
def bodiesWeight : List Body → Nat
  | [] => 0
  | b :: bodies => b.weight + bodiesWeight bodies

/-- More messages than a scenario can ever send, since every message takes a step. -/
def Plan.messageBound (p : Plan) : Nat :=
  1 + stepsWeight p.steps + bodiesWeight (p.actors.toList.map Actor.body)
    + bodiesWeight p.callbacks.toList + bodiesWeight (p.idleActors.toList.map IdleActor.body)

end Agenda.Scenario
