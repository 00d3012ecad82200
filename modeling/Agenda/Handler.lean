import Agenda.Operation

/-!
# Handlers

A handler is a target bound to a queue, and the producers' way to it: it turns what is asked of it
into operations on the queue. All that is sent through a handler is addressed to it, and all that
is removed through it was.
-/

namespace Agenda

/-- A target together with the kind of message that is sent through it. -/
structure Handler where
  target : Target
  /-- Everything sent through this handler is asynchronous. -/
  async : Bool := false
  deriving DecidableEq, Repr, Inhabited

namespace Handler

/-- A message as it is sent through a handler. -/
def adopt (h : Handler) (m : Message) : Message :=
  { m with target := some h.target, async := m.async || h.async }

/-- Sends a message, to become due at `due`. -/
def sendAt (h : Handler) (m : Message) (due : Time) : Operation :=
  .enqueue (h.adopt m) due

/-- Sends a message ahead of everything that is pending. -/
def sendFront (h : Handler) (m : Message) : Operation :=
  h.sendAt m 0

/-- Sends a message, to become due `d` after clock reading `now`. -/
def sendDelayed (h : Handler) (now : Time) (m : Message) (d : Span) : Operation :=
  h.sendAt m (dueAfter now d)

/-- Sends a message, to become due at once. -/
def send (h : Handler) (now : Time) (m : Message) : Operation :=
  h.sendDelayed now m {}

/-- Sends a message that is nothing but a code. -/
def sendCode (h : Handler) (now : Time) (what : Int32) : Operation :=
  h.send now (.coded h.target what)

/-- Posts a callback, to run at `due`. -/
def postAt (h : Handler) (c : Callback) (due : Time) : Operation :=
  h.sendAt (.running h.target c) due

/-- Posts a callback ahead of everything that is pending. -/
def postFront (h : Handler) (c : Callback) : Operation :=
  h.postAt c 0

/-- Posts a callback, to run `d` after clock reading `now`. -/
def postDelayed (h : Handler) (now : Time) (c : Callback) (d : Span) : Operation :=
  h.postAt c (dueAfter now d)

/-- Posts a callback, to run at once. -/
def post (h : Handler) (now : Time) (c : Callback) : Operation :=
  h.postDelayed now c {}

/-- The handler's messages with a code. -/
def coded (h : Handler) (what : Int32) : Filter :=
  { target := h.target, selector := .what what }

/-- The handler's messages with a code that carry an object. -/
def codedCarrying (h : Handler) (what : Int32) (object : Payload) : Filter :=
  { h.coded what with payload := some object }

/-- The handler's posts of a callback. -/
def posts (h : Handler) (c : Callback) : Filter :=
  { target := h.target, selector := .callback c }

/-- All that is pending for the handler, or all of it that carries an object. -/
def everything (h : Handler) (object : Option Payload) : Filter :=
  { target := h.target, payload := object }

end Handler

end Agenda
