import Agenda.Time

/-!
# Messages

A message is a unit of work for a target. Targets, payloads and callbacks count as the same only
when they are the same object, so each is known by a number. A message without a target is a sync
barrier; its first argument holds the token by which the barrier is removed.
-/

namespace Agenda

/-- A receiver of messages. Two targets are the same when their numbers are. -/
structure Target where
  id : Nat
  /-- A label for diagnostics. -/
  name : String
  deriving DecidableEq, Repr, Inhabited

/-- An object that a message carries. -/
abbrev Payload := Nat

/-- Work that a message runs in place of its target's own handling. -/
abbrev Callback := Nat

/-- The number by which a posted barrier is removed. -/
abbrev Token := Int32

/-- A unit of scheduled work. -/
structure Message where
  /-- A code that says what the message is about. -/
  what : Int32 := 0
  arg1 : Int32 := 0
  arg2 : Int32 := 0
  payload : Option Payload := none
  target : Option Target := none
  callback : Option Callback := none
  /-- When the message becomes due. -/
  due : Time := 0
  /-- Barriers do not hold an asynchronous message back. -/
  async : Bool := false
  /-- Set when a queue takes the message, and from then on. -/
  inUse : Bool := false
  deriving DecidableEq, Repr, Inhabited

namespace Message

/-- A message that is addressed to `target`. -/
def addressed (target : Target) : Message :=
  { target := some target }

/-- A message for `target` with a code. -/
def coded (target : Target) (what : Int32) : Message :=
  { target := some target, what }

/-- A message for `target` that runs a callback. -/
def running (target : Target) (callback : Callback) : Message :=
  { target := some target, callback := some callback }

/-- The barrier with the given token. -/
def barrier (token : Token) (due : Time) : Message :=
  { arg1 := token, due, inUse := true }

/-- A message without a target is a barrier. -/
def isBarrier (m : Message) : Bool :=
  m.target.isNone

/-- The token of a barrier. -/
def token? (m : Message) : Option Token :=
  if m.isBarrier then some m.arg1 else none

/-- A copy of the content that is not scheduled and can be sent. -/
def duplicate (m : Message) : Message :=
  { m with due := 0, inUse := false }

/-- What the holder of a message may change in it. -/
inductive Edit where
  | target (target : Target)
  | what (code : Int32)
  | arg1 (n : Int32)
  | arg2 (n : Int32)
  | payload (object : Payload)
  /-- Takes the object out. -/
  | noPayload
  | async (on : Bool)
  | callback (callback : Callback)
  deriving DecidableEq, Repr

/-- A message with one field changed. -/
def edit (m : Message) : Edit → Message
  | .target target => { m with target := some target }
  | .what code => { m with what := code }
  | .arg1 n => { m with arg1 := n }
  | .arg2 n => { m with arg2 := n }
  | .payload object => { m with payload := some object }
  | .noPayload => { m with payload := none }
  | .async on => { m with async := on }
  | .callback callback => { m with callback := some callback }

/-- A message with changes made in order. -/
def edits (m : Message) (changes : List Edit) : Message :=
  changes.foldl edit m

end Message

/-- What a filter asks of a message beside its target. -/
inductive Selector where
  | what (code : Int32)
  | callback (callback : Callback)
  | any
  deriving DecidableEq, Repr

/-- A choice among the messages of one target. Barriers have no target, so no filter takes one. -/
structure Filter where
  target : Target
  selector : Selector := .any
  /-- If given, the message has to carry this object. -/
  payload : Option Payload := none
  deriving DecidableEq, Repr

/-- The selector's part of a filter. -/
def Selector.accepts (s : Selector) (m : Message) : Bool :=
  match s with
  | .what code => m.what == code
  | .callback c => m.callback == some c
  | .any => true

/-- The message is for the filter's target and meets its conditions. -/
def Filter.accepts (f : Filter) (m : Message) : Bool :=
  m.target.any (fun target => target.id == f.target.id)
    && f.selector.accepts m
    && (f.payload.isNone || m.payload == f.payload)

end Agenda
