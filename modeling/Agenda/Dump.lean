import Agenda.Json.Record
import Agenda.Queue

/-!
# Dumps

A dump shows what is pending on a queue at one moment, for people and as JSON. Due-times are given
relative to the moment of the dump.
-/

namespace Agenda

/-- One pending message or barrier in a dump. -/
structure Summary where
  /-- The position in the queue, from 0 at the head. -/
  index : UInt64
  /-- The time until the message is due; negative when it is overdue. -/
  dueIn : Int64
  what : Int32
  arg1 : Int32
  arg2 : Int32
  /-- The name of the target. -/
  target : Option String
  barrier : Bool
  async : Bool
  /-- Whether the message has a callback. -/
  callback : Bool
  deriving DecidableEq, Repr, Inhabited

/-- A number of any size as one of 64 bits with a sign, or else the nearest such number. -/
def clampInt64 (n : Int) : Int64 :=
  Int64.ofInt (max (-9223372036854775808) (min 9223372036854775807 n))

namespace Summary

/-- The summary of the message at position `index`, at clock reading `now`. -/
def describe (index : Nat) (m : Message) (now : Time) : Summary where
  index := UInt64.ofNat index
  dueIn := clampInt64 (m.due.toNat - now.toNat)
  what := m.what
  arg1 := m.arg1
  arg2 := m.arg2
  target := m.target.map Target.name
  barrier := m.isBarrier
  async := m.async
  callback := m.callback.isSome

/-- A summary on one line; arguments that are 0 are left out. -/
def text (s : Summary) : String :=
  let content :=
    match s.target with
    | some target =>
      (if s.callback then " callback" else " what=" ++ Text.number s.what.toInt)
        ++ (if s.arg1 == 0 then "" else " arg1=" ++ Text.number s.arg1.toInt)
        ++ (if s.arg2 == 0 then "" else " arg2=" ++ Text.number s.arg2.toInt)
        ++ " target=" ++ target
    | none => " barrier=" ++ Text.number s.arg1.toInt
  "\x7b when=" ++ Text.number s.dueIn.toInt ++ "ms" ++ content
    ++ (if s.async then " async" else "") ++ " \x7d"

/-- The written names of the fields, in order. -/
def keys : List String :=
  ["index", "due_in_ms", "what", "arg1", "arg2", "target", "barrier", "asynchronous", "callback"]

/-- A summary as an object. -/
def toJson (s : Summary) : Json :=
  .record (keys.zip
    [.nat s.index.toNat, .int s.dueIn.toInt, .int s.what.toInt, .int s.arg1.toInt,
      .int s.arg2.toInt, Json.option Json.str s.target, .bool s.barrier, .bool s.async,
      .bool s.callback])

/-- The summary with the given fields, in the order of `keys`. Only the target may be missing. -/
def ofFields? : List (Option Json) → Option Summary
  | [index, dueIn, what, arg1, arg2, target, barrier, async, callback] => do
    return {
      index := ← Json.required Json.uint64? index
      dueIn := ← Json.required Json.int64? dueIn
      what := ← Json.required Json.int32? what
      arg1 := ← Json.required Json.int32? arg1
      arg2 := ← Json.required Json.int32? arg2
      target := ← Json.withDefault (Json.option? Json.string?) none target
      barrier := ← Json.required Json.bool? barrier
      async := ← Json.required Json.bool? async
      callback := ← Json.required Json.bool? callback }
  | _ => none

/-- Reads a summary. -/
def ofJson? (v : Json) : Option Summary :=
  (v.fields? keys).bind ofFields?

end Summary

/-- What is pending on a queue, and the state of its consumer. -/
structure Dump where
  messages : List Summary
  idling : Bool
  quitting : Bool
  /-- The number of slots on the free list. -/
  freeSlots : UInt64
  deriving DecidableEq, Repr, Inhabited

namespace Dump

/-- The number of messages in a dump. -/
def total (d : Dump) : Nat :=
  d.messages.length

/-- A dump for people: a line for each message and one for the whole. -/
def text (d : Dump) : String :=
  let line := fun (s : Summary) =>
    "Message " ++ Text.number s.index.toNat ++ ": " ++ s.text ++ "\n"
  String.join (d.messages.map line) ++ "(Total messages: " ++ Text.number d.total ++ ", idling="
    ++ Text.truth d.idling ++ ", quitting=" ++ Text.truth d.quitting ++ ")"

/-- The written names of the fields, in order. -/
def keys : List String :=
  ["messages", "idling", "quitting", "free_slots"]

/-- A dump as an object. -/
def toJson (d : Dump) : Json :=
  .record (keys.zip
    [.array (d.messages.map Summary.toJson), .bool d.idling, .bool d.quitting,
      .nat d.freeSlots.toNat])

/-- The dump with the given fields, in the order of `keys`. -/
def ofFields? : List (Option Json) → Option Dump
  | [messages, idling, quitting, freeSlots] => do
    return {
      messages := ← Json.required (Json.list? Summary.ofJson?) messages
      idling := ← Json.required Json.bool? idling
      quitting := ← Json.required Json.bool? quitting
      freeSlots := ← Json.required Json.uint64? freeSlots }
  | _ => none

/-- Reads a dump. -/
def ofJson? (v : Json) : Option Dump :=
  (v.fields? keys).bind ofFields?

end Dump

/-- What is pending on a queue at clock reading `now`, given whether the consumer is parked. -/
def Queue.dump (q : Queue) (now : Time) (parked : Bool) : Dump where
  messages := q.pending.zipIdx.map fun entry => .describe entry.2 entry.1 now
  idling := q.isIdling parked
  quitting := q.quitting
  freeSlots := UInt64.ofNat q.arena.free.length

end Agenda
