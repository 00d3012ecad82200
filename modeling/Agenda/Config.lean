import Agenda.Json.Record
import Agenda.Priority

/-!
# The configuration of a loop

A configuration is read from JSON, from an object or from an array of its fields in order. Fields
that are not given take their defaults; a threshold that is given as null is off.
-/

namespace Agenda

/-- How a loop is set up. -/
structure Config where
  /-- The name of the loop's thread, which also stands in its notices. -/
  name : String := "looper"
  /-- Whether the loop's queue may quit. -/
  quittable : Bool := true
  priority : Priority := .default
  /-- The core to which the loop's thread is bound. -/
  core : Option UInt64 := none
  /-- A dispatch that takes this many milliseconds is slow. -/
  slowDispatch : Option UInt64 := some 100
  /-- A delivery that is this many milliseconds late is slow. -/
  slowDelivery : Option UInt64 := some 200
  deriving DecidableEq, Repr, Inhabited

namespace Config

/-- The name of a configuration can be given to a thread, which rules out null characters. -/
def namesThread (c : Config) : Bool :=
  !c.name.toList.contains '\x00'

/-- The written names of the fields, in order. -/
def keys : List String :=
  ["name", "quit_allowed", "priority", "core", "slow_dispatch_threshold_ms",
    "slow_delivery_threshold_ms"]

/-- The written values of the fields, in the order of `keys`. -/
def values (c : Config) : List Json :=
  [.str c.name, .bool c.quittable, c.priority.toJson, Json.option (Json.nat ·.toNat) c.core,
    Json.option (Json.nat ·.toNat) c.slowDispatch, Json.option (Json.nat ·.toNat) c.slowDelivery]

/-- A configuration as an object. -/
def toJson (c : Config) : Json :=
  .record (keys.zip c.values)

/-- The configuration with the given fields, in the order of `keys`. -/
def ofFields? : List (Option Json) → Option Config
  | [name, quittable, priority, core, slowDispatch, slowDelivery] => do
    let base : Config := {}
    let number := Json.option? Json.uint64?
    return {
      name := ← Json.withDefault Json.string? base.name name
      quittable := ← Json.withDefault Json.bool? base.quittable quittable
      priority := ← Json.withDefault Priority.ofJson? base.priority priority
      core := ← Json.withDefault number base.core core
      slowDispatch := ← Json.withDefault number base.slowDispatch slowDispatch
      slowDelivery := ← Json.withDefault number base.slowDelivery slowDelivery }
  | _ => none

/-- Reads a configuration. -/
def ofJson? (v : Json) : Option Config :=
  (v.fields? keys).bind ofFields?

end Config

end Agenda
