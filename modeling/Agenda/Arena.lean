import Agenda.Message

/-!
# The arena of pending messages

Pending messages live in numbered slots that are linked into one chain. A slot that is released
goes onto a free list and is taken again by the next insertion, so a queue in a steady state stops
growing. The arena knows nothing of time or barriers: its callers say where a message goes.

Every walk along the chain goes through `Arena.order`, the slots from the head on. It follows at
most as many links as there are slots, which is all of them when no slot is met twice.
-/

namespace Agenda

/-- A slot of the arena. A free slot holds no message and no link. -/
structure Slot where
  message : Option Message := none
  next : Option Nat := none
  deriving DecidableEq, Repr, Inhabited

/-- Slots, the ones that are free (last released first), and the chain through the others. -/
structure Arena where
  slots : Array Slot := #[]
  free : List Nat := []
  head : Option Nat := none
  /-- The number of linked slots. -/
  size : Nat := 0
  deriving DecidableEq, Repr, Inhabited

/-- A linked slot together with the one before it, `none` at the head. -/
structure Place where
  prev : Option Nat
  id : Nat
  deriving DecidableEq, Repr

namespace Arena

/-- The slot with number `id`; beyond the end it reads as free. -/
def slot (a : Arena) (id : Nat) : Slot :=
  a.slots.getD id {}

/-- The slot that `id` links to. -/
def next (a : Arena) (id : Nat) : Option Nat :=
  (a.slot id).next

/-- The message in a linked slot. -/
def get (a : Arena) (id : Nat) : Message :=
  (a.slot id).message.getD {}

/-- The slots met from `cursor` on, following at most `bound` links. -/
def follow (a : Arena) : (bound : Nat) → (cursor : Option Nat) → List Nat
  | 0, _ => []
  | _, none => []
  | bound + 1, some id => id :: a.follow bound (a.next id)

/-- The linked slots, head first. -/
def order (a : Arena) : List Nat :=
  a.follow a.slots.size a.head

/-- The linked slots after `id`. -/
def orderAfter (a : Arena) (id : Nat) : List Nat :=
  a.follow a.slots.size (a.next id)

/-- The pending messages, head first. -/
def toList (a : Arena) : List Message :=
  a.order.map a.get

/-- The message at the head. -/
def first? (a : Arena) : Option Message :=
  a.head.map a.get

/-- The slot that the next insertion takes. -/
def fresh (a : Arena) : Nat :=
  a.free.head?.getD a.slots.size

/-- Puts `m` into a free slot, or into a new one if none is free. -/
def alloc (a : Arena) (m : Message) (next : Option Nat) : Arena :=
  match a.free with
  | id :: free =>
    { a with slots := a.slots.setIfInBounds id ⟨some m, next⟩, free, size := a.size + 1 }
  | [] => { a with slots := a.slots.push ⟨some m, next⟩, size := a.size + 1 }

/-- Empties a slot and puts it on the free list. -/
def release (a : Arena) (id : Nat) : Arena :=
  { a with slots := a.slots.setIfInBounds id {}, free := id :: a.free, size := a.size - 1 }

/-- Makes `id` link to `next`. -/
def setNext (a : Arena) (id : Nat) (next : Option Nat) : Arena :=
  { a with slots := a.slots.modify id fun s => { s with next } }

/-- Links `m` as the new head. -/
def pushFront (a : Arena) (m : Message) : Arena :=
  { a.alloc m a.head with head := some a.fresh }

/-- Links `m` directly after slot `prev`. -/
def insertAfter (a : Arena) (prev : Nat) (m : Message) : Arena :=
  (a.alloc m (a.next prev)).setNext prev (some a.fresh)

/-- Lets the link into a place skip it. -/
def bridge (a : Arena) (place : Place) : Arena :=
  match place.prev with
  | none => { a with head := a.next place.id }
  | some prev => a.setNext prev (a.next place.id)

/-- Takes the message at a place out of the chain. -/
def unlink (a : Arena) (place : Place) : Arena :=
  (a.bridge place).release place.id

/-- The first of `ids` whose message passes, `prev` being the slot before them. -/
def search (a : Arena) (pass : Message → Bool) (prev : Option Nat) : List Nat → Option Place
  | [] => none
  | id :: ids => if pass (a.get id) then some ⟨prev, id⟩ else a.search pass (some id) ids

/-- The first linked slot whose message passes. -/
def find? (a : Arena) (pass : Message → Bool) : Option Place :=
  a.search pass none a.order

/-- Takes out the messages of `ids` that pass. `prev` is the last slot that stays before them. -/
def sweep (a : Arena) (pass : Message → Bool) (prev : Option Nat) : List Nat → Nat × Arena
  | [] => (0, a)
  | id :: ids =>
    if pass (a.get id) then
      let (n, b) := (a.unlink ⟨prev, id⟩).sweep pass prev ids
      (n + 1, b)
    else a.sweep pass (some id) ids

/-- Takes out every message that passes, and says how many. -/
def removeIf (a : Arena) (pass : Message → Bool) : Nat × Arena :=
  a.sweep pass none a.order

/-- Takes out every message after slot `id`, and says how many. -/
def truncateAfter (a : Arena) (id : Nat) : Nat × Arena :=
  let rest := a.orderAfter id
  (rest.length, rest.foldl release (a.setNext id none))

/-- Takes out every message, and says how many. -/
def clear (a : Arena) : Nat × Arena :=
  (a.order.length, a.order.foldl release { a with head := none })

end Arena

end Agenda
