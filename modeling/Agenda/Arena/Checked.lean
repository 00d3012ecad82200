import Agenda.Arena

/-!
# The arena with checks

The accesses of `Arena` always answer: a slot beyond the end reads as free, a free slot as a blank
message, and a walk gives up after as many links as there are slots. Here are the same operations
with a check at every access. There is no answer (`none`)

* if the number of a slot that is read or written is out of range,
* if a slot whose message is read or taken holds none,
* if a slot is taken out and the one before it, or the head, does not link to it,
* if a slot is given back and none is counted as linked,
* if a walk has met as many slots as there are and the links still go on.

The walks are loops over a cursor, and `bound` is the number of slots that one may still meet. So
whoever gets an answer has passed every check and come to the end of the links.
-/

namespace Agenda.Arena.Checked

/-- The slot with number `id`, which has to be in range. -/
def slot (a : Arena) (id : Nat) : Option Slot :=
  a.slots[id]?

/-- The message in a slot, which has to hold one. -/
def get (a : Arena) (id : Nat) : Option Message :=
  (slot a id).bind Slot.message

/-- The slot that `id` links to, if it links to any. -/
def next (a : Arena) (id : Nat) : Option (Option Nat) :=
  (slot a id).map Slot.next

/-- Makes `id` link to `next`. -/
def setNext (a : Arena) (id : Nat) (next : Option Nat) : Option Arena :=
  (slot a id).map fun _ => a.setNext id next

/-- Puts `m` into a free slot, or into a new one if none is free. -/
def alloc (a : Arena) (m : Message) (next : Option Nat) : Option Arena :=
  match a.free with
  | id :: _ => (slot a id).map fun _ => a.alloc m next
  | [] => some (a.alloc m next)

/-- Takes the message out of a slot and puts the slot on the free list. -/
def release (a : Arena) (id : Nat) : Option (Message × Arena) := do
  let m ← get a id
  if 0 < a.size then return (m, a.release id) else none

/-- Links `m` as the new head. -/
def pushFront (a : Arena) (m : Message) : Option Arena := do
  let b ← alloc a m a.head
  return { b with head := some a.fresh }

/-- Links `m` directly after slot `prev`. -/
def insertAfter (a : Arena) (prev : Nat) (m : Message) : Option Arena := do
  let after ← next a prev
  let b ← alloc a m after
  setNext b prev (some a.fresh)

/-- Lets the link into a place skip it. That link has to lead there. -/
def bridge (a : Arena) (place : Place) : Option Arena := do
  let after ← next a place.id
  match place.prev with
  | none => if a.head = some place.id then return { a with head := after } else none
  | some prev =>
    let link ← next a prev
    if link = some place.id then setNext a prev after else none

/-- Takes the message at a place out of the chain. -/
def unlink (a : Arena) (place : Place) : Option (Message × Arena) := do
  let b ← bridge a place
  release b place.id

/-! ### Walks -/

/-- The messages from `cursor` on. -/
def collect (a : Arena) : (bound : Nat) → (cursor : Option Nat) → Option (List Message)
  | _, none => some []
  | 0, some _ => none
  | bound + 1, some id => do
    let after ← next a id
    let m ← get a id
    let rest ← collect a bound after
    return m :: rest

/-- The pending messages, head first. -/
def toList (a : Arena) : Option (List Message) :=
  collect a a.slots.size a.head

/-- The first slot from `cursor` on whose message passes, `prev` being the slot before. -/
def search (a : Arena) (pass : Message → Bool) :
    (bound : Nat) → (prev cursor : Option Nat) → Option (Option Place)
  | _, _, none => some none
  | 0, _, some _ => none
  | bound + 1, prev, some id => do
    let m ← get a id
    if pass m then return some ⟨prev, id⟩
    else
      let after ← next a id
      search a pass bound (some id) after

/-- The first linked slot whose message passes. -/
def find (a : Arena) (pass : Message → Bool) : Option (Option Place) :=
  search a pass a.slots.size none a.head

/-- Takes out the messages from `cursor` on that pass, after `removed` others. `prev` is the last
slot that stays. -/
def sweep (pass : Message → Bool) : (bound : Nat) → (a : Arena) → (removed : Nat) →
    (prev cursor : Option Nat) → Option (Nat × Arena)
  | _, a, removed, _, none => some (removed, a)
  | 0, _, _, _, some _ => none
  | bound + 1, a, removed, prev, some id => do
    let after ← next a id
    let m ← get a id
    if pass m then
      let (_, b) ← unlink a ⟨prev, id⟩
      sweep pass bound b (removed + 1) prev after
    else sweep pass bound a removed (some id) after

/-- Takes out every message that passes, and says how many. -/
def removeIf (a : Arena) (pass : Message → Bool) : Option (Nat × Arena) :=
  sweep pass a.slots.size a 0 none a.head

/-- Gives back the slots from `cursor` on, after `removed` others. -/
def drain : (bound : Nat) → (a : Arena) → (removed : Nat) → (cursor : Option Nat) →
    Option (Nat × Arena)
  | _, a, removed, none => some (removed, a)
  | 0, _, _, some _ => none
  | bound + 1, a, removed, some id => do
    let after ← next a id
    let (_, b) ← release a id
    drain bound b (removed + 1) after

/-- Takes out every message after slot `id`, and says how many. -/
def truncateAfter (a : Arena) (id : Nat) : Option (Nat × Arena) := do
  let after ← next a id
  let b ← setNext a id none
  drain a.slots.size b 0 after

/-- Takes out every message, and says how many. -/
def clear (a : Arena) : Option (Nat × Arena) :=
  drain a.slots.size { a with head := none } 0 a.head

end Agenda.Arena.Checked
