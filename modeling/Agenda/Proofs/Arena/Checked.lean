import Agenda.Arena.Checked
import Agenda.Proofs.Arena.Edits

/-!
# Every check of the arena passes

An arena that `Holds` its cells passes the checks of `Arena.Checked`, and the checked operations
then do what those of `Arena` do.  Each access is in range and finds what it looks for because it is
made at a cell, and each walk comes to its end because there are no more cells before it than it may
meet.  The induction is on these cells.

* `Holds.intact`: the invariant read on the slots alone.
* `path_of_checked_collect`: an answer says that the links end, so a walk in a circle has none.
* `Holds.checked_get`, `Holds.checked_next`: a cell can be read.
* `Holds.checked_bridge`: the slot before a place links to it.
* `Holds.checked_search`, `Holds.checked_sweep`, `Holds.checked_drain`: the walks.
-/

namespace Agenda.Arena

variable {a : Arena} {cells loose xs ys : List Cell} {c : Cell}

/-! ### The invariant on the slots -/

/-- What every arena is between two operations, told without its cells. -/
structure Intact (a : Arena) : Prop where
  /-- The links from the head lead through the slots of `order`, and end there. -/
  path : a.Path a.head a.order none
  nodup : a.order.Nodup
  full : ∀ id ∈ a.order, ∃ m next, a.slots[id]? = some ⟨some m, next⟩
  freeNodup : a.free.Nodup
  freeEmpty : ∀ id ∈ a.free, a.slots[id]? = some ⟨none, none⟩
  linkedOrFree : ∀ id < a.slots.size, id ∈ a.order ↔ id ∉ a.free
  size : a.size = a.order.length
  head : a.head = none ↔ a.size = 0

theorem checked_slot {id : Nat} (h : id < a.slots.size) : Checked.slot a id = some (a.slot id) := by
  rw [Checked.slot, slot_eq, Array.getElem?_eq_getElem h, Option.getD_some]

theorem slot_of_checked {id : Nat} {s : Slot} (h : Checked.slot a id = some s) : a.slot id = s := by
  rw [slot_eq, ← Checked.slot, h, Option.getD_some]

theorem checked_setNext {id : Nat} (h : id < a.slots.size) (n : Option Nat) :
    Checked.setNext a id n = some (a.setNext id n) := by
  rw [Checked.setNext, checked_slot h, Option.map_some]

/-- **What has an answer has an end**: the messages that a walk collects stand on a path, whatever
the arena is like. -/
theorem path_of_checked_collect {bound : Nat} {cursor : Option Nat} {ms : List Message}
    (h : Checked.collect a bound cursor = some ms) :
    ∃ ids, a.Path cursor ids none ∧ ids.map a.get = ms := by
  induction bound generalizing cursor ms with
  | zero =>
    cases cursor with
    | none =>
      cases h
      exact ⟨[], rfl, rfl⟩
    | some id => cases h
  | succ bound ih =>
    cases cursor with
    | none =>
      cases h
      exact ⟨[], rfl, rfl⟩
    | some id =>
      simp only [Checked.collect, Option.bind_eq_bind, Option.bind_eq_some_iff] at h
      obtain ⟨after, hafter, m, hm, rest, hrest, hms⟩ := h
      obtain ⟨ids, hpath, rfl⟩ := ih hrest
      obtain ⟨s, hs, rfl⟩ := Option.map_eq_some_iff.mp hafter
      have hslot := slot_of_checked hs
      have hget : a.get id = m := by
        rw [Checked.get, hs, Option.bind_some] at hm
        rw [get, hslot, hm, Option.getD_some]
      cases hms
      refine ⟨id :: ids, ⟨rfl, ?_⟩, by rw [List.map_cons, hget]⟩
      rw [next, hslot]
      exact hpath

/-- A slot that links to itself. -/
example : Checked.toList { slots := #[⟨some {}, some 0⟩], head := some 0, size := 1 } = none := by
  decide

namespace Holds

theorem intact (h : a.Holds cells []) : a.Intact where
  path := h.order_eq ▸ h.path
  nodup := by
    have hnd := h.nodup
    rw [List.append_nil] at hnd
    rw [h.order_eq]
    exact hnd
  full := by
    intro id hid
    rw [h.order_eq] at hid
    obtain ⟨c, hc, rfl⟩ := List.mem_map.mp hid
    have hmem : c ∈ cells ++ [] := List.mem_append_left [] hc
    have hslot := checked_slot (h.lt_size hmem)
    have hm := h.full c hmem
    cases hs : a.slot c.1 with
    | mk message next =>
      rw [hs] at hslot hm
      exact ⟨c.2, next, hm ▸ hslot⟩
  freeNodup := h.freeNodup
  freeEmpty := by
    intro id hid
    obtain ⟨hlt, hempty⟩ := h.freeEmpty id hid
    exact hempty ▸ checked_slot hlt
  linkedOrFree := by
    intro id hlt
    rw [h.order_eq]
    have hcover := h.cover id hlt
    rw [List.append_nil] at hcover
    constructor
    · intro hid
      obtain ⟨c, hc, rfl⟩ := List.mem_map.mp hid
      exact h.notMem_free (List.mem_append_left [] hc)
    · exact hcover.resolve_right
  size := by rw [h.size, h.order_eq, List.append_nil, List.length_map]
  head := by
    rw [h.head_eq, h.size, List.append_nil, Option.map_eq_none_iff, List.head?_eq_none_iff,
      List.length_eq_zero_iff]

/-! ### Accesses at a cell -/

theorem checked_get (h : a.Holds cells loose) (hc : c ∈ cells ++ loose) :
    Checked.get a c.1 = some c.2 := by
  rw [Checked.get, checked_slot (h.lt_size hc), Option.bind_some, h.full c hc]

theorem checked_next (h : a.Holds (xs ++ c :: ys) loose) :
    Checked.next a c.1 = some (ys.head?.map Prod.fst) := by
  rw [Checked.next, checked_slot (h.lt_size (by simp)), Option.map_some, ← h.next_eq, Arena.next]

theorem checked_alloc (h : a.Holds cells loose) (m : Message) (n : Option Nat) :
    Checked.alloc a m n = some (a.alloc m n) := by
  unfold Checked.alloc
  split
  · rename_i id free hf
    have hid : id ∈ a.free := hf ▸ List.mem_cons_self
    rw [checked_slot (h.freeEmpty id hid).1, Option.map_some]
  · rfl

/-- A slot in use is counted, so the count can go down. -/
theorem checked_release (h : a.Holds cells (c :: loose)) :
    Checked.release a c.1 = some (c.2, a.release c.1) := by
  have hcount : 0 < a.size := by
    rw [h.size, List.length_append, List.length_cons]
    omega
  rw [Checked.release, h.checked_get (by simp)]
  simp [hcount]

/-! ### Putting in and taking out -/

theorem checked_pushFront (h : a.Holds cells []) (m : Message) :
    Checked.pushFront a m = some (a.pushFront m) := by
  rw [Checked.pushFront, h.checked_alloc]
  rfl

theorem checked_insertAfter (h : a.Holds (xs ++ c :: ys) []) (m : Message) :
    Checked.insertAfter a c.1 m = some (a.insertAfter c.1 m) := by
  have hlt : c.1 < (a.alloc m (a.next c.1)).slots.size :=
    Nat.lt_of_lt_of_le (h.lt_size (by simp)) (size_slots_le_alloc a m _)
  rw [Checked.insertAfter, h.checked_next, Option.bind_eq_bind, Option.bind_some, ← h.next_eq,
    h.checked_alloc, Option.bind_eq_bind, Option.bind_some, checked_setNext hlt]
  rfl

/-- **A place names neighbours**: the link that is bent leads to the cell that is taken out. -/
theorem checked_bridge {prev : Option Nat} (h : a.Holds (xs ++ c :: ys) [])
    (hprev : prev = (xs.map Prod.fst).getLast?) :
    Checked.bridge a ⟨prev, c.1⟩ = some (a.bridge ⟨prev, c.1⟩) := by
  have hnext := h.next_eq
  subst hprev
  rw [Checked.bridge, h.checked_next, ← hnext]
  -- the neighbour is the last of the cells before, so these are taken from their end
  cases xs using List.reverseRecOn with
  | nil =>
    have hhead : a.head = some c.1 := h.head_eq
    simp [hhead, Arena.bridge]
  | append_singleton xs d =>
    have h' : a.Holds (xs ++ d :: (c :: ys)) [] := by simpa using h
    have hlink : Checked.next a d.1 = some (some c.1) := h'.checked_next
    have hset := checked_setNext (h'.lt_size (c := d) (by simp)) (a.next c.1)
    simp [hlink, hset, Arena.bridge]

/-- **What is taken out is the message of the cell.** -/
theorem checked_unlink {prev : Option Nat} (h : a.Holds (xs ++ c :: ys) [])
    (hprev : prev = (xs.map Prod.fst).getLast?) :
    Checked.unlink a ⟨prev, c.1⟩ = some (c.2, a.unlink ⟨prev, c.1⟩) := by
  rw [Checked.unlink, h.checked_bridge hprev]
  exact (h.bridge hprev).checked_release

/-- The head does not link to the second of two slots. -/
example : Checked.unlink
    { slots := #[⟨some {}, some 1⟩, ⟨some {}, none⟩], head := some 0, size := 2 }
    ⟨none, 1⟩ = none := by
  decide

/-! ### Walks that change nothing -/

theorem checked_collect (h : a.Holds (xs ++ ys) loose) {bound : Nat} (hb : ys.length ≤ bound) :
    Checked.collect a bound (ys.head?.map Prod.fst) = some (ys.map Prod.snd) := by
  induction ys generalizing xs bound with
  | nil => cases bound <;> rfl
  | cons c ys ih =>
    cases bound with
    | zero => simp at hb
    | succ bound =>
      have h' : a.Holds (xs ++ [c] ++ ys) loose := by simpa using h
      have hrest := ih h' (Nat.le_of_succ_le_succ hb)
      rw [List.head?_cons, Option.map_some, Checked.collect, h.checked_next,
        h.checked_get (by simp)]
      simp [hrest]

theorem checked_toList (h : a.Holds cells []) : Checked.toList a = some a.toList := by
  have h' : a.Holds ([] ++ cells) [] := h
  rw [Checked.toList, h.head_eq, h'.checked_collect h.length_le, h.toList_eq]

/-- A search ends at the cell that it finds, or with the cells. -/
theorem checked_search (h : a.Holds (xs ++ ys) []) (pass : Message → Bool) {bound : Nat}
    (hb : ys.length ≤ bound) (prev : Option Nat) :
    Checked.search a pass bound prev (ys.head?.map Prod.fst) =
      some (a.search pass prev (ys.map Prod.fst)) := by
  induction ys generalizing xs bound prev with
  | nil => cases bound <;> rfl
  | cons c ys ih =>
    cases bound with
    | zero => simp at hb
    | succ bound =>
      have h' : a.Holds (xs ++ [c] ++ ys) [] := by simpa using h
      have hget : a.get c.1 = c.2 := h.get_eq (by simp)
      have hrest := ih h' (Nat.le_of_succ_le_succ hb) (some c.1)
      rw [List.head?_cons, Option.map_some, Checked.search, h.checked_get (by simp),
        h.checked_next, List.map_cons, search, hget]
      by_cases hp : pass c.2
      · simp [hp]
      · simp [hp, hrest]

theorem checked_find (h : a.Holds cells []) (pass : Message → Bool) :
    Checked.find a pass = some (a.find? pass) := by
  have h' : a.Holds ([] ++ cells) [] := h
  rw [Checked.find, h.head_eq, h'.checked_search pass h.length_le, find?, h.order_eq]

/-! ### Walks that take out -/

/-- A sweep stands between what it has left and what is still before it, and takes out
neighbours. -/
theorem checked_sweep {pass : Message → Bool} {prev : Option Nat} (h : a.Holds (xs ++ ys) [])
    (hprev : prev = (xs.map Prod.fst).getLast?) {bound : Nat} (hb : ys.length ≤ bound)
    (removed : Nat) : Checked.sweep pass bound a removed prev (ys.head?.map Prod.fst) =
      some (removed + (a.sweep pass prev (ys.map Prod.fst)).1,
        (a.sweep pass prev (ys.map Prod.fst)).2) := by
  induction ys generalizing a xs prev bound removed with
  | nil => cases bound <;> rfl
  | cons c ys ih =>
    cases bound with
    | zero => simp at hb
    | succ bound =>
      have hb' : ys.length ≤ bound := Nat.le_of_succ_le_succ hb
      have hget : a.get c.1 = c.2 := h.get_eq (by simp)
      rw [List.head?_cons, Option.map_some, Checked.sweep, h.checked_next,
        h.checked_get (by simp), List.map_cons, Arena.sweep, hget]
      by_cases hp : pass c.2
      · have hrest := ih (h.unlink hprev) hprev hb' (removed + 1)
        simp only [Option.bind_eq_bind, Option.bind_some, if_pos hp, h.checked_unlink hprev, hrest]
        rw [Nat.add_assoc, Nat.add_comm 1]
      · have h' : a.Holds (xs ++ [c] ++ ys) [] := by simpa using h
        have hlast : some c.1 = ((xs ++ [c]).map Prod.fst).getLast? := by simp
        have hrest := ih h' hlast hb' removed
        simp only [Option.bind_eq_bind, Option.bind_some, if_neg hp, hrest]

theorem checked_removeIf (h : a.Holds cells []) (pass : Message → Bool) :
    Checked.removeIf a pass = some (a.removeIf pass) := by
  have h' : a.Holds ([] ++ cells) [] := h
  have hfirst : none = (([] : List Cell).map Prod.fst).getLast? := rfl
  rw [Checked.removeIf, h.head_eq, h'.checked_sweep hfirst h.length_le, Arena.removeIf,
    h.order_eq, Nat.zero_add]

/-- A drain gives back the slot that it stands on.  The slots before it are others, so their links
are as they were. -/
theorem checked_drain {cursor : Option Nat} (h : a.Holds cells (ys ++ loose))
    (hpath : a.Path cursor (ys.map Prod.fst) none) {bound : Nat} (hb : ys.length ≤ bound)
    (removed : Nat) : Checked.drain bound a removed cursor =
      some (removed + ys.length, (ys.map Prod.fst).foldl Arena.release a) := by
  induction ys generalizing a cursor bound removed with
  | nil =>
    cases hpath
    cases bound <;> rfl
  | cons c ys ih =>
    obtain ⟨rfl, hbehind⟩ := hpath
    cases bound with
    | zero => simp at hb
    | succ bound =>
      have hnd : c.1 ∉ ys.map Prod.fst := by
        have hall := (List.nodup_append.mp (List.map_append ▸ h.nodup)).2.1
        rw [List.cons_append, List.map_cons, List.nodup_cons, List.map_append] at hall
        exact fun hmem => hall.1 (List.mem_append_left _ hmem)
      have hpath' : (a.release c.1).Path (a.next c.1) (ys.map Prod.fst) none :=
        hbehind.congr fun id hid => by
          have hne : id ≠ c.1 := fun he => hnd (he ▸ hid)
          rw [next, slot_release, if_neg hne, next]
      have hlt : c.1 < a.slots.size := h.lt_size (by simp)
      have hrest := ih h.release hpath' (Nat.le_of_succ_le_succ hb) (removed + 1)
      rw [Checked.drain, Checked.next, checked_slot hlt, h.checked_release]
      simp only [Option.map_some, Option.bind_eq_bind, Option.bind_some]
      rw [← next, hrest, List.length_cons, Nat.add_assoc, Nat.add_comm 1]
      rfl

theorem checked_truncateAfter (h : a.Holds (xs ++ c :: ys) []) :
    Checked.truncateAfter a c.1 = some (a.truncateAfter c.1) := by
  have hlt : c.1 < a.slots.size := h.lt_size (by simp)
  have hpath : (a.setNext c.1 none).Path (a.next c.1) (ys.map Prod.fst) none :=
    h.path_next.congr fun id hid => next_setNext_of_ne _ fun he =>
      h.notMem_others (he ▸ List.mem_append_right _ hid)
  have hb := h.length_le
  rw [List.length_append, List.length_cons] at hb
  rw [Checked.truncateAfter, h.checked_next, Option.bind_eq_bind, Option.bind_some, ← h.next_eq,
    checked_setNext hlt, Option.bind_eq_bind, Option.bind_some,
    h.cut.checked_drain hpath (by omega), Nat.zero_add, Arena.truncateAfter, h.orderAfter_eq xs,
    List.length_map]

theorem checked_clear (h : a.Holds cells []) : Checked.clear a = some a.clear := by
  have hpath : ({ a with head := none } : Arena).Path a.head (cells.map Prod.fst) none :=
    h.path.congr fun _ _ => rfl
  rw [Checked.clear, h.behead.checked_drain hpath h.length_le, Nat.zero_add, Arena.clear,
    h.order_eq, List.length_map]

end Holds

end Agenda.Arena
