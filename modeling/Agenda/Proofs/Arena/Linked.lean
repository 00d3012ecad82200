import Agenda.Arena
import Mathlib.Data.List.Nodup
import Mathlib.Data.List.Perm.Subperm

/-!
# What an arena holds

The chain of an arena is followed by slot numbers, and nothing in its type keeps a number from
being stale.  `Holds a cells loose` is the invariant that does: the links from the head lead through
exactly the slots of `cells`, each of which holds the message that stands beside it; the slots of
`loose` hold a message but are not linked; every other slot is empty and on the free list.  Between
two operations nothing is loose.

* `Holds.alloc`, `Holds.release`: a slot is taken, a loose slot is given back.
* `Holds.relink`: links are changed, and no message is.
* `Holds.order_eq`, `Holds.toList_eq`: the walk along the chain is `cells`, and ends in time.
* `Holds.size_add_free`: the slots in use and the free ones are all there are.
-/

namespace Agenda.Arena

variable {a b : Arena}

/-! ### Slots -/

theorem slot_eq (a : Arena) (id : Nat) : a.slot id = (a.slots[id]?).getD {} := by
  simp [slot]

theorem slot_of_size_le {id : Nat} (h : a.slots.size ≤ id) : a.slot id = {} := by
  rw [slot_eq, Array.getElem?_eq_none h, Option.getD_none]

theorem lt_size_of_message {id : Nat} {m : Message} (h : (a.slot id).message = some m) :
    id < a.slots.size := by
  by_contra hn
  rw [slot_of_size_le (Nat.le_of_not_lt hn)] at h
  cases h

theorem get_of_message {id : Nat} {m : Message} (h : (a.slot id).message = some m) :
    a.get id = m := by
  rw [get, h, Option.getD_some]

theorem slot_release (a : Arena) (id i : Nat) :
    (a.release id).slot i = if i = id then {} else a.slot i := by
  simp only [slot_eq, release, Array.getElem?_setIfInBounds]
  by_cases hi : id = i
  · subst hi
    by_cases hs : id < a.slots.size <;> simp [hs]
  · rw [if_neg hi, if_neg (Ne.symm hi)]

theorem slot_setNext (a : Arena) (id : Nat) (n : Option Nat) (i : Nat) :
    (a.setNext id n).slot i =
      if i = id ∧ id < a.slots.size then { a.slot i with next := n } else a.slot i := by
  simp only [slot_eq, setNext, Array.getElem?_modify]
  by_cases hi : id = i
  · subst hi
    by_cases hs : id < a.slots.size <;> simp [hs]
  · rw [if_neg hi, if_neg (fun h => hi h.1.symm)]

theorem message_setNext (a : Arena) (id : Nat) (n : Option Nat) (i : Nat) :
    ((a.setNext id n).slot i).message = (a.slot i).message := by
  rw [slot_setNext]
  split <;> rfl

theorem next_setNext_of_ne {id i : Nat} (n : Option Nat) (h : i ≠ id) :
    (a.setNext id n).next i = a.next i := by
  rw [next, slot_setNext, if_neg (fun hi => h hi.1), next]

theorem next_setNext_self {id : Nat} (n : Option Nat) (h : id < a.slots.size) :
    (a.setNext id n).next id = n := by
  rw [next, slot_setNext, if_pos ⟨rfl, h⟩]

@[simp] theorem size_slots_setNext (a : Arena) (id : Nat) (n : Option Nat) :
    (a.setNext id n).slots.size = a.slots.size := by
  simp [setNext]

@[simp] theorem size_slots_release (a : Arena) (id : Nat) :
    (a.release id).slots.size = a.slots.size := by
  simp [release]

/-! ### The fresh slot -/

theorem fresh_nil (hf : a.free = []) : a.fresh = a.slots.size := by
  rw [fresh, hf]
  rfl

theorem fresh_cons {id : Nat} {free : List Nat} (hf : a.free = id :: free) : a.fresh = id := by
  rw [fresh, hf]
  rfl

@[simp] theorem head_alloc (a : Arena) (m : Message) (n : Option Nat) :
    (a.alloc m n).head = a.head := by
  unfold alloc
  split <;> rfl

@[simp] theorem size_alloc (a : Arena) (m : Message) (n : Option Nat) :
    (a.alloc m n).size = a.size + 1 := by
  unfold alloc
  split <;> rfl

theorem free_alloc (a : Arena) (m : Message) (n : Option Nat) :
    (a.alloc m n).free = a.free.tail := by
  cases hf : a.free with
  | nil => simp [alloc, hf]
  | cons id free => simp [alloc, hf]

theorem size_slots_le_alloc (a : Arena) (m : Message) (n : Option Nat) :
    a.slots.size ≤ (a.alloc m n).slots.size := by
  unfold alloc
  split <;> simp

/-- The fresh slot is the only one that can be new. -/
theorem lt_size_of_lt_alloc {m : Message} {n : Option Nat} {i : Nat}
    (hi : i < (a.alloc m n).slots.size) (hne : i ≠ a.fresh) : i < a.slots.size := by
  cases hf : a.free with
  | nil =>
    have hlt : i < a.slots.size + 1 := by simpa [alloc, hf] using hi
    rw [fresh_nil hf] at hne
    omega
  | cons id free => simpa [alloc, hf] using hi

theorem mem_free_tail {i : Nat} (hi : i ∈ a.free) (hne : i ≠ a.fresh) : i ∈ a.free.tail := by
  cases hf : a.free with
  | nil =>
    rw [hf] at hi
    cases hi
  | cons id free =>
    rw [fresh_cons hf] at hne
    rw [hf] at hi
    exact (List.mem_cons.mp hi).resolve_left hne

theorem ne_fresh_of_mem_tail (hnd : a.free.Nodup) {i : Nat} (hi : i ∈ a.free.tail) :
    i ≠ a.fresh := by
  cases hf : a.free with
  | nil =>
    rw [hf] at hi
    cases hi
  | cons id free =>
    rw [hf] at hi hnd
    rw [fresh_cons hf]
    rintro rfl
    exact (List.nodup_cons.mp hnd).1 hi

/-- A new message goes into the fresh slot, and no other slot is written. -/
theorem slot_alloc (hfree : ∀ id ∈ a.free, id < a.slots.size) (m : Message) (n : Option Nat)
    (i : Nat) : (a.alloc m n).slot i = if i = a.fresh then ⟨some m, n⟩ else a.slot i := by
  cases hf : a.free with
  | nil =>
    simp only [alloc, hf, slot_eq, fresh_nil hf, Array.getElem?_push]
    split <;> rfl
  | cons id free =>
    have hlt : id < a.slots.size := hfree id (by rw [hf]; exact List.mem_cons_self)
    simp only [alloc, hf, slot_eq, fresh_cons hf, Array.getElem?_setIfInBounds]
    by_cases hi : id = i
    · subst hi
      simp [hlt]
    · rw [if_neg hi, if_neg (Ne.symm hi)]

/-! ### Paths -/

/-- The links from `cursor` lead through exactly these slots, and on to `last`. -/
def Path (a : Arena) : Option Nat → List Nat → Option Nat → Prop
  | cursor, [], last => cursor = last
  | cursor, id :: ids, last => cursor = some id ∧ a.Path (a.next id) ids last

theorem path_append {cursor last : Option Nat} {xs ys : List Nat} :
    a.Path cursor (xs ++ ys) last ↔ ∃ middle, a.Path cursor xs middle ∧ a.Path middle ys last := by
  induction xs generalizing cursor with
  | nil => simp [Path]
  | cons x xs ih => simp [Path, ih, and_assoc]

theorem Path.congr {cursor last : Option Nat} {ids : List Nat} (h : a.Path cursor ids last)
    (hnext : ∀ id ∈ ids, b.next id = a.next id) : b.Path cursor ids last := by
  induction ids generalizing cursor with
  | nil => exact h
  | cons x ids ih =>
    refine ⟨h.1, ?_⟩
    rw [hnext x List.mem_cons_self]
    exact ih h.2 fun id hid => hnext id (List.mem_cons_of_mem x hid)

/-- Enough fuel follows a path to its end. -/
theorem follow_eq {cursor : Option Nat} {ids : List Nat} {bound : Nat}
    (h : a.Path cursor ids none) (hb : ids.length ≤ bound) : a.follow bound cursor = ids := by
  induction ids generalizing cursor bound with
  | nil =>
    cases h
    cases bound <;> rfl
  | cons x ids ih =>
    obtain ⟨rfl, h⟩ := h
    cases bound with
    | zero => simp at hb
    | succ bound => rw [follow, ih h (Nat.le_of_succ_le_succ hb)]

/-! ### The invariant -/

/-- A slot with the message in it. -/
abbrev Cell := Nat × Message

/-- The links lead through `cells`, the slots of `loose` are full but not linked, and all others
are free. -/
structure Holds (a : Arena) (cells loose : List Cell) : Prop where
  path : a.Path a.head (cells.map Prod.fst) none
  nodup : ((cells ++ loose).map Prod.fst).Nodup
  full : ∀ c ∈ cells ++ loose, (a.slot c.1).message = some c.2
  freeNodup : a.free.Nodup
  freeEmpty : ∀ id ∈ a.free, id < a.slots.size ∧ a.slot id = {}
  cover : ∀ id < a.slots.size, id ∈ (cells ++ loose).map Prod.fst ∨ id ∈ a.free
  size : a.size = (cells ++ loose).length

theorem holds_empty : Holds {} [] [] where
  path := rfl
  nodup := List.nodup_nil
  full := by simp
  freeNodup := List.nodup_nil
  freeEmpty := by simp
  cover := by simp
  size := rfl

namespace Holds

variable {cells loose xs ys : List Cell}

theorem lt_size (h : a.Holds cells loose) {c : Cell} (hc : c ∈ cells ++ loose) :
    c.1 < a.slots.size :=
  lt_size_of_message (h.full c hc)

theorem get_eq (h : a.Holds cells loose) {c : Cell} (hc : c ∈ cells) : a.get c.1 = c.2 :=
  get_of_message (h.full c (List.mem_append_left loose hc))

/-- No slot is in use and free at once. -/
theorem notMem_free (h : a.Holds cells loose) {c : Cell} (hc : c ∈ cells ++ loose) :
    c.1 ∉ a.free := by
  intro hf
  have hm := h.full c hc
  rw [(h.freeEmpty c.1 hf).2] at hm
  cases hm

theorem fresh_notMem (h : a.Holds cells loose) : a.fresh ∉ (cells ++ loose).map Prod.fst := by
  intro hmem
  obtain ⟨c, hc, he⟩ := List.mem_map.mp hmem
  cases hf : a.free with
  | nil =>
    have hlt := h.lt_size hc
    rw [he, fresh_nil hf] at hlt
    exact Nat.lt_irrefl _ hlt
  | cons id free =>
    apply h.notMem_free hc
    rw [he, fresh_cons hf, hf]
    exact List.mem_cons_self

/-- There are as many linked slots as steps in a walk, at most. -/
theorem length_le (h : a.Holds cells loose) : cells.length ≤ a.slots.size := by
  have hnd : (cells.map Prod.fst).Nodup := by
    refine h.nodup.sublist ?_
    rw [List.map_append]
    exact List.sublist_append_left _ _
  have hsub : cells.map Prod.fst ⊆ List.range a.slots.size := by
    intro id hid
    obtain ⟨c, hc, rfl⟩ := List.mem_map.mp hid
    exact List.mem_range.mpr (h.lt_size (List.mem_append_left loose hc))
  simpa using (List.subperm_of_subset hnd hsub).length_le

/-- **Every slot is in use or free**, and none is both. -/
theorem size_add_free (h : a.Holds cells loose) : a.size + a.free.length = a.slots.size := by
  have hnodup : ((cells ++ loose).map Prod.fst ++ a.free).Nodup := by
    refine List.nodup_append.mpr ⟨h.nodup, h.freeNodup, fun id hused id' hfree he => ?_⟩
    obtain ⟨c, hc, rfl⟩ := List.mem_map.mp hused
    exact h.notMem_free hc (he ▸ hfree)
  have hmem : ∀ id, id ∈ (cells ++ loose).map Prod.fst ++ a.free ↔
      id ∈ List.range a.slots.size := by
    intro id
    rw [List.mem_append, List.mem_range]
    constructor
    · rintro (hused | hfree)
      · obtain ⟨c, hc, rfl⟩ := List.mem_map.mp hused
        exact h.lt_size hc
      · exact (h.freeEmpty id hfree).1
    · exact h.cover id
  have hperm := (List.perm_ext_iff_of_nodup hnodup List.nodup_range).mpr hmem
  have hlength := hperm.length_eq
  rw [List.length_append, List.length_map, List.length_range] at hlength
  rw [h.size, hlength]

theorem order_eq (h : a.Holds cells loose) : a.order = cells.map Prod.fst :=
  follow_eq h.path (by simpa using h.length_le)

theorem toList_eq (h : a.Holds cells loose) : a.toList = cells.map Prod.snd := by
  rw [toList, h.order_eq, List.map_map]
  exact List.map_congr_left fun c hc => h.get_eq hc

/-- The links from a linked slot lead through what is linked behind it. -/
theorem path_next {c : Cell} (h : a.Holds (xs ++ c :: ys) loose) :
    a.Path (a.next c.1) (ys.map Prod.fst) none := by
  have hpath := h.path
  rw [List.map_append, path_append] at hpath
  obtain ⟨_, _, _, hys⟩ := hpath
  exact hys

/-- Walking on from a linked slot meets what is linked behind it. -/
theorem orderAfter_eq (xs : List Cell) {c : Cell} (h : a.Holds (xs ++ c :: ys) loose) :
    a.orderAfter c.1 = ys.map Prod.fst := by
  have hlen := h.length_le
  simp only [List.length_append, List.length_cons] at hlen
  exact follow_eq h.path_next (by rw [List.length_map]; omega)

/-- A slot is linked once. -/
theorem notMem_others {c : Cell} (h : a.Holds (xs ++ c :: ys) loose) :
    c.1 ∉ xs.map Prod.fst ++ ys.map Prod.fst := by
  have hnd := h.nodup
  rw [List.map_append] at hnd
  have hlinked := (List.nodup_append.mp hnd).1
  rw [List.map_append, List.map_cons, List.nodup_middle, List.nodup_cons] at hlinked
  exact hlinked.1

theorem head_eq (h : a.Holds cells loose) : a.head = cells.head?.map Prod.fst := by
  have hpath := h.path
  cases cells with
  | nil => exact hpath
  | cons c cells => exact hpath.1

theorem next_eq {c : Cell} (h : a.Holds (xs ++ c :: ys) loose) :
    a.next c.1 = ys.head?.map Prod.fst := by
  have hys := h.path_next
  cases ys with
  | nil => exact hys
  | cons d ys => exact hys.1

/-! ### Keeping it -/

/-- **Changing links keeps the invariant**, if the new links lead through slots in use and free
slots keep none. -/
theorem relink {cells' loose' : List Cell} (h : a.Holds cells loose)
    (hperm : (cells' ++ loose').Perm (cells ++ loose)) (hfree : b.free = a.free)
    (hsize : b.size = a.size) (hslots : b.slots.size = a.slots.size)
    (hmessage : ∀ id, (b.slot id).message = (a.slot id).message)
    (hnext : ∀ id ∈ a.free, b.next id = a.next id)
    (hpath : b.Path b.head (cells'.map Prod.fst) none) : b.Holds cells' loose' where
  path := hpath
  nodup := (hperm.map Prod.fst).nodup_iff.mpr h.nodup
  full := fun c hc => (hmessage c.1).trans (h.full c (hperm.mem_iff.mp hc))
  freeNodup := hfree ▸ h.freeNodup
  freeEmpty := by
    intro id hid
    rw [hfree] at hid
    obtain ⟨hlt, hempty⟩ := h.freeEmpty id hid
    refine ⟨hslots ▸ hlt, ?_⟩
    have hm := hmessage id
    have hn := hnext id hid
    rw [next, next, hempty] at hn
    rw [hempty] at hm
    cases hs : b.slot id with
    | mk m n =>
      rw [hs] at hm hn
      cases hm
      cases hn
      rfl
  cover := by
    intro id hid
    rw [hslots] at hid
    rw [(hperm.map Prod.fst).mem_iff, hfree]
    exact h.cover id hid
  size := by rw [hsize, h.size, hperm.length_eq]

/-- **Allocation takes the fresh slot**, which is loose until a link leads to it. -/
theorem alloc (h : a.Holds cells loose) (m : Message) (n : Option Nat) :
    (a.alloc m n).Holds cells ((a.fresh, m) :: loose) := by
  have hslot := slot_alloc (fun id hid => (h.freeEmpty id hid).1) m n
  have hperm : (cells ++ (a.fresh, m) :: loose).Perm ((a.fresh, m) :: (cells ++ loose)) :=
    List.perm_middle
  have hne : ∀ c ∈ cells ++ loose, c.1 ≠ a.fresh := fun c hc he =>
    h.fresh_notMem (he ▸ List.mem_map_of_mem hc)
  refine ⟨?_, ?_, ?_, ?_, ?_, ?_, ?_⟩
  · rw [head_alloc]
    refine h.path.congr fun id hid => ?_
    obtain ⟨c, hc, rfl⟩ := List.mem_map.mp hid
    rw [next, hslot, if_neg (hne c (List.mem_append_left loose hc)), next]
  · rw [(hperm.map Prod.fst).nodup_iff]
    exact List.nodup_cons.mpr ⟨h.fresh_notMem, h.nodup⟩
  · intro c hc
    rw [hslot]
    rcases List.mem_cons.mp (hperm.mem_iff.mp hc) with rfl | hc
    · rw [if_pos rfl]
    · rw [if_neg (hne c hc), h.full c hc]
  · rw [free_alloc]
    exact h.freeNodup.sublist (List.tail_sublist _)
  · intro i hi
    rw [free_alloc] at hi
    obtain ⟨hlt, hempty⟩ := h.freeEmpty i (List.mem_of_mem_tail hi)
    refine ⟨Nat.lt_of_lt_of_le hlt (size_slots_le_alloc a m n), ?_⟩
    rw [hslot, if_neg (ne_fresh_of_mem_tail h.freeNodup hi), hempty]
  · intro i hi
    rw [(hperm.map Prod.fst).mem_iff, List.map_cons, List.mem_cons, free_alloc]
    -- a new slot is the fresh one, so every other slot was covered before
    by_cases he : i = a.fresh
    · exact Or.inl (Or.inl he)
    · rcases h.cover i (lt_size_of_lt_alloc hi he) with hc | hf
      · exact Or.inl (Or.inr hc)
      · exact Or.inr (mem_free_tail hf he)
  · rw [size_alloc, h.size, hperm.length_eq, List.length_cons]

/-- **A loose slot is given back.** -/
theorem release {c : Cell} (h : a.Holds cells (c :: loose)) :
    (a.release c.1).Holds cells loose := by
  have hslot := slot_release a c.1
  have hperm : (cells ++ c :: loose).Perm (c :: (cells ++ loose)) := List.perm_middle
  have hnd := h.nodup
  rw [(hperm.map Prod.fst).nodup_iff, List.map_cons, List.nodup_cons] at hnd
  have hne : ∀ d ∈ cells ++ loose, d.1 ≠ c.1 := fun d hd he => hnd.1 (he ▸ List.mem_map_of_mem hd)
  have hmem : c ∈ cells ++ c :: loose := List.mem_append_right _ List.mem_cons_self
  refine ⟨?_, hnd.2, ?_, ?_, ?_, ?_, ?_⟩
  · refine h.path.congr fun id hid => ?_
    obtain ⟨d, hd, rfl⟩ := List.mem_map.mp hid
    rw [next, hslot, if_neg (hne d (List.mem_append_left loose hd)), next]
  · intro d hd
    rw [hslot, if_neg (hne d hd)]
    exact h.full d (hperm.mem_iff.mpr (List.mem_cons_of_mem c hd))
  · exact List.nodup_cons.mpr ⟨h.notMem_free hmem, h.freeNodup⟩
  · intro id hid
    rw [size_slots_release, hslot]
    rcases List.mem_cons.mp hid with rfl | hid
    · exact ⟨h.lt_size hmem, if_pos rfl⟩
    · obtain ⟨hlt, hempty⟩ := h.freeEmpty id hid
      refine ⟨hlt, ?_⟩
      split
      · rfl
      · exact hempty
  · intro id hid
    rw [size_slots_release] at hid
    have hcover := h.cover id hid
    rw [(hperm.map Prod.fst).mem_iff, List.map_cons, List.mem_cons] at hcover
    rcases hcover with (rfl | hc) | hc
    · exact Or.inr List.mem_cons_self
    · exact Or.inl hc
    · exact Or.inr (List.mem_cons_of_mem _ hc)
  · have hsize := h.size
    rw [hperm.length_eq, List.length_cons] at hsize
    rw [Arena.release, hsize]
    rfl

/-- Loose slots are given back one after the other. -/
theorem release_all (h : a.Holds cells (ys ++ loose)) :
    ((ys.map Prod.fst).foldl Arena.release a).Holds cells loose := by
  induction ys generalizing a with
  | nil => exact h
  | cons c ys ih => exact ih h.release

end Holds

end Agenda.Arena
