import Agenda.Proofs.Arena.Linked
import Mathlib.Data.List.Induction

/-!
# Edits of the chain

What each operation of the arena does to the list of cells.  Inserting is two steps, a slot is
allocated and then linked; taking out is two steps as well, a cell is bridged over and then
released.  Both go through `Holds.relink` in the middle.

* `Holds.pushFront`, `Holds.insertAfter`: a message is put in front, or behind a cell.
* `Holds.unlink`: the cell at a place is taken out, and the place names its neighbour.
* `search_eq_some`, `search_eq_none`: a search finds the first cell that passes.
* `Holds.removeIf`, `Holds.truncateAfter`, `Holds.clear`: many cells are taken out in one walk.
-/

namespace Agenda.Arena

variable {a : Arena} {cells loose xs ys : List Cell}

namespace Holds

/-! ### Putting in -/

theorem pushFront (h : a.Holds cells []) (m : Message) :
    (a.pushFront m).Holds ((a.fresh, m) :: cells) [] := by
  have halloc := h.alloc m a.head
  refine halloc.relink ?_ rfl rfl rfl (fun _ => rfl) (fun _ _ => rfl) ?_
  · have hlast : ([(a.fresh, m)] ++ cells).Perm (cells ++ [(a.fresh, m)]) := List.perm_append_comm
    rwa [List.append_nil]
  · have hnext : (a.alloc m a.head).next a.fresh = a.head := by
      rw [next, slot_alloc (fun id hid => (h.freeEmpty id hid).1), if_pos rfl]
    have hpath := halloc.path
    rw [head_alloc] at hpath
    refine ⟨rfl, Path.congr (a := a.alloc m a.head) ?_ fun _ _ => rfl⟩
    change (a.alloc m a.head).Path ((a.alloc m a.head).next a.fresh) _ _
    rw [hnext]
    exact hpath

/-- The new message stands directly behind the last of `xs`. -/
theorem insertAfter {c : Cell} (h : a.Holds (xs ++ c :: ys) []) (m : Message) :
    (a.insertAfter c.1 m).Holds (xs ++ c :: (a.fresh, m) :: ys) [] := by
  have halloc := h.alloc m (a.next c.1)
  have hslot := slot_alloc (fun id hid => (h.freeEmpty id hid).1) m (a.next c.1)
  have hmem : c ∈ xs ++ c :: ys ++ [] := by simp
  have hfresh : c.1 ≠ a.fresh := fun he => h.fresh_notMem (he ▸ List.mem_map_of_mem hmem)
  have hlt : c.1 < (a.alloc m (a.next c.1)).slots.size :=
    halloc.lt_size (List.mem_append_left _ (by simp))
  have hne : ∀ id ∈ xs.map Prod.fst ++ ys.map Prod.fst, id ≠ c.1 :=
    fun id hid he => h.notMem_others (he ▸ hid)
  refine halloc.relink ?_ rfl rfl (size_slots_setNext _ _ _) (message_setNext _ _ _) ?_ ?_
  · have hmiddle : (xs ++ c :: (a.fresh, m) :: ys).Perm ((a.fresh, m) :: (xs ++ c :: ys)) := by
      rw [List.append_cons]
      refine List.perm_middle.trans ?_
      rw [← List.append_cons]
    have hlast : ([(a.fresh, m)] ++ (xs ++ c :: ys)).Perm (xs ++ c :: ys ++ [(a.fresh, m)]) :=
      List.perm_append_comm
    rw [List.append_nil]
    exact hmiddle.trans hlast
  · intro id hid
    refine next_setNext_of_ne _ fun he => ?_
    exact halloc.notMem_free (List.mem_append_left _ (by simp)) (he ▸ hid)
  · have hpath := halloc.path
    rw [List.map_append, path_append] at hpath
    obtain ⟨middle, hxs, hc, hys⟩ := hpath
    rw [List.map_append, path_append]
    refine ⟨middle, ?_, hc, ?_⟩
    · exact hxs.congr fun id hid => next_setNext_of_ne _ (hne id (List.mem_append_left _ hid))
    · have hold : (a.alloc m (a.next c.1)).next c.1 = a.next c.1 := by
        rw [next, hslot, if_neg hfresh, next]
      have hnew : (a.insertAfter c.1 m).next a.fresh = a.next c.1 := by
        rw [Arena.insertAfter, next_setNext_of_ne _ hfresh.symm, next, hslot, if_pos rfl]
      refine ⟨next_setNext_self _ hlt, ?_⟩
      rw [hnew, ← hold]
      exact hys.congr fun id hid => next_setNext_of_ne _ (hne id (List.mem_append_right _ hid))

/-! ### Taking out -/

/-- A bridged cell is loose. -/
theorem bridge {c : Cell} {prev : Option Nat} (h : a.Holds (xs ++ c :: ys) [])
    (hprev : prev = (xs.map Prod.fst).getLast?) : (a.bridge ⟨prev, c.1⟩).Holds (xs ++ ys) [c] := by
  have hperm : (xs ++ ys ++ [c]).Perm (xs ++ c :: ys ++ []) := by
    rw [List.append_nil, List.append_assoc]
    exact List.Perm.append_left xs List.perm_append_comm
  have hpath := h.path
  rw [List.map_append, path_append] at hpath
  obtain ⟨middle, hxs, hc, hys⟩ := hpath
  -- the neighbour is the last of the cells before, so these are taken from their end
  cases xs using List.reverseRecOn with
  | nil =>
    subst hprev
    exact h.relink hperm rfl rfl rfl (fun _ => rfl) (fun _ _ => rfl) (hys.congr fun _ _ => rfl)
  | append_singleton xs d =>
    have hd : d.1 < a.slots.size := h.lt_size (by simp)
    have h' : a.Holds (xs ++ d :: (c :: ys)) [] := by simpa using h
    have hne : ∀ id ∈ xs.map Prod.fst ++ (c.1 :: ys.map Prod.fst), id ≠ d.1 :=
      fun id hid he => h'.notMem_others (he ▸ hid)
    rw [List.map_append, List.map_singleton, List.getLast?_append, List.getLast?_singleton,
      Option.some_or] at hprev
    subst hprev
    refine h.relink hperm rfl rfl (size_slots_setNext _ _ _) (message_setNext _ _ _) ?_ ?_
    · intro id hid
      exact next_setNext_of_ne _ fun he => h.notMem_free (by simp) (he ▸ hid)
    · rw [List.map_append, path_append] at hxs
      obtain ⟨before, hxs, hd', hlast⟩ := hxs
      rw [List.map_append, List.map_append, List.append_assoc, path_append]
      refine ⟨before, ?_, hd', ?_⟩
      · exact hxs.congr fun id hid => next_setNext_of_ne _ (hne id (List.mem_append_left _ hid))
      · show Path _ ((a.setNext d.1 (a.next c.1)).next d.1) _ _
        rw [next_setNext_self _ hd]
        exact hys.congr fun id hid => next_setNext_of_ne _
          (hne id (List.mem_append_right _ (List.mem_cons_of_mem _ hid)))

/-- **The cell at a place is taken out**, and nothing else. -/
theorem unlink {c : Cell} {prev : Option Nat} (h : a.Holds (xs ++ c :: ys) [])
    (hprev : prev = (xs.map Prod.fst).getLast?) : (a.unlink ⟨prev, c.1⟩).Holds (xs ++ ys) [] :=
  (h.bridge hprev).release

end Holds

/-! ### Searching -/

theorem search_eq_none {pass : Message → Bool} (hget : ∀ c ∈ cells, a.get c.1 = c.2)
    (prev : Option Nat) :
    a.search pass prev (cells.map Prod.fst) = none ↔ ∀ c ∈ cells, pass c.2 = false := by
  induction cells generalizing prev with
  | nil => simp [search]
  | cons c cells ih =>
    have hc := hget c List.mem_cons_self
    rw [List.map_cons, search, hc, List.forall_mem_cons]
    by_cases hp : pass c.2
    · simp [hp]
    · simp only [hp, Bool.false_eq_true, ↓reduceIte, true_and]
      exact ih (fun d hd => hget d (List.mem_cons_of_mem c hd)) (some c.1)

/-- **A search finds the first cell that passes**, with the slot before it. -/
theorem search_eq_some {pass : Message → Bool} (hget : ∀ c ∈ cells, a.get c.1 = c.2)
    {prev : Option Nat} {place : Place}
    (h : a.search pass prev (cells.map Prod.fst) = some place) :
    ∃ xs c ys, cells = xs ++ c :: ys ∧ (∀ x ∈ xs, pass x.2 = false) ∧ pass c.2 = true ∧
      place = ⟨(xs.map Prod.fst).getLast?.or prev, c.1⟩ := by
  induction cells generalizing prev with
  | nil => simp [search] at h
  | cons c cells ih =>
    have hc := hget c List.mem_cons_self
    rw [List.map_cons, search, hc] at h
    by_cases hp : pass c.2
    · rw [if_pos hp] at h
      exact ⟨[], c, cells, rfl, by simp, hp, (Option.some.inj h).symm⟩
    · rw [if_neg hp] at h
      obtain ⟨xs, d, ys, rfl, hxs, hd, rfl⟩ :=
        ih (fun d hd => hget d (List.mem_cons_of_mem c hd)) h
      refine ⟨c :: xs, d, ys, rfl, ?_, hd, ?_⟩
      · exact List.forall_mem_cons.mpr ⟨by simpa using hp, hxs⟩
      · rw [List.map_cons, List.getLast?_cons]
        cases (xs.map Prod.fst).getLast? <;> rfl

namespace Holds

theorem find?_eq_none (h : a.Holds cells []) {pass : Message → Bool} :
    a.find? pass = none ↔ ∀ c ∈ cells, pass c.2 = false := by
  rw [find?, h.order_eq]
  exact search_eq_none (fun c hc => h.get_eq hc) none

theorem find?_eq_some (h : a.Holds cells []) {pass : Message → Bool} {place : Place}
    (hf : a.find? pass = some place) :
    ∃ xs c ys, cells = xs ++ c :: ys ∧ (∀ x ∈ xs, pass x.2 = false) ∧ pass c.2 = true ∧
      place = ⟨(xs.map Prod.fst).getLast?, c.1⟩ := by
  rw [find?, h.order_eq] at hf
  obtain ⟨xs, c, ys, he, hxs, hc, hp⟩ := search_eq_some (fun c hc => h.get_eq hc) hf
  exact ⟨xs, c, ys, he, hxs, hc, by rw [hp, Option.or_none]⟩

/-! ### Taking out many -/

/-- What a sweep has passed stays, and of the rest it takes out what passes the test. -/
theorem sweep {pass : Message → Bool} {prev : Option Nat} (h : a.Holds (xs ++ ys) [])
    (hprev : prev = (xs.map Prod.fst).getLast?) :
    (a.sweep pass prev (ys.map Prod.fst)).1 = ys.countP (pass ·.2) ∧
      (a.sweep pass prev (ys.map Prod.fst)).2.Holds (xs ++ ys.filter (!pass ·.2)) [] := by
  induction ys generalizing a xs prev with
  | nil => exact ⟨rfl, h⟩
  | cons c ys ih =>
    have hc : a.get c.1 = c.2 := h.get_eq (by simp)
    rw [List.map_cons, Arena.sweep, hc]
    by_cases hp : pass c.2
    · obtain ⟨hn, hb⟩ := ih (h.unlink hprev) hprev
      rw [if_pos hp, List.countP_cons_of_pos (by exact hp), List.filter_cons_of_neg (by simp [hp])]
      exact ⟨congrArg (· + 1) hn, hb⟩
    · have h' : a.Holds (xs ++ [c] ++ ys) [] := by simpa using h
      have hlast : some c.1 = ((xs ++ [c]).map Prod.fst).getLast? := by simp
      obtain ⟨hn, hb⟩ := ih h' hlast
      rw [if_neg hp, List.countP_cons_of_neg (by exact hp), List.filter_cons_of_pos (by simp [hp])]
      exact ⟨hn, by simpa using hb⟩

theorem removeIf (h : a.Holds cells []) (pass : Message → Bool) :
    (a.removeIf pass).1 = cells.countP (pass ·.2) ∧
      (a.removeIf pass).2.Holds (cells.filter (!pass ·.2)) [] := by
  rw [Arena.removeIf, h.order_eq]
  have h' : a.Holds ([] ++ cells) [] := h
  exact h'.sweep rfl

/-- What is behind a cell where the chain is cut is loose. -/
theorem cut {c : Cell} (h : a.Holds (xs ++ c :: ys) []) :
    (a.setNext c.1 none).Holds (xs ++ [c]) (ys ++ []) := by
  have hlt : c.1 < a.slots.size := h.lt_size (by simp)
  refine h.relink ?_ rfl rfl (size_slots_setNext _ _ _) (message_setNext _ _ _) ?_ ?_
  · simp
  · intro id hid
    exact next_setNext_of_ne _ fun he => h.notMem_free (by simp) (he ▸ hid)
  · have hpath := h.path
    rw [List.map_append, path_append] at hpath
    obtain ⟨middle, hxs, hc, _⟩ := hpath
    rw [List.map_append, path_append]
    refine ⟨middle, ?_, hc, next_setNext_self _ hlt⟩
    exact hxs.congr fun id hid => next_setNext_of_ne _ fun he =>
      h.notMem_others (he ▸ List.mem_append_left _ hid)

/-- Without a head all cells are loose. -/
theorem behead (h : a.Holds cells []) :
    ({ a with head := none } : Arena).Holds [] (cells ++ []) := by
  refine h.relink ?_ rfl rfl rfl (fun _ => rfl) (fun _ _ => rfl) rfl
  simp

/-- Everything behind a cell is cut off and given back. -/
theorem truncateAfter {c : Cell} (h : a.Holds (xs ++ c :: ys) []) :
    (a.truncateAfter c.1).1 = ys.length ∧ (a.truncateAfter c.1).2.Holds (xs ++ [c]) [] := by
  rw [Arena.truncateAfter, h.orderAfter_eq xs]
  exact ⟨List.length_map _, h.cut.release_all⟩

theorem clear (h : a.Holds cells []) :
    a.clear.1 = cells.length ∧ a.clear.2.Holds [] [] := by
  rw [Arena.clear, h.order_eq]
  exact ⟨List.length_map _, h.behead.release_all⟩

end Holds

/-! ### Cutting gives slots back, and takes none away -/

theorem size_slots_foldl_release (a : Arena) (ids : List Nat) :
    (ids.foldl release a).slots.size = a.slots.size := by
  induction ids generalizing a with
  | nil => rfl
  | cons id ids ih => exact (ih (a.release id)).trans (size_slots_release a id)

theorem size_slots_truncateAfter (a : Arena) (id : Nat) :
    (a.truncateAfter id).2.slots.size = a.slots.size :=
  (size_slots_foldl_release _ _).trans (size_slots_setNext a id none)

theorem size_slots_clear (a : Arena) : a.clear.2.slots.size = a.slots.size :=
  size_slots_foldl_release _ _

theorem size_slots_unlink (a : Arena) (place : Place) :
    (a.unlink place).slots.size = a.slots.size := by
  rw [unlink, size_slots_release, bridge]
  split
  · rfl
  · exact size_slots_setNext a _ _

theorem size_slots_sweep (a : Arena) (pass : Message → Bool) (prev : Option Nat) (ids : List Nat) :
    (a.sweep pass prev ids).2.slots.size = a.slots.size := by
  induction ids generalizing a prev with
  | nil => rfl
  | cons id ids ih =>
    rw [sweep]
    split
    · exact (ih (a.unlink ⟨prev, id⟩) prev).trans (size_slots_unlink a ⟨prev, id⟩)
    · exact ih a (some id)

theorem size_slots_removeIf (a : Arena) (pass : Message → Bool) :
    (a.removeIf pass).2.slots.size = a.slots.size :=
  size_slots_sweep a pass none a.order

/-! ### A new slot is made only if all are in use -/

theorem Holds.size_slots_alloc (h : a.Holds cells loose) (m : Message) (n : Option Nat) :
    (a.alloc m n).slots.size = max a.slots.size (a.size + 1) := by
  have hcount := h.size_add_free
  cases hf : a.free with
  | nil =>
    rw [hf, List.length_nil] at hcount
    have hpush : (a.alloc m n).slots.size = a.slots.size + 1 := by simp [Arena.alloc, hf]
    omega
  | cons id free =>
    rw [hf, List.length_cons] at hcount
    have hset : (a.alloc m n).slots.size = a.slots.size := by simp [Arena.alloc, hf]
    omega

theorem Holds.size_slots_pushFront (h : a.Holds cells []) (m : Message) :
    (a.pushFront m).slots.size = max a.slots.size (a.size + 1) :=
  h.size_slots_alloc m a.head

theorem Holds.size_slots_insertAfter (h : a.Holds cells []) (prev : Nat) (m : Message) :
    (a.insertAfter prev m).slots.size = max a.slots.size (a.size + 1) := by
  rw [Arena.insertAfter, size_slots_setNext]
  exact h.size_slots_alloc m (a.next prev)

end Agenda.Arena
