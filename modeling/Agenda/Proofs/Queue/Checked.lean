import Agenda.Proofs.Arena.Checked
import Agenda.Proofs.Queue.Runs
import Agenda.Queue.Checked

/-!
# Every check of the queue passes

A queue never uses a stale slot number.  Its operations, written with a check at every access in
`Queue.Checked`, answer in every state that a run can reach, and their answers are those of the
queue itself: no number is out of range, no slot that is read is empty, no slot is taken out but
behind the one that links to it, no count drops below zero, and every walk ends.

Each operation has a lemma of its own on a sound arena.  What is left to show in it is that the
slots it goes on with are those of cells: a walk to a due position stops at a cell
(`exists_lastDue`), a search finds one (`find?_eq_some`), and so does the consumer
(`eligible?_place`).
-/

namespace Agenda.Queue

open Arena (Cell)

variable {a : Arena} {q : Queue} {cells xs ys : List Cell} {c : Cell}

/-! ### The head -/

/-- What can be read at the head, and how far a walk behind it goes. -/
theorem checked_head (h : a.Holds (c :: cells) []) :
    Arena.Checked.get a c.1 = some c.2 ∧ a.get c.1 = c.2 ∧
      Arena.Checked.next a c.1 = some (cells.head?.map Prod.fst) ∧
      a.orderAfter c.1 = cells.map Prod.fst ∧ cells.length ≤ a.slots.size := by
  have h' : a.Holds ([] ++ c :: cells) [] := h
  exact ⟨h.checked_get (by simp), h.get_eq List.mem_cons_self, h'.checked_next, h'.orderAfter_eq [],
    Nat.le_of_succ_le h.length_le⟩

/-! ### Walks to a due position -/

theorem checked_walk (h : a.Holds (xs ++ ys) []) (due : Time) {bound : Nat}
    (hb : ys.length ≤ bound) (prev : Nat) (wake : Bool) :
    Checked.walk a due bound prev wake (ys.head?.map Prod.fst) =
      some (walk a due prev wake (ys.map Prod.fst)) := by
  induction ys generalizing xs bound prev wake with
  | nil => cases bound <;> rfl
  | cons c ys ih =>
    cases bound with
    | zero => simp at hb
    | succ bound =>
      have h' : a.Holds (xs ++ [c] ++ ys) [] := by simpa using h
      have hget : a.get c.1 = c.2 := h.get_eq (by simp)
      have hrest := ih h' (Nat.le_of_succ_le_succ hb) c.1 (wake && !c.2.async)
      rw [List.head?_cons, Option.map_some, Checked.walk, h.checked_get (by simp),
        h.checked_next, List.map_cons, walk, hget]
      by_cases hc : due < c.2.due
      · simp [hc]
      · simp [hc, hrest]

theorem checked_lastDue (h : a.Holds (xs ++ ys) []) (now : Time) {bound : Nat}
    (hb : ys.length ≤ bound) (last : Nat) :
    Checked.lastDue a now bound last (ys.head?.map Prod.fst) =
      some (lastDue a now last (ys.map Prod.fst)) := by
  induction ys generalizing xs bound last with
  | nil => cases bound <;> rfl
  | cons c ys ih =>
    cases bound with
    | zero => simp at hb
    | succ bound =>
      have h' : a.Holds (xs ++ [c] ++ ys) [] := by simpa using h
      have hget : a.get c.1 = c.2 := h.get_eq (by simp)
      have hrest := ih h' (Nat.le_of_succ_le_succ hb) c.1
      rw [List.head?_cons, Option.map_some, Checked.lastDue, h.checked_get (by simp),
        h.checked_next, List.map_cons, lastDue, hget]
      by_cases hc : now < c.2.due
      · simp [hc]
      · simp [hc, hrest]

/-- A walk to a due position stops at a cell. -/
theorem exists_lastDue (h : a.Holds (c :: cells) []) (t : Time) : ∃ xs d ys,
    c :: cells = xs ++ d :: ys ∧ lastDue a t c.1 (cells.map Prod.fst) = d.1 := by
  have hget : ∀ d ∈ cells, a.get d.1 = d.2 := fun d hd => h.get_eq (List.mem_cons_of_mem c hd)
  obtain ⟨xs, d, he, hlast⟩ := lastDue_eq hget t c
  refine ⟨xs, d, cells.dropWhile (·.2.due ≤ t), ?_, hlast⟩
  rw [List.append_cons, ← he, List.cons_append, List.takeWhile_append_dropWhile]

/-! ### Linking -/

theorem checked_headBefore (h : q.arena.Holds cells []) (due : Time) :
    Checked.headBefore q due = some (q.headBefore? due) := by
  rw [Checked.headBefore, headBefore?, h.head_eq]
  cases cells with
  | nil => rfl
  | cons c cells =>
    obtain ⟨hchecked, hget, _⟩ := checked_head h
    simp [hchecked, hget, Option.filter]

theorem checked_link (h : q.arena.Sound) (m : Message) : Checked.link q m = some (q.link m) := by
  obtain ⟨cells, h⟩ := h
  rw [Checked.link, checked_headBefore h, link]
  cases hbefore : q.headBefore? m.due with
  | none => simp [h.checked_pushFront]
  | some head =>
    cases cells with
    | nil => simp [headBefore?, h.head_eq] at hbefore
    | cons c cells =>
      have hhead : head = c.1 := by
        rw [headBefore?, h.head_eq, List.head?_cons, Option.map_some,
          Option.filter_eq_some_iff] at hbefore
        exact (Option.some.inj hbefore.1).symm
      subst hhead
      obtain ⟨hchecked, hget, hnext, hafter, hb⟩ := checked_head h
      have hwalk := checked_walk (show q.arena.Holds ([c] ++ cells) [] from h) m.due hb c.1
      -- the slot behind which the message is linked is where the walk stops
      obtain ⟨xs, d, ys, hcells, hlast⟩ := exists_lastDue h m.due
      have hstop (wake : Bool) : (walk q.arena m.due c.1 wake (cells.map Prod.fst)).1 = d.1 := by
        rw [walk_fst, hlast]
      have hd : q.arena.Holds (xs ++ d :: ys) [] := hcells ▸ h
      simp only [Option.bind_eq_bind, Option.bind_some, hchecked, hget, hnext, hwalk, hafter, hstop,
        hd.checked_insertAfter]
      rfl

theorem checked_enqueue (h : q.arena.Sound) (m : Message) (due : Time) :
    Checked.enqueue q m due = some (q.enqueue m due) := by
  rw [Checked.enqueue]
  split
  · rename_i hm
    simp only [Bool.and_eq_true, Bool.not_eq_true', Option.isSome_iff_exists] at hm
    obtain ⟨⟨⟨target, ht⟩, hu⟩, hq⟩ := hm
    simp [checked_link h, enqueue, ht, hu, hq]
  · rfl

theorem checked_postBarrier (h : q.arena.Sound) (due : Time) :
    Checked.postBarrier q due = some (q.postBarrier due) := by
  have h' : ({ q with nextToken := q.nextToken + 1 } : Queue).arena.Sound := h
  rw [Checked.postBarrier]
  split
  · rfl
  · rename_i hq
    rw [postBarrier, if_neg hq]
    dsimp only
    rw [checked_link h']
    rfl

/-! ### Removing -/

theorem checked_beforeBarrier (h : a.Holds (xs ++ c :: ys) []) :
    Checked.beforeBarrier a c.1 = some ((a.next c.1).any fun next => (a.get next).isBarrier) := by
  rw [Checked.beforeBarrier, h.checked_next, h.next_eq]
  cases ys with
  | nil => rfl
  | cons d ys =>
    have hget : a.get d.1 = d.2 := h.get_eq (by simp)
    simp [h.checked_get (c := d) (by simp), hget]

theorem checked_removeBarrier (h : q.arena.Sound) (token : Token) :
    Checked.removeBarrier q token = some (q.removeBarrier token) := by
  obtain ⟨cells, h⟩ := h
  rw [Checked.removeBarrier, h.checked_find, removeBarrier]
  cases hf : q.arena.find? fun m => m.token? == some token with
  | none => rfl
  | some place =>
    obtain ⟨xs, c, ys, rfl, _, _, rfl⟩ := h.find?_eq_some hf
    simp only [Option.bind_eq_bind, Option.bind_some, checked_beforeBarrier h, h.checked_unlink rfl]
    rfl

theorem checked_remove (h : q.arena.Sound) (f : Filter) :
    Checked.remove q f = some (q.remove f) := by
  obtain ⟨cells, h⟩ := h
  rw [Checked.remove, h.checked_removeIf]
  rfl

/-! ### Quitting -/

theorem checked_dropFuture (h : q.arena.Holds cells []) (now : Time) :
    Checked.dropFuture q now = some (q.dropFuture now) := by
  rw [Checked.dropFuture, dropFuture, h.head_eq]
  cases cells with
  | nil => rfl
  | cons c cells =>
    obtain ⟨hchecked, hget, hnext, hafter, hb⟩ := checked_head h
    have hwalk := checked_lastDue (show q.arena.Holds ([c] ++ cells) [] from h) now hb c.1
    obtain ⟨xs, d, ys, hcells, hlast⟩ := exists_lastDue h now
    have hd : q.arena.Holds (xs ++ d :: ys) [] := hcells ▸ h
    simp only [List.head?_cons, Option.map_some, Option.bind_eq_bind, Option.bind_some, hchecked,
      hget]
    by_cases hc : now < c.2.due
    · rw [if_pos hc, if_pos hc, h.checked_clear]
    · rw [if_neg hc, if_neg hc, hnext, Option.bind_some, hwalk, hafter, hlast]
      exact hd.checked_truncateAfter

theorem checked_quit (h : q.arena.Sound) (now : Time) (safe : Bool) :
    Checked.quit q now safe = some (q.quit now safe) := by
  obtain ⟨cells, h⟩ := h
  rw [Checked.quit]
  split
  · rename_i hq
    simp only [Bool.and_eq_true, Bool.not_eq_true'] at hq
    cases safe <;> simp [quit, hq, checked_dropFuture h, h.checked_clear]
  · rfl

/-- **Every operation passes its checks.** -/
theorem checked_perform (h : q.arena.Sound) (now : Time) (op : Operation) :
    Checked.perform q now op = some (q.perform now op) := by
  cases op with
  | enqueue m due => simp [Checked.perform, checked_enqueue h, perform]
  | postBarrier due => simp [Checked.perform, checked_postBarrier h, perform]
  | removeBarrier token => simp [Checked.perform, checked_removeBarrier h, perform]
  | remove f => simp [Checked.perform, checked_remove h, perform]
  | addIdle i => rfl
  | removeIdle i => rfl
  | quit safe => simp [Checked.perform, checked_quit h, perform]

/-! ### Questions -/

theorem checked_has (h : q.arena.Sound) (f : Filter) : Checked.has q f = some (q.has f) := by
  obtain ⟨cells, h⟩ := h
  rw [Checked.has, h.checked_toList]
  rfl

theorem checked_dump (h : q.arena.Sound) (now : Time) (parked : Bool) :
    Checked.dump q now parked = some (q.dump now parked) := by
  obtain ⟨cells, h⟩ := h
  rw [Checked.dump, h.checked_toList]
  rfl

/-! ### The consumer -/

theorem checked_eligible (h : q.arena.Holds cells []) :
    Checked.eligible q = some q.eligible? := by
  rw [Checked.eligible, eligible?, h.head_eq]
  cases cells with
  | nil => rfl
  | cons c cells =>
    obtain ⟨hchecked, hget, hnext, hafter, hb⟩ := checked_head h
    have h' : q.arena.Holds ([c] ++ cells) [] := h
    simp only [List.head?_cons, Option.map_some, Option.bind_eq_bind, Option.bind_some, hchecked,
      hget]
    by_cases hc : c.2.isBarrier
    · rw [if_pos hc, if_pos hc, hnext, Option.bind_some, h'.checked_search _ hb, hafter]
    · rw [if_neg hc, if_neg hc]
      rfl

theorem checked_headIdle (h : q.arena.Holds cells []) (now : Time) :
    Checked.headIdle q now = some (q.headIdle now) := by
  rw [Checked.headIdle, headIdle, Arena.first?, h.head_eq]
  cases cells with
  | nil => rfl
  | cons c cells =>
    obtain ⟨hchecked, hget, _⟩ := checked_head h
    simp [hchecked, hget]

theorem checked_dispose (h : q.arena.Holds cells []) : Checked.dispose q = some q.dispose := by
  rw [Checked.dispose]
  split
  · rename_i hd
    rw [dispose, if_pos hd]
  · rw [h.checked_clear]
    rfl

theorem checked_sleepOrIdle (h : q.arena.Holds cells []) (now : Time) (settled : Bool)
    (timeout : Timeout) : Checked.sleepOrIdle q now settled timeout =
      some (q.sleepOrIdle now settled timeout) := by
  rw [Checked.sleepOrIdle, sleepOrIdle]
  split
  · rw [checked_dispose h]
    rfl
  · rw [checked_headIdle h]
    simp only [Option.bind_eq_bind, Option.bind_some]
    split <;> rfl

/-- **Every look passes its checks.** -/
theorem WellFormed.checked_scan (h : q.WellFormed) (now : Time) (settled : Bool) :
    Checked.scan q now settled = some (q.scan now settled) := by
  obtain ⟨cells, hcells⟩ := h.sound
  have hp : q.pending = cells.map Prod.snd := hcells.toList_eq
  rw [Checked.scan, Queue.scan]
  split
  · rfl
  · rw [checked_eligible hcells]
    simp only [Option.bind_eq_bind, Option.bind_some]
    cases he : q.eligible? with
    | none => exact checked_sleepOrIdle hcells now settled .indefinite
    | some place =>
      obtain ⟨xs, c, ys, rfl, rfl, _⟩ := eligible?_place hcells (hp ▸ h.orderly) he
      have hget : q.arena.get c.1 = c.2 := hcells.get_eq (by simp)
      simp only [hcells.checked_get (c := c) (by simp), hget, Option.bind_some]
      by_cases hdue : now < c.2.due
      · rw [if_pos hdue, if_pos hdue, timeoutFor, hget]
        exact checked_sleepOrIdle hcells now settled _
      · rw [if_neg hdue, if_neg hdue, hcells.checked_unlink rfl]
        rfl

/-! ### Runs -/

/-- The queue after a turn, if the turn passes its checks. -/
def Checked.turn (q : Queue) : Turn → Option Queue
  | .operate now op => (Checked.perform q now op).map Reply.state
  | .look now settled => (Checked.scan q now settled).map Reply.state
  | .idle h outcome => some (q.turn (.idle h outcome))
  | .endPass => some (q.turn .endPass)

theorem WellFormed.checked_turn (h : q.WellFormed) (t : Turn) :
    Checked.turn q t = some (q.turn t) := by
  cases t with
  | operate now op => rw [Checked.turn, checked_perform h.sound, Option.map_some, turn]
  | look now settled => rw [Checked.turn, h.checked_scan, Option.map_some, turn]
  | idle i outcome => rfl
  | endPass => rfl

theorem WellFormed.checked_turns (h : q.WellFormed) (ts : List Turn) :
    ts.foldlM Checked.turn q = some (q.turns ts) := by
  induction ts generalizing q with
  | nil => rfl
  | cons t ts ih =>
    rw [List.foldlM_cons, h.checked_turn, Option.bind_eq_bind, Option.bind_some,
      ih (turn_wellFormed h t)]
    rfl

/-- **No slot number goes stale.**  After any run of a fresh queue the links from the head lead
through distinct slots that are full, the free list names distinct slots that are empty, every slot
is one or the other, and the count is that of the linked ones.  The run itself passes every check
and comes to the same queue, and so does whatever is done next: an operation, a look, a question, a
dump. -/
theorem no_slot_number_goes_stale (quittable : Bool) (ts : List Turn) :
    let start : Queue := { quittable }
    let q := start.turns ts
    q.arena.Intact ∧ ts.foldlM Checked.turn start = some q ∧
    (∀ now op, Checked.perform q now op = some (q.perform now op)) ∧
    (∀ now settled, Checked.scan q now settled = some (q.scan now settled)) ∧
    (∀ f, Checked.has q f = some (q.has f)) ∧
    ∀ now parked, Checked.dump q now parked = some (q.dump now parked) := by
  intro start q
  have hfresh : start.WellFormed := wellFormed_fresh quittable
  have hw : q.WellFormed := turns_wellFormed hfresh ts
  obtain ⟨cells, hcells⟩ := hw.sound
  exact ⟨hcells.intact, hfresh.checked_turns ts, checked_perform hw.sound, hw.checked_scan,
    checked_has hw.sound, checked_dump hw.sound⟩

end Agenda.Queue
