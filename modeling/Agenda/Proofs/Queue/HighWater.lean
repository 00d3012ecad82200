import Agenda.Dump
import Agenda.Proofs.Queue.Discarding
import Agenda.Proofs.Queue.Disposal
import Mathlib.Order.Bounds.Basic

/-!
# The high-water mark

An arena never gives a slot away: what is taken out goes to the free list, and a new slot is made
only when that list is empty.  So a queue has as many slots as entries were ever pending at once.

`WellFormed.size_slots_turn` says it of one turn: the slots are then as many as before, or as the
entries that are now pending, whichever is more.  `levels` are the numbers of entries that were
pending between two turns of a run, and `isGreatest_levels` follows by induction on the run.  What
is pending and what is free make up the slots (`size_add_free`), which gives the sum that a dump
shows.
-/

namespace Agenda.Queue

variable {q q' : Queue} {t : Turn}

/-! ### One turn -/

/-- The slots after a turn are those before it, and enough for what is pending then. -/
def Rises (q q' : Queue) : Prop :=
  q'.arena.slots.size = max q.arena.slots.size q'.size

theorem rises_of_size_slots_eq (h : q'.arena.Sound)
    (hslots : q'.arena.slots.size = q.arena.slots.size) : q.Rises q' := by
  have hcount := size_add_free h
  unfold Rises
  omega

theorem rises_link (h : q.arena.Sound) (m : Message) : q.Rises (q.link m).1 := by
  obtain ⟨arena, he, ha, hl⟩ := link_spec h m
  have hsize : (q.link m).1.size = q.size + 1 := by
    rw [size_eq_length (by rw [he]; exact ha), (link_perm h m).length_eq, List.length_cons,
      size_eq_length h]
  obtain ⟨cells, h⟩ := h
  unfold Rises
  rw [hsize, link]
  split
  · exact h.size_slots_pushFront m
  · exact h.size_slots_insertAfter _ m

theorem size_slots_removeBarrier (q : Queue) (token : Token) :
    (q.removeBarrier token).state.arena.slots.size = q.arena.slots.size := by
  unfold removeBarrier
  split
  · rfl
  · exact Arena.size_slots_unlink q.arena _

theorem size_slots_quit (q : Queue) (now : Time) (safe : Bool) :
    (q.quit now safe).state.arena.slots.size = q.arena.slots.size := by
  unfold quit
  split
  · rfl
  · split
    · rfl
    · exact size_slots_discard q now safe

theorem rises_perform (h : q.WellFormed) (now : Time) (op : Operation) :
    q.Rises (q.perform now op).state := by
  have hw : (q.perform now op).state.WellFormed := turn_wellFormed h (.operate now op)
  cases op with
  | enqueue m due =>
    rcases enqueue_cases q m due with ⟨_, hs, _⟩ | ⟨_, _, _, _, hs, _⟩
    · exact rises_of_size_slots_eq hw.sound (congrArg (·.arena.slots.size) hs)
    · show q.Rises (q.enqueue m due).state
      rw [hs]
      exact rises_link h.sound _
  | postBarrier due =>
    rcases postBarrier_cases q due with ⟨_, _, hs, _⟩ | ⟨_, _, hs, _⟩
    · exact rises_of_size_slots_eq hw.sound (congrArg (·.arena.slots.size) hs)
    · have hsound : ({ q with nextToken := q.nextToken + 1 } : Queue).arena.Sound := h.sound
      show q.Rises (q.postBarrier due).state
      rw [hs]
      exact rises_link hsound _
  | removeBarrier token => exact rises_of_size_slots_eq hw.sound (size_slots_removeBarrier q token)
  | remove f => exact rises_of_size_slots_eq hw.sound (Arena.size_slots_removeIf q.arena f.accepts)
  | addIdle i => exact rises_of_size_slots_eq hw.sound rfl
  | removeIdle i => exact rises_of_size_slots_eq hw.sound rfl
  | quit safe => exact rises_of_size_slots_eq hw.sound (size_slots_quit q now safe)

theorem size_slots_scan {now : Time} {settled : Bool}
    (hd : (q.scan now settled).state.disposed = false) :
    (q.scan now settled).state.arena.slots.size = q.arena.slots.size := by
  have hsleep : ∀ timeout, (q.sleepOrIdle now settled timeout).state.disposed = false →
      (q.sleepOrIdle now settled timeout).state.arena.slots.size = q.arena.slots.size := by
    intro timeout hd
    rcases sleepOrIdle_cases q now settled timeout with
      ⟨_, hs⟩ | ⟨_, _, _, _, hs⟩ | ⟨_, _, hs⟩
    · rw [hs] at hd ⊢
      rcases dispose_cases q with ⟨_, he⟩ | ⟨_, he⟩
      · rw [he]
      · rw [he] at hd
        cases hd
    · rw [hs]
      rfl
    · rw [hs]
  unfold scan at hd ⊢
  by_cases hdisposed : q.disposed
  · rw [if_pos hdisposed]
  · rw [if_neg hdisposed] at hd ⊢
    cases he : q.eligible? with
    | none =>
      rw [he] at hd
      exact hsleep .indefinite hd
    | some place =>
      simp only [he] at hd ⊢
      by_cases hdue : now < (q.arena.get place.id).due
      · rw [if_pos hdue] at hd ⊢
        exact hsleep _ hd
      · rw [if_neg hdue]
        exact Arena.size_slots_unlink q.arena place

/-- **A turn makes a slot only for one more entry than there ever were.** -/
theorem WellFormed.rises_turn (h : q.WellFormed) (hd : (q.turn t).disposed = false) :
    q.Rises (q.turn t) := by
  have hw := turn_wellFormed h t
  cases t with
  | operate now op => exact rises_perform h now op
  | look now settled => exact rises_of_size_slots_eq hw.sound (size_slots_scan hd)
  | idle i outcome => cases outcome <;> exact rises_of_size_slots_eq hw.sound rfl
  | endPass => exact rises_of_size_slots_eq hw.sound rfl

/-! ### A run -/

/-- The numbers of entries that were pending at once at some time in a run: at its start, or after
some of its turns. -/
def levels (q : Queue) (ts : List Turn) : Set Nat :=
  {n | ∃ us, us <+: ts ∧ (q.turns us).pending.length = n}

theorem levels_nil (q : Queue) : q.levels [] = {q.pending.length} := by
  ext n
  simp [levels, turns, eq_comm]

theorem levels_concat (q : Queue) (ts : List Turn) (t : Turn) :
    q.levels (ts ++ [t]) = insert (q.turns (ts ++ [t])).pending.length (q.levels ts) := by
  ext n
  simp only [levels, List.prefix_concat_iff, Set.mem_insert_iff, Set.mem_ofPred_eq, or_and_right,
    exists_or, exists_eq_left]
  exact or_congr_left eq_comm

/-- **A queue that is not disposed of has as many slots as entries were ever pending at once.** -/
theorem isGreatest_levels {quittable : Bool} {ts : List Turn}
    (hd : (({ quittable } : Queue).turns ts).disposed = false) :
    IsGreatest (({ quittable } : Queue).levels ts)
      (({ quittable } : Queue).turns ts).arena.slots.size := by
  have hfresh := wellFormed_fresh quittable
  induction ts using List.reverseRecOn with
  | nil =>
    rw [levels_nil]
    exact isGreatest_singleton
  | append_singleton ts t ih =>
    have hw := turns_wellFormed hfresh ts
    have hturn : ({ quittable } : Queue).turns (ts ++ [t]) =
        (({ quittable } : Queue).turns ts).turn t := turns_append _ ts [t]
    have hbefore : (({ quittable } : Queue).turns ts).disposed = false := by
      by_contra hn
      rw [hturn, (hw.onward t).disposed (by simpa using hn)] at hd
      cases hd
    have hrises := hw.rises_turn (t := t) (hturn ▸ hd)
    have hsize := size_eq_length (turn_wellFormed hw t).sound
    rw [Rises, hsize, max_comm] at hrises
    rw [levels_concat, hturn, hrises]
    exact (ih hbefore).insert _

/-- **The arena is exactly as large as the high-water mark.**  Until a queue is disposed of, what is
pending and what is free are together as many as entries were ever pending at once in its run; from
then on nothing is pending and nothing is free.  A dump counts both, the free slots in 64 bits. -/
theorem slots_are_most_ever_pending (quittable : Bool) (ts : List Turn) :
    let start : Queue := { quittable }
    let q := start.turns ts
    (q.disposed = false →
      IsGreatest (start.levels ts) (q.pending.length + q.arena.free.length)) ∧
    (q.disposed = true → ∀ us, (q.turns us).pending = [] ∧ (q.turns us).arena.free = []) ∧
    ∀ now parked, (q.dump now parked).total = q.pending.length ∧
      (q.dump now parked).freeSlots = UInt64.ofNat q.arena.free.length := by
  intro start q
  have hfresh : start.WellFormed := wellFormed_fresh quittable
  have hw : q.WellFormed := turns_wellFormed hfresh ts
  refine ⟨fun hd => ?_, fun hd us => ?_, fun now parked => ⟨?_, rfl⟩⟩
  · rw [← size_eq_length hw.sound, size_add_free hw.sound]
    exact isGreatest_levels hd
  · obtain ⟨hs, hreleased⟩ := exists_released hd
    have hrest := hreleased.turns us
    exact ⟨hrest.pending, congrArg Arena.free hrest.arena⟩
  · simp [dump, Dump.total]

/-- Three entries are pending at once, then two and a free slot.  After a quit and its disposal
nothing is left, whatever is sent. -/
theorem slots_are_most_ever_pending_of_three :
    let news : Target := ⟨0, "news"⟩
    let ts : List Turn := [.operate 1 (.enqueue (.coded news 1) 5), .operate 1 (.postBarrier 3),
      .operate 2 (.enqueue (.coded news 2) 0), .operate 2 (.removeBarrier 0), .look 6 false,
      .operate 6 (.enqueue (.coded news 3) 7)]
    let us : List Turn := [.operate 6 (.quit true), .look 6 false, .look 7 false]
    ((({} : Queue).turns ts).pending.map Message.what = [1, 3] ∧
      (({} : Queue).turns ts).arena.free.length = 1 ∧ IsGreatest (({} : Queue).levels ts) 3) ∧
    (({} : Queue).turns (ts ++ us)).disposed = true ∧
      ∀ vs, ((({} : Queue).turns (ts ++ us)).turns vs).pending = [] ∧
        ((({} : Queue).turns (ts ++ us)).turns vs).arena.free = [] := by
  intro news ts us
  have hwhat : (({} : Queue).turns ts).pending.map Message.what = [1, 3] := by decide +kernel
  have hfree : (({} : Queue).turns ts).arena.free.length = 1 := by decide +kernel
  have hlength : (({} : Queue).turns ts).pending.length = 2 := by
    rw [← List.length_map (f := Message.what), hwhat]
    rfl
  have hlive : (({} : Queue).turns ts).disposed = false := by decide +kernel
  have hgone : (({} : Queue).turns (ts ++ us)).disposed = true := by decide +kernel
  have hhigh : IsGreatest (({} : Queue).levels ts)
      ((({} : Queue).turns ts).pending.length + (({} : Queue).turns ts).arena.free.length) :=
    (slots_are_most_ever_pending true ts).1 hlive
  rw [hlength, hfree] at hhigh
  exact ⟨⟨hwhat, hfree, hhigh⟩, hgone, (slots_are_most_ever_pending true (ts ++ us)).2.1 hgone⟩

end Agenda.Queue
