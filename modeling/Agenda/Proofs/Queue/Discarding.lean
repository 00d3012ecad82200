import Agenda.Proofs.Queue.Quitting

/-!
# What a quit discards

A safe quit walks along the chain to the first message that is not due and cuts there, so it keeps a
front part of the list; that this is all that is due, and nothing else, follows from the order of
the list (`pending_discard`).  What is cut off goes back to the free list, slot by slot, and no slot
is lost on the way: the slots in use and the free ones are as many as before, as each kind of cut
leaves the slots as many as they were (`size_slots_discard`).
-/

namespace Agenda.Queue

variable {q : Queue}

/-- What a quit takes out: the number of messages, and the arena that is left. -/
def discard (q : Queue) (now : Time) (safe : Bool) : Nat × Arena :=
  if safe then q.dropFuture now else q.arena.clear

theorem quit_eq_discard (hquittable : q.quittable = true) (hq : q.quitting = false) (now : Time)
    (safe : Bool) : q.quit now safe =
      ⟨{ q with arena := (q.discard now safe).2, quitting := true }, .ok (), true,
        [.quitting safe (q.discard now safe).1 (q.discard now safe).2.size]⟩ := by
  simp only [quit, hquittable, hq, Bool.not_true, Bool.false_eq_true, ↓reduceIte]
  rfl

theorem size_eq_length (h : q.arena.Sound) : q.size = q.pending.length := by
  obtain ⟨cells, h⟩ := h
  rw [size, h.size, List.append_nil, pending, h.toList_eq, List.length_map]

theorem size_slots_dropFuture (q : Queue) (now : Time) :
    (q.dropFuture now).2.slots.size = q.arena.slots.size := by
  unfold dropFuture
  split
  · rfl
  · split
    · exact Arena.size_slots_clear q.arena
    · exact Arena.size_slots_truncateAfter q.arena _

theorem size_slots_discard (q : Queue) (now : Time) (safe : Bool) :
    (q.discard now safe).2.slots.size = q.arena.slots.size := by
  cases safe with
  | true => exact size_slots_dropFuture q now
  | false => exact Arena.size_slots_clear q.arena

theorem discard_add_size (h : q.arena.Sound) (now : Time) (safe : Bool) :
    (q.discard now safe).1 + (q.discard now safe).2.size = q.size := by
  obtain ⟨cells, h⟩ := h
  have hsize : q.size = cells.length := by rw [size, h.size, List.append_nil]
  cases safe with
  | true =>
    obtain ⟨hn, hkept⟩ := dropFuture_holds h now
    have hcut : (cells.takeWhile (·.2.due ≤ now)).length +
        (cells.dropWhile (·.2.due ≤ now)).length = cells.length := by
      rw [← List.length_append, List.takeWhile_append_dropWhile]
    rw [discard, if_pos rfl, hn, hkept.size, List.append_nil, hsize, Nat.add_comm, hcut]
  | false =>
    obtain ⟨hn, hkept⟩ := h.clear
    rw [discard, if_neg (by decide), hn, hkept.size, hsize]
    rfl

/-- **A safe quit keeps what is due**, although it looks no further than the first that is not, and
any other quit keeps nothing. -/
theorem pending_discard (h : q.WellFormed) (now : Time) (safe : Bool) :
    (q.discard now safe).2.toList = if safe then Timeline.due now q.pending else [] := by
  cases safe with
  | true =>
    rw [if_pos rfl, ← Timeline.takeWhile_eq_due h.orderly.ascending]
    exact (dropFuture_spec h.sound now).2
  | false =>
    obtain ⟨cells, h⟩ := h.sound
    exact h.clear.2.toList_eq

theorem size_add_free (h : q.arena.Sound) : q.size + q.arena.free.length = q.arena.slots.size := by
  obtain ⟨cells, h⟩ := h
  exact h.size_add_free

/-- **What a quit discards.**  A queue that some run reaches may quit, and has not yet.  Told to
quit safely it keeps all that is due, messages and barriers, in their order, and told to quit
otherwise it keeps nothing; the rest is counted, and its slots are free.  The queue is marked as
quitting, nothing else of it changes, and the consumer is woken.  Whatever happens later, a quit of
either kind then discards nothing and wakes nobody. -/
theorem quit_discards (h : q.Reachable) (hquittable : q.quittable = true)
    (hq : q.quitting = false) (now : Time) (safe : Bool) :
    let p := (q.quit now safe).state
    p.pending = (if safe then Timeline.due now q.pending else []) ∧
    p = { q with arena := p.arena, quitting := true } ∧
    p.size + p.arena.free.length = q.size + q.arena.free.length ∧
    (p.size = p.pending.length ∧ q.size = q.pending.length) ∧
    ((q.quit now safe).value = .ok () ∧ (q.quit now safe).wakes = true ∧
      (q.quit now safe).notices = [.quitting safe (q.size - p.size) p.size]) ∧
    ∀ (ts : List Turn) (again : Time) (safely : Bool),
      (p.turns ts).quit again safely = ⟨p.turns ts, .ok (), false, []⟩ := by
  have hw := h.wellFormed
  have he := quit_eq_discard hquittable hq now safe
  intro p
  have hp : p = { q with arena := (q.discard now safe).2, quitting := true } :=
    congrArg Reply.state he
  have hpw : p.WellFormed := hw.quit now safe
  have hcount : (q.discard now safe).1 + p.size = q.size := by
    rw [hp]
    exact discard_add_size hw.sound now safe
  refine ⟨?_, ?_, ?_, ⟨size_eq_length hpw.sound, size_eq_length hw.sound⟩, ?_, ?_⟩
  · rw [hp]
    exact pending_discard hw now safe
  · rw [hp]
  · rw [size_add_free hpw.sound, size_add_free hw.sound, hp]
    exact size_slots_discard q now safe
  · rw [← hcount, Nat.add_sub_cancel, hp, he]
    exact ⟨rfl, rfl, rfl⟩
  · intro ts again safely
    have hquittable' : p.quittable = true := by rw [hp]; exact hquittable
    have hquitting : p.quitting = true := by rw [hp]
    exact quit_again ((quittable_turns hpw ts).trans hquittable') (quitting_turns hpw hquitting ts)
      again safely

/-- One message is for the front, two entries are due at the reading itself, and a slot is free;
once the message for the front is taken, nothing is due at an earlier reading. -/
theorem quit_discards_what_is_not_due :
    let news : Target := ⟨0, "news"⟩
    let ts : List Turn := [.operate 1 (.enqueue (.coded news 1) 9),
      .operate 1 (.enqueue (.coded news 2) 5), .operate 2 (.postBarrier 5),
      .operate 2 (.enqueue (.coded news 3) 6), .operate 3 (.enqueue (.coded news 4) 0),
      .operate 3 (.remove { target := news, selector := .what 3 })]
    let q := ({} : Queue).turns ts
    q.Reachable ∧ q.pending.map Message.due = [0, 5, 5, 9] ∧ q.arena.free = [3] ∧
      ((q.quit 5 true).state.pending.map Message.due = [0, 5, 5] ∧
        (q.quit 5 true).notices = [.quitting true 1 3] ∧
        (q.quit 5 true).state.arena.free.length = 2) ∧
      (q.quit 9 true).state.pending = q.pending ∧ (q.quit 9 false).state.pending = [] ∧
      ((q.turns [.look 4 true]).quit 4 true).state.pending = [] ∧
      ((q.quit 5 true).state.turns [.look 5 true]).quit 6 false =
        ⟨(q.quit 5 true).state.turns [.look 5 true], .ok (), false, []⟩ := by
  intro news ts q
  have hreach : q.Reachable := ⟨true, ts, rfl⟩
  have hpending : q.pending.map Message.due = [0, 5, 5, 9] := by decide +kernel
  have hfree : q.arena.free = [3] := by decide +kernel
  have hquittable : q.quittable = true := by decide +kernel
  have hq : q.quitting = false := by decide +kernel
  obtain ⟨hkept, _, hslots, ⟨hsize, hbefore⟩, ⟨_, _, hnotice⟩, hagain⟩ :=
    quit_discards hreach hquittable hq 5 true
  have hdue : (q.quit 5 true).state.pending.map Message.due = [0, 5, 5] := by
    rw [hkept]
    decide +kernel
  have hlength : (q.quit 5 true).state.size = 3 := by
    rw [hsize, ← List.length_map (f := Message.due), hdue]
    rfl
  have hlength' : q.size = 4 := by
    rw [hbefore, ← List.length_map (f := Message.due), hpending]
    rfl
  rw [hlength, hlength', hfree] at hslots
  rw [hlength, hlength'] at hnotice
  refine ⟨hreach, hpending, hfree, ⟨hdue, hnotice, ?_⟩, ?_, ?_, ?_, hagain [.look 5 true] 6 false⟩
  · exact Nat.add_left_cancel hslots
  · rw [(quit_discards hreach hquittable hq 9 true).1]
    decide +kernel
  · exact (quit_discards hreach hquittable hq 9 false).1
  · rw [(quit_discards (hreach.turns [.look 4 true]) (by decide +kernel) (by decide +kernel) 4
      true).1]
    decide +kernel

end Agenda.Queue
