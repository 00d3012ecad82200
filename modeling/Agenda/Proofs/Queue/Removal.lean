import Agenda.Proofs.Queue.Runs

/-!
# Removal by a filter

A removal walks along the chain once and takes out what a filter accepts, while it stands on it.
What comes of it is told by the list alone: what is not accepted stays, in its order, and nothing
else of the queue is touched.  `Filter.accepts_iff` says what is accepted.

`remove_order` says it of the slots of the chain: those that stay keep their messages.  On this rest
the statements on two removals, one after the other, since filters of a list commute.
-/

namespace Agenda

/-- What a filter is for: a message for its target, with its code or its callback and its object, as
far as it asks for them. -/
structure Filter.Takes (f : Filter) (m : Message) : Prop where
  target : ∃ target, m.target = some target ∧ target.id = f.target.id
  code : ∀ what, f.selector = .what what → m.what = what
  callback : ∀ callback, f.selector = .callback callback → m.callback = some callback
  payload : ∀ object, f.payload = some object → m.payload = some object

theorem Selector.accepts_iff (s : Selector) (m : Message) : s.accepts m = true ↔
    (∀ what, s = .what what → m.what = what) ∧
      ∀ callback, s = .callback callback → m.callback = some callback := by
  cases s <;> simp [accepts]

theorem Filter.accepts_iff (f : Filter) (m : Message) : f.accepts m = true ↔ f.Takes m := by
  have htarget : (m.target.any fun target => target.id == f.target.id) = true ↔
      ∃ target, m.target = some target ∧ target.id = f.target.id := by
    cases m.target <;> simp
  have hpayload : (f.payload.isNone || m.payload == f.payload) = true ↔
      ∀ object, f.payload = some object → m.payload = some object := by
    cases f.payload <;> simp
  rw [accepts, Bool.and_eq_true, Bool.and_eq_true, htarget, hpayload, Selector.accepts_iff]
  constructor
  · rintro ⟨⟨ht, hcode, hcallback⟩, hp⟩
    exact ⟨ht, hcode, hcallback, hp⟩
  · rintro ⟨ht, hcode, hcallback, hp⟩
    exact ⟨⟨ht, hcode, hcallback⟩, hp⟩

namespace Queue

variable {q : Queue}

theorem remove_order (h : q.arena.Sound) (f : Filter) :
    (q.remove f).state.arena.order =
        q.arena.order.filter (fun id => !f.accepts (q.arena.get id)) ∧
      ∀ id ∈ (q.remove f).state.arena.order,
        (q.remove f).state.arena.get id = q.arena.get id := by
  obtain ⟨cells, h⟩ := h
  have hkept : (q.remove f).state.arena.Holds (cells.filter (!f.accepts ·.2)) [] :=
    (h.removeIf f.accepts).2
  rw [hkept.order_eq]
  refine ⟨?_, ?_⟩
  · rw [h.order_eq, List.filter_map]
    refine congrArg _ (List.filter_congr fun c hc => ?_)
    rw [Function.comp_apply, h.get_eq hc]
  · intro id hid
    obtain ⟨c, hc, rfl⟩ := List.mem_map.mp hid
    rw [hkept.get_eq hc, h.get_eq (List.mem_of_mem_filter hc)]

theorem remove_remove_order (h : q.WellFormed) (f g : Filter) :
    ((q.remove f).state.remove g).state.arena.order = q.arena.order.filter
      (fun id => !f.accepts (q.arena.get id) && !g.accepts (q.arena.get id)) := by
  obtain ⟨hf, hget⟩ := remove_order h.sound f
  rw [(remove_order (h.remove f).sound g).1, List.filter_congr fun id hid => by rw [hget id hid],
    hf, List.filter_filter]
  exact List.filter_congr fun id _ => Bool.and_comm _ _

/-- **A removal is a filter, and agrees with the question.**  Of a queue that some run reaches, a
filter takes out all that it is for, and counts it; the rest stays in its slots, in its order, all
barriers included; nothing else of the queue changes and nobody is woken.  It is answered that there
is such a message exactly if a removal would count one.  The same removal again counts nothing, and
two removals leave the same chain in either order. -/
theorem removal_is_filtering (h : q.Reachable) (f g : Filter) :
    (∀ m, f.accepts m = true ↔ f.Takes m) ∧
    (q.has f = true ↔ 0 < (q.remove f).value) ∧
    ((q.remove f).value = q.pending.countP f.accepts ∧
      (q.remove f).state.pending = q.pending.filter (!f.accepts ·) ∧
      (q.remove f).state.pending.filter (·.isBarrier) = q.pending.filter (·.isBarrier) ∧
      (q.remove f).state.arena.order =
        q.arena.order.filter (fun id => !f.accepts (q.arena.get id)) ∧
      (q.remove f).state = { q with arena := (q.remove f).state.arena } ∧
      (q.remove f).wakes = false) ∧
    ((q.remove f).state.remove f).value = 0 ∧
    ((q.remove f).state.remove g).state.pending = ((q.remove g).state.remove f).state.pending ∧
    ((q.remove f).state.remove g).state.arena.order =
      ((q.remove g).state.remove f).state.arena.order := by
  have hw := h.wellFormed
  have hpending := pending_remove hw.sound f
  have hvalue := remove_value hw.sound f
  have horder := (remove_order hw.sound f).1
  refine ⟨f.accepts_iff, ?_, ⟨hvalue, hpending, ?_, horder, rfl, rfl⟩, ?_, ?_, ?_⟩
  · rw [hvalue, List.countP_pos_iff, has, List.any_eq_true]
  · rw [hpending, List.filter_filter]
    refine List.filter_congr fun m _ => ?_
    cases hb : m.isBarrier with
    | false => rfl
    | true => rw [accepts_of_isBarrier f hb]; rfl
  · rw [remove_value (hw.remove f).sound, hpending, List.countP_filter]
    exact List.countP_eq_zero.mpr fun m _ => by simp
  · rw [pending_remove (hw.remove f).sound, pending_remove (hw.remove g).sound, hpending,
      pending_remove hw.sound, List.filter_comm]
  · rw [remove_remove_order hw, remove_remove_order hw]
    exact List.filter_congr fun id _ => Bool.and_comm _ _

/-- What is taken out stands at the head, on both sides of a barrier, and at the end, in runs; the
two filters take one message both. -/
theorem removal_is_filtering_in_runs :
    let news : Target := ⟨0, "news"⟩
    let sport : Target := ⟨1, "sport"⟩
    let mail : Message := { Message.coded news 1 with payload := some 4 }
    let ts : List Turn := [.operate 0 (.enqueue (.coded news 1) 1),
      .operate 0 (.enqueue (.coded news 1) 2), .operate 0 (.enqueue (.coded news 2) 2),
      .operate 0 (.postBarrier 3), .operate 0 (.enqueue (.coded news 1) 4),
      .operate 0 (.enqueue (.coded sport 1) 5), .operate 0 (.enqueue mail 6),
      .operate 0 (.enqueue { mail with what := 3 } 6), .operate 0 (.enqueue mail 7)]
    let f : Filter := { target := news, selector := .what 1 }
    let g : Filter := { target := news, payload := some 4 }
    let q := ({} : Queue).turns ts
    q.Reachable ∧ q.arena.order = [0, 1, 2, 3, 4, 5, 6, 7, 8] ∧
      ((q.remove f).value = 5 ∧ q.has f = true ∧
        (q.remove f).state.arena.order = [2, 3, 5, 7]) ∧
      ((q.remove f).state.remove f).value = 0 ∧
      ((q.remove f).state.remove g).value = 1 ∧ ((q.remove g).state.remove f).value = 3 ∧
      ((q.remove f).state.remove g).state.pending =
        ((q.remove g).state.remove f).state.pending := by
  intro news sport mail ts f g q
  have hreach : q.Reachable := ⟨true, ts, rfl⟩
  obtain ⟨_, hhas, ⟨_, _, _, horder, _⟩, hagain, hcomm, _⟩ := removal_is_filtering hreach f g
  have hlinked : q.arena.order = [0, 1, 2, 3, 4, 5, 6, 7, 8] := by decide +kernel
  have hcount : (q.remove f).value = 5 := by decide +kernel
  have hsecond : ((q.remove f).state.remove g).value = 1 := by decide +kernel
  have hsecond' : ((q.remove g).state.remove f).value = 3 := by decide +kernel
  refine ⟨hreach, hlinked, ⟨hcount, hhas.mpr ?_, ?_⟩, hagain, hsecond, hsecond', hcomm⟩
  · rw [hcount]
    decide
  · rw [horder]
    decide +kernel

end Queue

end Agenda
