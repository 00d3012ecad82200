import Agenda.Proofs.Queue.Runs

/-!
# Which message wakes the consumer

A message that is sent wakes a consumer that may be asleep if and only if the consumer would take it
next.  The two are found out by different walks: the one that looks for the place of the message,
and gives up waking on its way, and the one by which the consumer looks for what it may take, on the
list that the message has joined.  Both walks see numbered slots, and the list may hold the same
content twice, so the statement is on slots.

`eligible?_id_iff` reads the second walk: it ends at a slot if and only if what is in it may run
where it stands.  `link_wakes` reads the first one in the same words.
-/

namespace Agenda.Queue

open Arena (Cell)
open Timeline (MayRun Orderly before)

variable {q : Queue} {m : Message} {due : Time} {xs ys : List Cell} {c : Cell}

theorem eligible?_id_iff (h : q.arena.Holds (xs ++ c :: ys) [])
    (ho : Orderly ((xs ++ c :: ys).map Prod.snd)) :
    q.eligible?.map Place.id = some c.1 ↔ MayRun (xs.map Prod.snd) c.2 := by
  constructor
  · intro he
    obtain ⟨place, hplace, hid⟩ := Option.map_eq_some_iff.mp he
    obtain ⟨xs', c', ys', hsplit, rfl, hrun⟩ := eligible?_place h ho hplace
    -- one slot has one place in the list
    have hnodup := h.nodup
    rw [List.append_nil, List.map_append, List.map_cons, List.nodup_middle, List.nodup_cons,
      List.mem_append, not_or] at hnodup
    have hid' : c'.1 = c.1 := hid
    have hxs : c' ∉ xs := fun hmem => hnodup.1.1 (hid' ▸ List.mem_map_of_mem hmem)
    have hys : c' ∉ ys := fun hmem => hnodup.1.2 (hid' ▸ List.mem_map_of_mem hmem)
    obtain ⟨rfl, rfl, _⟩ := (List.append_cons_inj_of_notMem hxs hys).mp hsplit
    exact hrun
  · intro hrun
    have hp : q.pending = (xs ++ c :: ys).map Prod.snd := h.toList_eq
    have hnext : Timeline.eligible? q.pending = some c.2 := by
      rw [hp]
      refine (Timeline.eligible?_eq_some ho).mpr ⟨xs.map Prod.snd, ys.map Prod.snd, ?_, hrun⟩
      rw [List.map_append, List.map_cons]
    rw [← eligible?_get ⟨_, h⟩] at hnext
    obtain ⟨place, hplace, _⟩ := Option.map_eq_some_iff.mp hnext
    obtain ⟨xs', c', ys', hsplit, rfl, hrun'⟩ := eligible?_place h ho hplace
    -- at most one entry may run, so the places are as far from the head
    have hlists : xs.map Prod.snd ++ c.2 :: ys.map Prod.snd =
        xs'.map Prod.snd ++ c'.2 :: ys'.map Prod.snd := by
      rw [← List.map_cons, ← List.map_cons, ← List.map_append, ← List.map_append, hsplit]
    have hlength : xs.length = xs'.length := by
      simpa using congrArg List.length (hrun.unique hrun' hlists).1
    obtain ⟨_, hrest⟩ := List.append_inj hsplit hlength
    obtain ⟨rfl, _⟩ := List.cons.inj hrest
    rw [hplace]
    rfl

theorem link_order (h : q.arena.Sound) (m : Message) :
    ∃ ahead rest, q.arena.order = ahead ++ rest ∧ q.arena.fresh ∉ q.arena.order ∧
      (q.link m).1.arena.order = ahead ++ q.arena.fresh :: rest ∧
      (q.link m).1.arena.get q.arena.fresh = m := by
  obtain ⟨cells, h⟩ := h
  obtain ⟨xs, ys, rfl, hl⟩ := exists_linking h m
  obtain ⟨arena, he, ha⟩ := hl.state
  have hfresh := h.fresh_notMem
  rw [List.append_nil] at hfresh
  rw [he]
  refine ⟨xs.map Prod.fst, ys.map Prod.fst, ?_, ?_, ?_, ?_⟩
  · rw [h.order_eq, List.map_append]
  · rwa [h.order_eq]
  · show arena.order = _
    rw [ha.order_eq, List.map_append, List.map_cons]
  · exact ha.get_eq (List.mem_append_right xs List.mem_cons_self)

theorem link_wakes_iff_next (h : q.WellFormed) (hq : q.quitting = false) (hm : m.isBarrier = false)
    (huse : m.inUse = true) : (q.link m).2 = true ↔
      q.blocked = true ∧ (q.link m).1.eligible?.map Place.id = some q.arena.fresh := by
  have hsync : m.isBarrier = true → m.async = false := by
    rw [hm]
    exact nofun
  have horderly := (h.link hq hsync huse).orderly
  obtain ⟨cells, hcells⟩ := h.sound
  obtain ⟨xs, ys, rfl, hl⟩ := exists_linking hcells m
  obtain ⟨arena, he, ha⟩ := hl.state
  have hp : q.pending = (xs ++ ys).map Prod.snd := hcells.toList_eq
  have hp' : (q.link m).1.pending = (xs ++ (q.arena.fresh, m) :: ys).map Prod.snd := by
    rw [he]
    exact ha.toList_eq
  have hplace : (q.link m).1.eligible?.map Place.id = some q.arena.fresh ↔
      MayRun (xs.map Prod.snd) m := eligible?_id_iff (he ▸ ha) (hp' ▸ horderly)
  rw [hplace, link_wakes ⟨_, hcells⟩ h.orderly.barrierSync hm, hl.due_before, hp]

/-- **A message that is taken wakes the consumer if and only if it is next.**  It has joined the
list in a slot that was not in it, with the content and the due-time that it was sent with; the
consumer is notified, once, exactly if it may be asleep and would now choose that slot.  A barrier
never wakes anybody. -/
theorem enqueue_wakes_iff_next (h : q.Reachable) (hok : (q.enqueue m due).value = .ok true) :
    (∃ ahead rest, q.arena.order = ahead ++ rest ∧ q.arena.fresh ∉ q.arena.order ∧
      (q.enqueue m due).state.arena.order = ahead ++ q.arena.fresh :: rest ∧
      (q.enqueue m due).state.arena.get q.arena.fresh = { m with inUse := true, due }) ∧
    ((q.enqueue m due).wakes = true ↔
      q.blocked = true ∧ (q.enqueue m due).state.eligible?.map Place.id = some q.arena.fresh) ∧
    ∀ due', (q.postBarrier due').wakes = false := by
  have hw := h.wellFormed
  have hbarrier : ∀ due', (q.postBarrier due').wakes = false := by
    intro due'
    rcases postBarrier_cases q due' with ⟨_, _, _, hwakes⟩ | ⟨_, _, _, hwakes⟩ <;> exact hwakes
  rcases enqueue_cases q m due with ⟨hno, _⟩ | ⟨_, hm, _, hq, hs, hwakes⟩
  · exact absurd hok hno
  · rw [hs, hwakes]
    exact ⟨link_order hw.sound _, link_wakes_iff_next hw hq hm rfl, hbarrier⟩

/-- A barrier stalls the queue, with a synchronous message behind it. An asynchronous message that
is sent is next, and wakes the consumer; a synchronous one is not, and does not. -/
theorem enqueue_wakes_iff_next_behind_barrier :
    let news : Message := { target := some ⟨0, "news"⟩ }
    let late : Message := { news with async := true }
    let q := ({} : Queue).turns [.operate 4 (.postBarrier 5), .operate 4 (.enqueue news 6),
      .look 9 false]
    q.Reachable ∧ q.blocked = true ∧ q.arena.fresh = 2 ∧
      ((q.enqueue late 7).value = .ok true ∧
        (q.enqueue late 7).state.eligible?.map Place.id = some 2 ∧
        (q.enqueue late 7).wakes = true) ∧
      ((q.enqueue news 7).value = .ok true ∧
        (q.enqueue news 7).state.eligible?.map Place.id = none ∧
        (q.enqueue news 7).wakes = false) := by
  intro news late q
  have hreach : q.Reachable := ⟨true, _, rfl⟩
  have hlate : (q.enqueue late 7).value = .ok true := by decide +kernel
  have hnews : (q.enqueue news 7).value = .ok true := by decide +kernel
  have hnext : (q.enqueue late 7).state.eligible?.map Place.id = some 2 := by decide +kernel
  have hnone : (q.enqueue news 7).state.eligible?.map Place.id = none := by decide +kernel
  obtain ⟨_, hwakes, _⟩ := enqueue_wakes_iff_next hreach hlate
  obtain ⟨_, hrests, _⟩ := enqueue_wakes_iff_next hreach hnews
  refine ⟨hreach, by decide +kernel, by decide +kernel, ⟨hlate, hnext, ?_⟩, hnews, hnone, ?_⟩
  · exact hwakes.mpr ⟨by decide +kernel, hnext⟩
  · by_contra hk
    have hchosen := (hrests.mp (by simpa using hk)).2
    rw [hnone] at hchosen
    cases hchosen

end Agenda.Queue
