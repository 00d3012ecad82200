import Agenda.Operation
import Agenda.Proofs.Arena.Edits
import Agenda.Proofs.Timeline

/-!
# What producers do to the pending list

One statement for each operation of `Queue`: how it may end, which fields it leaves alone, and what
becomes of the pending list.  Slots appear only in `Linking`, which says where a new message is
linked; from then on a queue is its list.

* `link_spec`, `link_wakes`: the list is `Timeline.insert`, and a message wakes a blocked consumer
  if and only if it may run at its place.
* `enqueue_cases`, `postBarrier_cases`, `removeBarrier_cases`, `remove_spec`, `quit_cases`: either
  nothing has changed, or this has.
-/

namespace Agenda

/-- No number in the arena is stale. -/
def Arena.Sound (a : Arena) : Prop :=
  ∃ cells, a.Holds cells []

theorem Arena.sound_empty : Arena.Sound {} :=
  ⟨[], Arena.holds_empty⟩

namespace Queue

open Arena (Cell)
open Timeline (MayRun before behind)

variable {q : Queue} {m : Message} {cells : List Cell}

/-! ### Walking to a due position -/

theorem walk_fst (a : Arena) (t : Time) (prev : Nat) (wake : Bool) (ids : List Nat) :
    (walk a t prev wake ids).1 = lastDue a t prev ids := by
  induction ids generalizing prev wake with
  | nil => rfl
  | cons id ids ih =>
    rw [walk, lastDue]
    split
    · rfl
    · exact ih id _

theorem lastDue_eq {a : Arena} (hget : ∀ c ∈ cells, a.get c.1 = c.2) (t : Time) (c₀ : Cell) :
    ∃ xs c, c₀ :: cells.takeWhile (·.2.due ≤ t) = xs ++ [c] ∧
      lastDue a t c₀.1 (cells.map Prod.fst) = c.1 := by
  induction cells generalizing c₀ with
  | nil => exact ⟨[], c₀, rfl, rfl⟩
  | cons c cells ih =>
    have hc := hget c List.mem_cons_self
    rw [List.map_cons, lastDue, hc]
    by_cases hd : c.2.due ≤ t
    · obtain ⟨xs, d, he, hl⟩ := ih (fun d hd => hget d (List.mem_cons_of_mem c hd)) c
      refine ⟨c₀ :: xs, d, ?_, ?_⟩
      · rw [List.takeWhile_cons_of_pos (by simpa using hd), he, List.cons_append]
      · rw [if_neg (UInt64.not_lt.mpr hd), hl]
    · refine ⟨[], c₀, ?_, ?_⟩
      · rw [List.takeWhile_cons_of_neg (by simpa using hd), List.nil_append]
      · rw [if_pos (UInt64.not_le.mp hd)]

theorem walk_snd {a : Arena} (hget : ∀ c ∈ cells, a.get c.1 = c.2) (t : Time) (prev : Nat)
    (wake : Bool) : (walk a t prev wake (cells.map Prod.fst)).2 =
      (wake && (cells.takeWhile (·.2.due ≤ t)).all (!·.2.async)) := by
  induction cells generalizing prev wake with
  | nil => simp [walk]
  | cons c cells ih =>
    have hc := hget c List.mem_cons_self
    rw [List.map_cons, walk, hc]
    by_cases hd : c.2.due ≤ t
    · rw [if_neg (UInt64.not_lt.mpr hd), ih fun d hd => hget d (List.mem_cons_of_mem c hd),
        List.takeWhile_cons_of_pos (by simpa using hd), List.all_cons, Bool.and_assoc]
    · rw [if_pos (UInt64.not_le.mp hd), List.takeWhile_cons_of_neg (by simpa using hd),
        List.all_nil, Bool.and_true]

/-! ### Linking -/

/-- How a message is linked: between `xs` and `ys`, in the fresh slot, with this answer. -/
structure Linking (q : Queue) (m : Message) (xs ys : List Cell) : Prop where
  due_before : xs.map Prod.snd = before m ((xs ++ ys).map Prod.snd)
  state : ∃ arena, (q.link m).1 = { q with arena } ∧ arena.Holds (xs ++ (q.arena.fresh, m) :: ys) []
  wakes : (q.link m).2 = true ↔ q.blocked = true ∧ (xs = [] ∨
    (∃ head ∈ xs.head?, head.2.isBarrier = true) ∧ m.async = true ∧
      ∀ x ∈ xs.tail, x.2.async = false)

theorem linking_front (h : q.arena.Holds cells []) (hm : q.headBefore? m.due = none)
    (hb : before m (cells.map Prod.snd) = []) : q.Linking m [] cells := by
  have hl : q.link m = ({ q with arena := q.arena.pushFront m }, q.blocked) := by rw [link, hm]
  refine ⟨hb.symm, ⟨_, by rw [hl], h.pushFront m⟩, ?_⟩
  simp [hl]

theorem linking_behind {c : Cell} (h : q.arena.Holds (c :: cells) []) (hz : m.due ≠ 0)
    (hc : c.2.due ≤ m.due) : q.Linking m (c :: cells.takeWhile (·.2.due ≤ m.due))
      (cells.dropWhile (·.2.due ≤ m.due)) := by
  have hget : ∀ d ∈ c :: cells, q.arena.get d.1 = d.2 := fun d hd => h.get_eq hd
  have hget' : ∀ d ∈ cells, q.arena.get d.1 = d.2 := fun d hd => hget d (List.mem_cons_of_mem c hd)
  have hhead : q.headBefore? m.due = some c.1 := by
    rw [headBefore?, h.head_eq, List.head?_cons, Option.map_some, Option.filter_some,
      hget c List.mem_cons_self, if_pos (by simp [hz, hc])]
  have hafter : q.arena.orderAfter c.1 = cells.map Prod.fst := h.orderAfter_eq []
  obtain ⟨xs, d, he, hlast⟩ := lastDue_eq hget' m.due c
  have hcells : c :: cells = xs ++ d :: cells.dropWhile (·.2.due ≤ m.due) := by
    rw [List.append_cons, ← he, List.cons_append, List.takeWhile_append_dropWhile]
  -- one walk finds both the slot and the answer; each is read by a lemma of its own
  have hlink : q.link m = ({ q with arena := q.arena.insertAfter d.1 m },
      q.blocked && m.async && c.2.isBarrier &&
        (cells.takeWhile (·.2.due ≤ m.due)).all (!·.2.async)) := by
    simp only [link, hhead, hafter, hget c List.mem_cons_self]
    rw [← hlast, ← walk_fst _ _ _ (q.blocked && m.async && c.2.isBarrier),
      ← walk_snd hget' m.due c.1]
  refine ⟨?_, ⟨_, by rw [hlink], ?_⟩, ?_⟩
  · rw [List.cons_append, List.takeWhile_append_dropWhile, before, if_neg hz, List.map_cons,
      List.map_cons, List.takeWhile_cons_of_pos (by simpa using hc), List.takeWhile_map]
    rfl
  · rw [he, List.append_assoc, List.singleton_append]
    exact (hcells ▸ h).insertAfter m
  · rw [hlink]
    simp only [Bool.and_eq_true, List.all_eq_true, Bool.not_eq_true', reduceCtorEq, false_or,
      List.head?_cons, Option.mem_some_iff, exists_eq_left', List.tail_cons]
    constructor
    · rintro ⟨⟨⟨hb, ha⟩, hh⟩, hall⟩
      exact ⟨hb, hh, ha, hall⟩
    · rintro ⟨hb, hh, ha, hall⟩
      exact ⟨⟨⟨hb, ha⟩, hh⟩, hall⟩

/-- **A message is linked at its due position.** -/
theorem exists_linking (h : q.arena.Holds cells []) (m : Message) :
    ∃ xs ys, cells = xs ++ ys ∧ q.Linking m xs ys := by
  cases cells with
  | nil =>
    refine ⟨[], [], rfl, linking_front h ?_ ?_⟩
    · rw [headBefore?, h.head_eq]
      rfl
    · rw [before]
      split <;> rfl
  | cons c cells =>
    have hget : q.arena.get c.1 = c.2 := h.get_eq List.mem_cons_self
    by_cases hm : m.due ≠ 0 ∧ c.2.due ≤ m.due
    · refine ⟨_, _, ?_, linking_behind h hm.1 hm.2⟩
      rw [List.cons_append, List.takeWhile_append_dropWhile]
    · refine ⟨[], c :: cells, rfl, linking_front h ?_ ?_⟩
      · rw [headBefore?, h.head_eq, List.head?_cons, Option.map_some, Option.filter_some, hget,
          if_neg (by simpa using hm)]
      · rw [before]
        split
        · rfl
        · rename_i hz
          rw [List.map_cons, List.takeWhile_cons_of_neg (by simpa using fun hc => hm ⟨hz, hc⟩)]

theorem Linking.toList {xs ys : List Cell} (h : q.arena.Holds (xs ++ ys) [])
    (hl : q.Linking m xs ys) :
    (xs ++ (q.arena.fresh, m) :: ys).map Prod.snd = Timeline.insert m q.pending := by
  have hp : q.pending = (xs ++ ys).map Prod.snd := h.toList_eq
  have hxs := hl.due_before
  have hys : ys.map Prod.snd = behind m ((xs ++ ys).map Prod.snd) := by
    have he := Timeline.before_append_behind m ((xs ++ ys).map Prod.snd)
    rw [← hxs] at he
    exact (List.append_cancel_left (he.trans List.map_append)).symm
  rw [Timeline.insert_eq, hp, ← hxs, ← hys, List.map_append, List.map_cons]

theorem link_spec (h : q.arena.Sound) (m : Message) : ∃ arena, (q.link m).1 = { q with arena } ∧
    arena.Sound ∧ arena.toList = Timeline.insert m q.pending := by
  obtain ⟨cells, h⟩ := h
  obtain ⟨xs, ys, rfl, hl⟩ := exists_linking h m
  obtain ⟨arena, he, ha⟩ := hl.state
  exact ⟨arena, he, ⟨_, ha⟩, ha.toList_eq.trans (hl.toList h)⟩

theorem link_pending (h : q.arena.Sound) (m : Message) :
    (q.link m).1.pending = Timeline.insert m q.pending := by
  obtain ⟨arena, he, _, hl⟩ := link_spec h m
  rw [he]
  exact hl

theorem link_perm (h : q.arena.Sound) (m : Message) :
    (q.link m).1.pending.Perm (m :: q.pending) := by
  rw [link_pending h]
  exact Timeline.insert_perm m q.pending

/-- **A link puts a message among the chosen ones where it belongs**, if it is chosen. -/
theorem filter_link (h : q.arena.Sound) (ho : Timeline.Ascending q.pending) (p : Message → Bool)
    (m : Message) : (q.link m).1.pending.filter p =
      if p m then Timeline.insert m (q.pending.filter p) else q.pending.filter p := by
  rw [link_pending h, Timeline.filter_insert ho]

theorem link_fst (q : Queue) (m : Message) :
    (q.link m).1 = { q with arena := (q.link m).1.arena } := by
  unfold link
  split <;> rfl

@[simp] theorem link_quitting (q : Queue) (m : Message) : (q.link m).1.quitting = q.quitting := by
  rw [link_fst]

@[simp] theorem link_nextToken (q : Queue) (m : Message) :
    (q.link m).1.nextToken = q.nextToken := by
  rw [link_fst]

@[simp] theorem link_idleHandlers (q : Queue) (m : Message) :
    (q.link m).1.idleHandlers = q.idleHandlers := by
  rw [link_fst]

/-- **A message wakes a blocked consumer if and only if it may run** at its place. -/
theorem link_wakes (h : q.arena.Sound)
    (hsync : ∀ d ∈ q.pending, d.isBarrier = true → d.async = false) (hm : m.isBarrier = false) :
    (q.link m).2 = true ↔ q.blocked = true ∧ MayRun (before m q.pending) m := by
  obtain ⟨cells, h⟩ := h
  obtain ⟨xs, ys, rfl, hl⟩ := exists_linking h m
  have hp : q.pending = (xs ++ ys).map Prod.snd := h.toList_eq
  rw [hl.wakes, hp, ← hl.due_before]
  rw [hp] at hsync
  refine and_congr_right fun _ => ?_
  cases xs with
  | nil => simp [Timeline.mayRun_nil, hm]
  | cons c xs =>
    rw [List.map_cons, Timeline.mayRun_cons, List.forall_mem_map]
    simp only [reduceCtorEq, false_or, List.head?_cons, Option.mem_some_iff, exists_eq_left',
      List.tail_cons, hm, true_and]
    refine and_congr_right fun _ => and_congr_right fun _ => forall₂_congr fun x hx => ?_
    constructor
    · exact Or.inr
    · rintro (hb | hs)
      · exact hsync x.2 (List.mem_map_of_mem (by simp [hx])) hb
      · exact hs

/-! ### Sending -/

/-- A message is refused or dropped, and nothing has changed, or it is linked. -/
theorem enqueue_cases (q : Queue) (m : Message) (t : Time) :
    ((q.enqueue m t).value ≠ .ok true ∧ (q.enqueue m t).state = q ∧ (q.enqueue m t).wakes = false) ∨
    ((q.enqueue m t).value = .ok true ∧ m.isBarrier = false ∧ m.inUse = false ∧ q.quitting = false ∧
      (q.enqueue m t).state = (q.link { m with inUse := true, due := t }).1 ∧
      (q.enqueue m t).wakes = (q.link { m with inUse := true, due := t }).2) := by
  unfold enqueue
  cases ht : m.target with
  | none => exact Or.inl ⟨by simp, rfl, rfl⟩
  | some target =>
    simp only
    cases hu : m.inUse with
    | true => exact Or.inl ⟨by simp, rfl, rfl⟩
    | false =>
      cases hq : q.quitting with
      | true => exact Or.inl ⟨by simp, rfl, rfl⟩
      | false => exact Or.inr ⟨rfl, by rw [Message.isBarrier, ht]; rfl, rfl, rfl, rfl, rfl⟩

/-- **The answer to a message that is sent**: the first cause that applies. -/
theorem enqueue_answer (q : Queue) (m : Message) (due : Time) : (q.enqueue m due).value =
    if m.target = none then .error .noTarget
    else if m.inUse = true then .error (.inUse m)
    else .ok (!q.quitting) := by
  unfold enqueue
  cases m.target with
  | none => rfl
  | some target =>
    cases m.inUse with
    | true => rfl
    | false => cases hq : q.quitting <;> simp

theorem enqueue_answer_iff (q : Queue) (m : Message) (due : Time) :
    ((q.enqueue m due).value = .error .noTarget ↔ m.target = none) ∧
    ((q.enqueue m due).value = .error (.inUse m) ↔ m.target ≠ none ∧ m.inUse = true) ∧
    ((q.enqueue m due).value = .ok false ↔
      m.target ≠ none ∧ m.inUse = false ∧ q.quitting = true) ∧
    ((q.enqueue m due).value = .ok true ↔
      m.target ≠ none ∧ m.inUse = false ∧ q.quitting = false) := by
  rw [enqueue_answer]
  by_cases ht : m.target = none
  · simp [ht]
  · cases hu : m.inUse <;> simp [ht]

theorem postBarrier_cases (q : Queue) (t : Time) :
    ((q.postBarrier t).value = none ∧ q.quitting = true ∧ (q.postBarrier t).state = q ∧
      (q.postBarrier t).wakes = false) ∨
    ((q.postBarrier t).value = some q.nextToken ∧ q.quitting = false ∧
      (q.postBarrier t).state =
        ({ q with nextToken := q.nextToken + 1 }.link (.barrier q.nextToken t)).1 ∧
      (q.postBarrier t).wakes = false) := by
  unfold postBarrier
  cases hq : q.quitting with
  | true => exact Or.inl ⟨rfl, rfl, rfl, rfl⟩
  | false => exact Or.inr ⟨rfl, rfl, rfl, rfl⟩

/-! ### Removing -/

theorem isBarrier_of_token? {token : Token} (h : m.token? = some token) : m.isBarrier = true := by
  unfold Message.token? at h
  split at h
  · assumption
  · cases h

/-- There is no such barrier, and nothing has changed, or the first with this token is taken out;
the consumer is woken if that one was stalling the queue. -/
theorem removeBarrier_cases (h : q.arena.Sound) (token : Token) :
    ((q.removeBarrier token).value ≠ .ok () ∧ (q.removeBarrier token).state = q ∧
      (q.removeBarrier token).wakes = false ∧ ∀ m ∈ q.pending, m.token? ≠ some token) ∨
    ((q.removeBarrier token).value = .ok () ∧ ∃ xs b ys arena, q.pending = xs ++ b :: ys ∧
      b.token? = some token ∧ (∀ x ∈ xs, x.token? ≠ some token) ∧
      (q.removeBarrier token).state = { q with arena } ∧ arena.Sound ∧ arena.toList = xs ++ ys ∧
      ((q.removeBarrier token).wakes = true ↔
        xs = [] ∧ (∀ y ∈ ys.head?, y.isBarrier = false) ∧ q.quitting = false)) := by
  obtain ⟨cells, h⟩ := h
  have hp : q.pending = cells.map Prod.snd := h.toList_eq
  unfold removeBarrier
  cases hf : q.arena.find? fun m => m.token? == some token with
  | none =>
    refine Or.inl ⟨by simp, rfl, rfl, fun m hm => ?_⟩
    rw [hp] at hm
    obtain ⟨c, hc, rfl⟩ := List.mem_map.mp hm
    simpa using h.find?_eq_none.mp hf c hc
  | some place =>
    obtain ⟨xs, c, ys, rfl, hxs, hc, rfl⟩ := h.find?_eq_some hf
    have hnext : ((q.arena.next c.1).any fun next => (q.arena.get next).isBarrier) =
        (ys.head?.any fun y => y.2.isBarrier) := by
      rw [h.next_eq]
      cases ys with
      | nil => rfl
      | cons y ys =>
        simp only [List.head?_cons, Option.map_some, Option.any_some]
        rw [h.get_eq (by simp)]
    refine Or.inr ⟨rfl, xs.map Prod.snd, c.2, ys.map Prod.snd, q.arena.unlink _, ?_,
      by simpa using hc, ?_, rfl, ⟨_, h.unlink rfl⟩, ?_, ?_⟩
    · rw [hp, List.map_append, List.map_cons]
    · intro x hx
      obtain ⟨d, hd, rfl⟩ := List.mem_map.mp hx
      simpa using hxs d hd
    · rw [(h.unlink rfl).toList_eq, List.map_append]
    · simp only [hnext, Bool.and_eq_true, Bool.not_eq_true', Option.isNone_iff_eq_none,
        List.getLast?_eq_none_iff, List.map_eq_nil_iff, and_assoc, List.head?_map]
      refine and_congr_right fun _ => and_congr_left fun _ => ?_
      cases ys.head? <;> simp

theorem filter_removeBarrier (h : q.arena.Sound) (token : Token) {p : Message → Bool}
    (hp : ∀ m, m.isBarrier = true → p m = false) :
    (q.removeBarrier token).state.pending.filter p = q.pending.filter p := by
  rcases removeBarrier_cases h token with
    ⟨_, hs, _⟩ | ⟨_, xs, b, ys, arena, hpending, hb, _, hs, _, hl, _⟩
  · rw [hs]
  · have hpb : p b = false := hp b (isBarrier_of_token? hb)
    rw [hs, hpending]
    show arena.toList.filter p = _
    rw [hl, List.filter_append, List.filter_append, List.filter_cons_of_neg (by simp [hpb])]

theorem remove_spec (h : q.arena.Sound) (f : Filter) : ∃ arena,
    (q.remove f).state = { q with arena } ∧ arena.Sound ∧
      arena.toList = q.pending.filter (!f.accepts ·) ∧
      (q.remove f).value = q.pending.countP f.accepts ∧ (q.remove f).wakes = false := by
  obtain ⟨cells, h⟩ := h
  have hp : q.pending = cells.map Prod.snd := h.toList_eq
  obtain ⟨hn, ha⟩ := h.removeIf f.accepts
  refine ⟨(q.arena.removeIf f.accepts).2, rfl, ⟨_, ha⟩, ?_, ?_, rfl⟩
  · rw [ha.toList_eq, hp, List.filter_map]
    rfl
  · rw [hp, List.countP_map]
    exact hn

theorem pending_remove (h : q.arena.Sound) (f : Filter) :
    (q.remove f).state.pending = q.pending.filter (!f.accepts ·) := by
  obtain ⟨arena, hs, _, hl, _⟩ := remove_spec h f
  rw [hs]
  exact hl

theorem remove_value (h : q.arena.Sound) (f : Filter) :
    (q.remove f).value = q.pending.countP f.accepts := by
  obtain ⟨_, _, _, _, hn, _⟩ := remove_spec h f
  exact hn

theorem filter_remove (h : q.arena.Sound) (f : Filter) (p : Message → Bool) :
    (q.remove f).state.pending.filter p = (q.pending.filter p).filter (!f.accepts ·) := by
  rw [pending_remove h, List.filter_comm]

theorem accepts_of_isBarrier (f : Filter) (h : m.isBarrier = true) : f.accepts m = false := by
  have ht : m.target = none := by simpa [Message.isBarrier] using h
  rw [Filter.accepts, ht]
  rfl

/-! ### Quitting -/

/-- A safe quit cuts the chain at the first cell that is not due, and counts what it cuts off. -/
theorem dropFuture_holds (h : q.arena.Holds cells []) (now : Time) :
    (q.dropFuture now).1 = (cells.dropWhile (·.2.due ≤ now)).length ∧
      (q.dropFuture now).2.Holds (cells.takeWhile (·.2.due ≤ now)) [] := by
  rw [dropFuture, h.head_eq]
  cases cells with
  | nil => exact ⟨rfl, h⟩
  | cons c cells =>
    have hget : ∀ d ∈ c :: cells, q.arena.get d.1 = d.2 := fun d hd => h.get_eq hd
    simp only [List.head?_cons, Option.map_some]
    rw [hget c List.mem_cons_self]
    by_cases hc : c.2.due ≤ now
    · obtain ⟨xs, d, he, hlast⟩ :=
        lastDue_eq (fun d hd => hget d (List.mem_cons_of_mem c hd)) now c
      have hcells : c :: cells = xs ++ d :: cells.dropWhile (·.2.due ≤ now) := by
        rw [List.append_cons, ← he, List.cons_append, List.takeWhile_append_dropWhile]
      rw [if_neg (UInt64.not_lt.mpr hc), h.orderAfter_eq [], hlast,
        List.takeWhile_cons_of_pos (by simpa using hc),
        List.dropWhile_cons_of_pos (by simpa using hc), he]
      exact (hcells ▸ h).truncateAfter
    · rw [if_pos (UInt64.not_le.mp hc), List.takeWhile_cons_of_neg (by simpa using hc),
        List.dropWhile_cons_of_neg (by simpa using hc)]
      exact h.clear

theorem dropFuture_spec (h : q.arena.Sound) (now : Time) :
    (q.dropFuture now).2.Sound ∧
      (q.dropFuture now).2.toList = q.pending.takeWhile (·.due ≤ now) := by
  obtain ⟨cells, h⟩ := h
  obtain ⟨_, hkept⟩ := dropFuture_holds h now
  have hp : q.pending = cells.map Prod.snd := h.toList_eq
  refine ⟨⟨_, hkept⟩, ?_⟩
  rw [hkept.toList_eq, hp, List.takeWhile_map]
  rfl

/-- What a quit leaves of a list. -/
def keptBy (safe : Bool) (now : Time) (ms : List Message) : List Message :=
  if safe then ms.takeWhile (·.due ≤ now) else []

theorem keptBy_sublist (safe : Bool) (now : Time) (ms : List Message) :
    (keptBy safe now ms).Sublist ms := by
  unfold keptBy
  split
  · exact List.takeWhile_sublist _
  · exact List.nil_sublist ms

/-- A quit is forbidden or comes again, and nothing has changed, or it cuts the list and wakes the
consumer. -/
theorem quit_cases (h : q.arena.Sound) (now : Time) (safe : Bool) :
    ((q.quit now safe).state = q ∧ (q.quit now safe).wakes = false ∧
      (q.quittable = false ∧ (q.quit now safe).value ≠ .ok () ∨
        q.quitting = true ∧ (q.quit now safe).value = .ok ())) ∨
    ((q.quit now safe).value = .ok () ∧ q.quittable = true ∧ q.quitting = false ∧
      (q.quit now safe).wakes = true ∧ ∃ arena,
        (q.quit now safe).state = { q with arena, quitting := true } ∧ arena.Sound ∧
          arena.toList = keptBy safe now q.pending) := by
  unfold quit
  cases hq : q.quittable with
  | false => exact Or.inl ⟨rfl, rfl, Or.inl ⟨rfl, by simp⟩⟩
  | true =>
    cases hg : q.quitting with
    | true => exact Or.inl ⟨rfl, rfl, Or.inr ⟨rfl, rfl⟩⟩
    | false =>
      refine Or.inr ⟨rfl, rfl, rfl, rfl, _, rfl, ?_⟩
      cases safe with
      | true => exact dropFuture_spec h now
      | false =>
        obtain ⟨cells, h⟩ := h
        exact ⟨⟨_, h.clear.2⟩, h.clear.2.toList_eq⟩

end Queue

end Agenda
