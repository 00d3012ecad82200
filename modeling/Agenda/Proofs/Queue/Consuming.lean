import Agenda.Consumer
import Agenda.Proofs.Queue.Producing

/-!
# What the consumer does to the pending list

A look at the queue is told on the pending list.  `eligible?_get` reads the place that the consumer
finds as the next message of `Timeline`, and `eligible?_place` says where it stands.  `scan_cases`
lists the ends of a look: the queue is gone, the next message is taken, or nothing is due; then
`sleepOrIdle_cases` goes on.
-/

namespace Agenda

namespace Queue

open Arena (Cell)
open Timeline (MayRun Orderly)

variable {q : Queue} {cells : List Cell}

/-! ### The place of the next message -/

/-- **The place that the consumer finds holds the next message of the list.** -/
theorem eligible?_get (h : q.arena.Sound) :
    q.eligible?.map (fun place => q.arena.get place.id) = Timeline.eligible? q.pending := by
  obtain ⟨cells, h⟩ := h
  have hp : q.pending = cells.map Prod.snd := h.toList_eq
  rw [hp, eligible?, h.head_eq]
  cases cells with
  | nil => rfl
  | cons c cells =>
    have hget : ∀ d ∈ c :: cells, q.arena.get d.1 = d.2 := fun d hd => h.get_eq hd
    have hget' : ∀ d ∈ cells, q.arena.get d.1 = d.2 :=
      fun d hd => hget d (List.mem_cons_of_mem c hd)
    simp only [List.head?_cons, Option.map_some, Option.bind_some, List.map_cons]
    rw [hget c List.mem_cons_self, h.orderAfter_eq [], Timeline.eligible?]
    by_cases hc : c.2.isBarrier
    · rw [if_pos hc, if_pos hc]
      cases hs : q.arena.search Message.async (some c.1) (cells.map Prod.fst) with
      | none =>
        have hnone := (Arena.search_eq_none hget' (some c.1)).mp hs
        rw [Option.map_none, eq_comm, List.find?_eq_none]
        intro m hm
        obtain ⟨d, hd, rfl⟩ := List.mem_map.mp hm
        simpa using hnone d hd
      | some place =>
        obtain ⟨xs, d, ys, rfl, hxs, hd, rfl⟩ := Arena.search_eq_some hget' hs
        rw [Option.map_some, hget' d (by simp), eq_comm, List.find?_eq_some_iff_append]
        refine ⟨hd, xs.map Prod.snd, ys.map Prod.snd, by simp, fun x hx => ?_⟩
        obtain ⟨e, he, rfl⟩ := List.mem_map.mp hx
        rw [hxs e he]
        rfl
    · rw [if_neg hc, if_neg hc, Option.map_some, hget c List.mem_cons_self]

theorem eligible?_place (h : q.arena.Holds cells []) (ho : Orderly (cells.map Prod.snd))
    {place : Place} (hq : q.eligible? = some place) :
    ∃ xs c ys, cells = xs ++ c :: ys ∧ place = ⟨(xs.map Prod.fst).getLast?, c.1⟩ ∧
      MayRun (xs.map Prod.snd) c.2 := by
  rw [eligible?, h.head_eq] at hq
  cases cells with
  | nil => cases hq
  | cons c cells =>
    have hget : ∀ d ∈ c :: cells, q.arena.get d.1 = d.2 := fun d hd => h.get_eq hd
    simp only [List.head?_cons, Option.map_some, Option.bind_some] at hq
    rw [hget c List.mem_cons_self, h.orderAfter_eq []] at hq
    by_cases hc : c.2.isBarrier
    · rw [if_pos hc] at hq
      obtain ⟨xs, d, ys, rfl, hxs, hd, rfl⟩ :=
        Arena.search_eq_some (fun d hd => hget d (List.mem_cons_of_mem c hd)) hq
      refine ⟨c :: xs, d, ys, rfl, ?_, Timeline.mayRun_cons.mpr ⟨?_, hc, hd, fun x hx => Or.inr ?_⟩⟩
      · rw [List.map_cons, List.getLast?_cons]
        cases (xs.map Prod.fst).getLast? <;> rfl
      · by_contra hb
        have := ho.barrierSync d.2 (by simp) (by simpa using hb)
        rw [hd] at this
        cases this
      · obtain ⟨e, he, rfl⟩ := List.mem_map.mp hx
        exact hxs e he
    · rw [if_neg hc, Option.some.injEq] at hq
      exact ⟨[], c, cells, rfl, hq.symm, Timeline.mayRun_nil.mpr (by simpa using hc)⟩

/-! ### A look at the queue -/

/-- How long the consumer sleeps, by the list, when nothing is due at `now`. -/
def timeoutAt (now : Time) (ms : List Message) : Timeout :=
  match Timeline.eligible? ms with
  | none => .indefinite
  | some d => .millis (min (d.due - now) longestPark)

/-- The next message, if there is one, is not due at `now`. -/
def NothingDue (now : Time) (ms : List Message) : Prop :=
  ∀ d, Timeline.eligible? ms = some d → now < d.due

theorem scan_cases (h : q.arena.Sound) (ho : Orderly q.pending) (now : Time) (settled : Bool) :
    (q.disposed = true ∧ q.scan now settled = ⟨q, .returned none, false, []⟩) ∨
    (q.disposed = false ∧ ∃ xs m ys arena, q.pending = xs ++ m :: ys ∧ MayRun xs m ∧ m.due ≤ now ∧
      q.scan now settled =
        ⟨{ q with blocked := false, arena }, .returned (some m), false, [.dispatching m]⟩ ∧
      arena.Sound ∧ arena.toList = xs ++ ys) ∨
    (q.disposed = false ∧ NothingDue now q.pending ∧
      q.scan now settled = q.sleepOrIdle now settled (timeoutAt now q.pending)) := by
  have hget := eligible?_get h
  obtain ⟨cells, h⟩ := h
  have hp : q.pending = cells.map Prod.snd := h.toList_eq
  unfold scan
  cases hd : q.disposed with
  | true => exact Or.inl ⟨rfl, rfl⟩
  | false =>
    refine Or.inr ?_
    simp only [Bool.false_eq_true, ↓reduceIte]
    cases he : q.eligible? with
    | none =>
      rw [he, Option.map_none] at hget
      refine Or.inr ⟨trivial, ?_, ?_⟩
      · intro d hd
        rw [← hget] at hd
        cases hd
      · rw [timeoutAt, ← hget]
    | some place =>
      rw [he, Option.map_some] at hget
      simp only
      by_cases hdue : now < (q.arena.get place.id).due
      · refine Or.inr ⟨trivial, ?_, ?_⟩
        · intro d hd
          rw [← hget] at hd
          exact Option.some.inj hd ▸ hdue
        · rw [if_pos hdue, timeoutAt, ← hget, timeoutFor]
      · obtain ⟨xs, c, ys, rfl, rfl, hrun⟩ := eligible?_place h (hp ▸ ho) he
        have hc : q.arena.get c.1 = c.2 := h.get_eq (by simp)
        simp only [hc] at hdue ⊢
        refine Or.inl ⟨trivial, xs.map Prod.snd, c.2, ys.map Prod.snd,
          q.arena.unlink ⟨(xs.map Prod.fst).getLast?, c.1⟩, ?_, hrun, UInt64.not_lt.mp hdue, ?_,
          ⟨_, h.unlink rfl⟩, ?_⟩
        · rw [hp, List.map_append, List.map_cons]
        · rw [if_neg hdue]
        · rw [(h.unlink rfl).toList_eq, List.map_append]

/-- **What is done when nothing is due**: a queue that is quitting is disposed, the idle handlers
are run, or the consumer goes to sleep. -/
theorem sleepOrIdle_cases (q : Queue) (now : Time) (settled : Bool) (timeout : Timeout) :
    (q.quitting = true ∧
      q.sleepOrIdle now settled timeout = ⟨q.dispose, .returned none, false, [.disposed]⟩) ∨
    (q.quitting = false ∧ settled = false ∧ q.headIdle now = true ∧ q.idleHandlers ≠ [] ∧
      q.sleepOrIdle now settled timeout = q.startIdlePass) ∨
    (q.quitting = false ∧ ∃ settled', q.sleepOrIdle now settled timeout =
      ⟨{ q with blocked := true }, .parking timeout settled', false, []⟩) := by
  unfold sleepOrIdle
  cases hq : q.quitting with
  | true => exact Or.inl ⟨rfl, rfl⟩
  | false =>
    refine Or.inr ?_
    simp only [Bool.false_eq_true, ↓reduceIte]
    by_cases hi : (!settled && q.headIdle now && !q.idleHandlers.isEmpty) = true
    · rw [if_pos hi]
      simp only [Bool.and_eq_true, Bool.not_eq_true', List.isEmpty_eq_false_iff] at hi
      exact Or.inl ⟨trivial, hi.1.1, hi.1.2, hi.2, rfl⟩
    · rw [if_neg hi]
      exact Or.inr ⟨trivial, _, rfl⟩

theorem dispose_cases (q : Queue) : (q.disposed = true ∧ q.dispose = q) ∨ (q.disposed = false ∧
    q.dispose = { q with disposed := true, arena := {}, idleHandlers := [], spare := [] }) := by
  unfold dispose
  cases hd : q.disposed with
  | true => exact Or.inl ⟨rfl, rfl⟩
  | false => exact Or.inr ⟨rfl, rfl⟩

end Queue

end Agenda
