import Agenda.Proofs.Queue.Consuming
import Agenda.System

/-!
# Runs of a queue

A queue is changed in critical sections only, so whatever its threads do, what happens to it is a
list of turns: operations of any thread, looks of the consumer, and the consumer's sections around
an idle pass, in any order and each at a clock reading of its own.  `WellFormed` is what every turn
keeps (`turn_wellFormed`), and so holds of every queue that a run reaches from a fresh one
(`Reachable.wellFormed`).  A course of events of a `System` is such a run (`System.Leads.turns`).
-/

namespace Agenda

/-- One critical section on a queue. -/
inductive Turn where
  /-- Some thread does an operation. -/
  | operate (now : Time) (op : Operation)
  /-- The consumer looks at the queue. -/
  | look (now : Time) (settled : Bool)
  /-- The run of an idle handler is over. -/
  | idle (h : IdleHandler) (outcome : IdleOutcome)
  /-- An idle pass is over. -/
  | endPass
  deriving DecidableEq, Repr

namespace Queue

open Timeline (Orderly)

variable {q : Queue}

/-- The queue after a turn. -/
def turn (q : Queue) : Turn → Queue
  | .operate now op => (q.perform now op).state
  | .look now settled => (q.scan now settled).state
  | .idle h outcome => (q.afterIdle h [] outcome).state
  | .endPass => q.endIdlePass.state

/-- The queue after some turns. -/
def turns (q : Queue) (ts : List Turn) : Queue :=
  ts.foldl turn q

theorem turns_append (q : Queue) (ts us : List Turn) :
    q.turns (ts ++ us) = (q.turns ts).turns us :=
  List.foldl_append

/-- The queues that some run reaches from a fresh one. -/
def Reachable (q : Queue) : Prop :=
  ∃ quittable ts, q = ({ quittable } : Queue).turns ts

theorem Reachable.turns (h : q.Reachable) (ts : List Turn) : (q.turns ts).Reachable := by
  obtain ⟨quittable, us, rfl⟩ := h
  exact ⟨quittable, us ++ ts, (turns_append _ us ts).symm⟩

/-! ### What every queue is -/

/-- The invariant of a queue. -/
structure WellFormed (q : Queue) : Prop where
  sound : q.arena.Sound
  orderly : Orderly q.pending
  empty_of_disposed : q.disposed = true → q.pending = []
  quitting_of_disposed : q.disposed = true → q.quitting = true

theorem wellFormed_fresh (quittable : Bool) : WellFormed { quittable } where
  sound := Arena.sound_empty
  orderly := Timeline.orderly_nil
  empty_of_disposed := nofun
  quitting_of_disposed := nofun

namespace WellFormed

theorem not_disposed (h : q.WellFormed) (hq : q.quitting = false) : q.disposed = false := by
  by_contra hd
  have := h.quitting_of_disposed (by simpa using hd)
  rw [hq] at this
  cases this

/-- Messages may be taken out of a queue. -/
theorem of_sublist {arena : Arena} (h : q.WellFormed) (ha : arena.Sound)
    (hs : arena.toList.Sublist q.pending) : ({ q with arena } : Queue).WellFormed where
  sound := ha
  orderly := h.orderly.sublist hs
  empty_of_disposed := fun hd => List.eq_nil_of_sublist_nil (h.empty_of_disposed hd ▸ hs)
  quitting_of_disposed := h.quitting_of_disposed

theorem link {m : Message} (h : q.WellFormed) (hq : q.quitting = false)
    (hsync : m.isBarrier = true → m.async = false) (huse : m.inUse = true) :
    (q.link m).1.WellFormed := by
  obtain ⟨arena, he, ha, hl⟩ := link_spec h.sound m
  have hd := h.not_disposed hq
  rw [he]
  refine ⟨ha, ?_, fun hd' => ?_, h.quitting_of_disposed⟩
  · show Orderly arena.toList
    rw [hl]
    exact h.orderly.insert hsync huse
  · rw [hd] at hd'
    cases hd'

theorem enqueue (h : q.WellFormed) (m : Message) (t : Time) : (q.enqueue m t).state.WellFormed := by
  rcases enqueue_cases q m t with ⟨_, hs, _⟩ | ⟨_, hm, _, hq, hs, _⟩
  · rw [hs]
    exact h
  · rw [hs]
    refine h.link hq (fun hb => ?_) rfl
    rw [show Message.isBarrier { m with inUse := true, due := t } = m.isBarrier from rfl, hm] at hb
    cases hb

theorem postBarrier (h : q.WellFormed) (t : Time) : (q.postBarrier t).state.WellFormed := by
  rcases postBarrier_cases q t with ⟨_, _, hs, _⟩ | ⟨_, hq, hs, _⟩
  · rw [hs]
    exact h
  · rw [hs]
    have h' : ({ q with nextToken := q.nextToken + 1 } : Queue).WellFormed := { h with }
    exact h'.link hq (fun _ => rfl) rfl

theorem removeBarrier (h : q.WellFormed) (token : Token) :
    (q.removeBarrier token).state.WellFormed := by
  rcases removeBarrier_cases h.sound token with
    ⟨_, hs, _⟩ | ⟨_, xs, b, ys, arena, hp, _, _, hs, ha, hl, _⟩
  · rw [hs]
    exact h
  · rw [hs]
    refine h.of_sublist ha ?_
    rw [hl, hp]
    exact List.Sublist.append_left (List.sublist_cons_self b ys) xs

theorem remove (h : q.WellFormed) (f : Filter) : (q.remove f).state.WellFormed := by
  obtain ⟨arena, hs, ha, hl, _⟩ := remove_spec h.sound f
  rw [hs]
  refine h.of_sublist ha ?_
  rw [hl]
  exact List.filter_sublist

theorem quit (h : q.WellFormed) (now : Time) (safe : Bool) :
    (q.quit now safe).state.WellFormed := by
  rcases quit_cases h.sound now safe with ⟨hs, _⟩ | ⟨_, _, _, _, arena, hs, ha, hl⟩
  · rw [hs]
    exact h
  · rw [hs]
    have h' := h.of_sublist ha (hl ▸ keptBy_sublist safe now q.pending)
    exact { h' with quitting_of_disposed := fun _ => rfl }

theorem dispose (h : q.WellFormed) (hq : q.quitting = true) : q.dispose.WellFormed := by
  rcases dispose_cases q with ⟨_, he⟩ | ⟨_, he⟩
  · rw [he]
    exact h
  · rw [he]
    exact ⟨Arena.sound_empty, Timeline.orderly_nil, fun _ => rfl, fun _ => hq⟩

theorem scan (h : q.WellFormed) (now : Time) (settled : Bool) :
    (q.scan now settled).state.WellFormed := by
  rcases scan_cases h.sound h.orderly now settled with
    ⟨_, he⟩ | ⟨_, xs, m, ys, arena, hp, _, _, he, ha, hl⟩ | ⟨_, _, he⟩
  · rw [he]
    exact h
  · rw [he]
    have h' := h.of_sublist ha (by
      rw [hl, hp]
      exact List.Sublist.append_left (List.sublist_cons_self m ys) xs)
    exact { h' with }
  · rw [he]
    rcases sleepOrIdle_cases q now settled (timeoutAt now q.pending) with
      ⟨hq, hs⟩ | ⟨_, _, _, _, hs⟩ | ⟨_, _, hs⟩
    · rw [hs]
      exact h.dispose hq
    · rw [hs]
      exact { h with }
    · rw [hs]
      exact { h with }

end WellFormed

/-- **Every turn keeps a queue well-formed.** -/
theorem turn_wellFormed (h : q.WellFormed) (t : Turn) : (q.turn t).WellFormed := by
  cases t with
  | operate now op =>
    cases op with
    | enqueue m t => exact h.enqueue m t
    | postBarrier t => exact h.postBarrier t
    | removeBarrier token => exact h.removeBarrier token
    | remove f => exact h.remove f
    | addIdle i => exact { h with }
    | removeIdle i => exact { h with }
    | quit safe => exact h.quit now safe
  | look now settled => exact h.scan now settled
  | idle i outcome =>
    cases outcome with
    | keep => exact h
    | drop => exact { h with }
    | fault cause => exact h
  | endPass => exact { h with }

theorem turns_wellFormed (h : q.WellFormed) (ts : List Turn) : (q.turns ts).WellFormed := by
  induction ts generalizing q with
  | nil => exact h
  | cons t ts ih => exact ih (turn_wellFormed h t)

theorem Reachable.wellFormed (h : q.Reachable) : q.WellFormed := by
  obtain ⟨quittable, ts, rfl⟩ := h
  exact turns_wellFormed (wellFormed_fresh quittable) ts

end Queue

/-! ### Courses of events -/

namespace System

variable {s t : System}

/-- An action is one turn of the queue, or none. -/
theorem step?_queue {a : Action} (h : s.step? a = some t) :
    t.queue = s.queue ∨ ∃ u, t.queue = s.queue.turn u := by
  cases a with
  | operate op =>
    cases h
    exact Or.inr ⟨.operate s.now op, rfl⟩
  | tick now =>
    simp only [step?, Option.ite_none_right_eq_some, Option.some.injEq] at h
    exact Or.inl (h.2 ▸ rfl)
  | call =>
    simp only [step?] at h
    split at h
    · cases h
      exact Or.inl rfl
    · cases h
  | wake =>
    simp only [step?] at h
    split at h
    · cases h
      exact Or.inl rfl
    · cases h
  | look =>
    simp only [step?] at h
    split at h
    · rename_i settled _
      cases h
      exact Or.inr ⟨.look s.now settled, rfl⟩
    · cases h
  | idle outcome =>
    simp only [step?] at h
    split at h
    · rename_i i rest _
      cases h
      refine Or.inr ⟨.idle i outcome, ?_⟩
      cases outcome <;> rfl
    · cases h
  | endPass =>
    simp only [step?] at h
    split at h
    · cases h
      exact Or.inr ⟨.endPass, rfl⟩
    · cases h

/-- A course of events can be followed action by action. -/
theorem leads_iff {as : List Action} : Leads s as t ↔ as.foldlM step? s = some t := by
  constructor
  · intro h
    induction h with
    | refl => rfl
    | tail prior h ih =>
      rw [List.foldlM_append, ih]
      simpa using h
  · intro h
    induction as using List.reverseRecOn generalizing t with
    | nil =>
      cases h
      exact .refl s
    | append_singleton as a ih =>
      rw [List.foldlM_append] at h
      obtain ⟨u, hu, hstep⟩ := Option.bind_eq_some_iff.mp h
      exact (ih hu).tail (by simpa using hstep)

/-- **A course of events is a run of its queue.** -/
theorem Leads.turns {as : List Action} (h : Leads s as t) : ∃ ts, t.queue = s.queue.turns ts := by
  induction h with
  | refl => exact ⟨[], rfl⟩
  | tail prior h ih =>
    obtain ⟨ts, ih⟩ := ih
    rcases step?_queue h with he | ⟨u, he⟩
    · exact ⟨ts, he.trans ih⟩
    · refine ⟨ts ++ [u], ?_⟩
      rw [he, ih, Queue.turns_append]
      rfl

theorem Reachable.queue (h : s.Reachable) : s.queue.Reachable := by
  obtain ⟨quittable, now, as, h⟩ := h
  obtain ⟨ts, he⟩ := h.turns
  exact ⟨quittable, ts, he⟩

end System

end Agenda
