import Agenda.Proofs.Queue.Runs

/-!
# Which message a look takes

A look at the queue takes the entry that may run, if it is due, and nothing else.

* `WellFormed.scan_took`: what a look has taken was allowed to run and was due, and the rest stays.
* `WellFormed.scan_takes`: what may run and is due is taken by the very next look.

`look_takes_exactly` puts both together for the step of a consumer that is back from parking.
-/

namespace Agenda

namespace Queue

open Timeline (MayRun)

variable {q : Queue} {now : Time} {settled : Bool} {m : Message}

/-- A look has taken `m` from between `ahead` and `rest`. -/
structure Takes (q : Queue) (now : Time) (settled : Bool) (ahead : List Message) (m : Message)
    (rest : List Message) : Prop where
  pending : q.pending = ahead ++ m :: rest
  mayRun : MayRun ahead m
  due : m.due ≤ now
  value : (q.scan now settled).value = .returned (some m)
  left : (q.scan now settled).state.pending = ahead ++ rest
  disposed : (q.scan now settled).state.disposed = false

theorem sleepOrIdle_value_ne (q : Queue) (now : Time) (settled : Bool) (timeout : Timeout)
    (m : Message) : (q.sleepOrIdle now settled timeout).value ≠ .returned (some m) := by
  intro hv
  rcases sleepOrIdle_cases q now settled timeout with ⟨_, hs⟩ | ⟨_, _, _, _, hs⟩ | ⟨_, _, hs⟩ <;>
    · rw [hs] at hv
      cases hv

namespace WellFormed

theorem scan_took (h : q.WellFormed) (hv : (q.scan now settled).value = .returned (some m)) :
    ∃ ahead rest, q.Takes now settled ahead m rest := by
  rcases scan_cases h.sound h.orderly now settled with
    ⟨_, he⟩ | ⟨hd, xs, d, ys, arena, hp, hrun, hdue, he, _, hl⟩ | ⟨_, _, he⟩
  · rw [he] at hv
    cases hv
  · have hv' := hv
    rw [he] at hv'
    cases hv'
    exact ⟨xs, ys, hp, hrun, hdue, hv, by rw [he]; exact hl, by rw [he]; exact hd⟩
  · rw [he] at hv
    exact absurd hv (sleepOrIdle_value_ne q now settled _ m)

theorem scan_takes {ahead rest : List Message} (h : q.WellFormed)
    (hp : q.pending = ahead ++ m :: rest) (hrun : MayRun ahead m) (hdue : m.due ≤ now)
    (settled : Bool) : q.Takes now settled ahead m rest := by
  rcases scan_cases h.sound h.orderly now settled with
    ⟨hd, _⟩ | ⟨hd, xs, d, ys, arena, hp', hrun', _, he, _, hl⟩ | ⟨_, hnone, _⟩
  · have hempty := h.empty_of_disposed hd
    rw [hp] at hempty
    simp at hempty
  · obtain ⟨rfl, rfl, rfl⟩ := hrun.unique hrun' (hp.symm.trans hp')
    exact ⟨hp, hrun, hdue, by rw [he], by rw [he]; exact hl, by rw [he]; exact hd⟩
  · have hnext := (Timeline.eligible?_eq_some h.orderly).mpr ⟨ahead, rest, hp, hrun⟩
    exact absurd hdue (UInt64.not_le.mpr (hnone m hnext))

end WellFormed

end Queue

/-! ### The consumer's step -/

namespace System

open Timeline (MayRun)

theorem step?_look {s : System} {settled : Bool} (h : s.call = .awake settled) :
    s.step? .look = some { s.settle (s.queue.scan s.now settled) with lookedAt := s.now } := by
  simp only [step?, h]

/-- **A look takes exactly what may run and is due.**  What it takes is due, has a target, is marked
as taken and stood where it may run; it alone leaves the list.  And an entry that may run is taken
by the very look that finds it due.  The queue may come of any run, at any clock readings. -/
theorem look_takes_exactly {s : System} {settled : Bool} (h : s.queue.Reachable)
    (hcall : s.call = .awake settled) : ∃ t, s.step? .look = some t ∧
      (∀ m, t.call = .returned (some m) →
        m.due ≤ s.now ∧ m.target.isSome = true ∧ m.inUse = true ∧
          ∃ ahead rest, s.queue.pending = ahead ++ m :: rest ∧ MayRun ahead m ∧
            t.queue.pending = ahead ++ rest) ∧
      ∀ ahead m rest, s.queue.pending = ahead ++ m :: rest → MayRun ahead m → m.due ≤ s.now →
        t.call = .returned (some m) ∧ t.queue.pending = ahead ++ rest ∧
          t.queue.disposed = false := by
  have hw := h.wellFormed
  refine ⟨_, step?_look hcall, fun m hm => ?_, fun ahead m rest hp hrun hdue => ?_⟩
  · obtain ⟨ahead, rest, ht⟩ := hw.scan_took hm
    have hmem : m ∈ s.queue.pending := by
      rw [ht.pending]
      simp
    refine ⟨ht.due, ?_, hw.orderly.inUse m hmem, ahead, rest, ht.pending, ht.mayRun, ht.left⟩
    exact Option.isNone_eq_false_iff.mp ht.mayRun.1
  · have ht := hw.scan_takes hp hrun hdue settled
    exact ⟨ht.value, ht.left, ht.disposed⟩

/-- An asynchronous message is taken from behind a barrier and a synchronous message. -/
theorem look_takes_exactly_behind_barrier :
    let news : Message := { target := some ⟨0, "news"⟩ }
    let late : Message := { news with async := true }
    let s : System :=
      { queue := ({} : Queue).turns [.operate 4 (.postBarrier 5), .operate 4 (.enqueue news 6),
          .operate 4 (.enqueue late 7)]
        now := 9
        call := .awake false }
    s.queue.Reachable ∧ s.call = .awake false ∧ ∃ t, s.step? .look = some t ∧
      t.call = .returned (some { late with due := 7, inUse := true }) ∧
      t.queue.pending = [.barrier 0 5, { news with due := 6, inUse := true }] ∧
      t.queue.disposed = false := by
  intro news late s
  have hreach : s.queue.Reachable := ⟨true, _, rfl⟩
  obtain ⟨t, ht, _, htakes⟩ := look_takes_exactly hreach rfl
  have hrun : MayRun [.barrier 0 5, { news with due := 6, inUse := true }]
      { late with due := 7, inUse := true } := by
    rw [Timeline.mayRun_cons]
    decide
  exact ⟨hreach, rfl, t, ht, htakes _ _ [] (by decide +kernel) hrun (by decide)⟩

end System

end Agenda
