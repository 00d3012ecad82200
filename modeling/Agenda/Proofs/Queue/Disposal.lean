import Agenda.Proofs.Queue.Quitting

/-!
# What a queue holds after its disposal

A queue gives back everything once, in the look that disposes of it.  `Released hs q` says that it
has done so and holds nothing but the registrations `hs`.  A look that disposes leaves such a queue
with no registration (`WellFormed.released`), and every later turn keeps it such
(`Released.turn`): what is sent, posted or removed finds a queue that is quitting and empty.  Only
the registry of idle handlers goes on as if nothing had happened, so a handler that is registered
too late is held for good.
-/

namespace Agenda.Queue

variable {q : Queue} {hs : List IdleHandler} {t : Turn} {now : Time} {settled : Bool}

/-- What a turn makes of the registrations, where it does not dispose of the queue. -/
def registrations (hs : List IdleHandler) : Turn → List IdleHandler
  | .operate _ (.addIdle h) => hs ++ [h]
  | .operate _ (.removeIdle h) | .idle h .drop => hs.erase h
  | _ => hs

/-- A queue that was disposed of and holds the registrations `hs`. -/
structure Released (hs : List IdleHandler) (q : Queue) : Prop where
  disposed : q.disposed = true
  quitting : q.quitting = true
  arena : q.arena = {}
  spare : q.spare = []
  idleHandlers : q.idleHandlers = hs

namespace Released

theorem pending (h : q.Released hs) : q.pending = [] := by
  rw [Queue.pending, h.arena]
  rfl

theorem operate (h : q.Released hs) (now : Time) (op : Operation) :
    (q.perform now op).state.Released (registrations hs (.operate now op)) := by
  cases op with
  | enqueue m due =>
    rcases enqueue_cases q m due with ⟨_, hs, _⟩ | ⟨_, _, _, hq, _⟩
    · show (q.enqueue m due).state.Released _
      rw [hs]
      exact h
    · rw [h.quitting] at hq
      cases hq
  | postBarrier due =>
    rcases postBarrier_cases q due with ⟨_, _, hs, _⟩ | ⟨_, hq, _⟩
    · show (q.postBarrier due).state.Released _
      rw [hs]
      exact h
    · rw [h.quitting] at hq
      cases hq
  | removeBarrier token =>
    have hnone : q.removeBarrier token = ⟨q, .error (.noBarrier token), false, []⟩ := by
      rw [removeBarrier, h.arena]
      rfl
    show (q.removeBarrier token).state.Released _
    rw [hnone]
    exact h
  | remove f =>
    have hnone : (q.remove f).state = q := by
      rw [remove, h.arena]
      exact congrArg (fun arena => { q with arena }) h.arena.symm
    show (q.remove f).state.Released _
    rw [hnone]
    exact h
  | addIdle i => exact { h with idleHandlers := congrArg (· ++ [i]) h.idleHandlers }
  | removeIdle i => exact { h with idleHandlers := congrArg (List.erase · i) h.idleHandlers }
  | quit safe =>
    have hnone : (q.quit now safe).state = q := by
      unfold quit
      split
      · rfl
      · rw [if_pos h.quitting]
    show (q.quit now safe).state.Released _
    rw [hnone]
    exact h

theorem turn (h : q.Released hs) (t : Turn) : (q.turn t).Released (registrations hs t) := by
  cases t with
  | operate now op => exact h.operate now op
  | look now settled =>
    have hnone : q.scan now settled = ⟨q, .returned none, false, []⟩ := if_pos h.disposed
    show (q.scan now settled).state.Released _
    rw [hnone]
    exact h
  | idle i outcome =>
    cases outcome with
    | keep => exact h
    | drop => exact { h with idleHandlers := congrArg (List.erase · i) h.idleHandlers }
    | fault cause => exact h
  | endPass => exact { h with spare := rfl }

theorem turns (h : q.Released hs) (ts : List Turn) :
    (q.turns ts).Released (ts.foldl registrations hs) := by
  induction ts generalizing q hs with
  | nil => exact h
  | cons t ts ih => exact ih (h.turn t)

end Released

/-- **The look that disposes of a queue leaves nothing in it.** -/
theorem WellFormed.released (h : q.WellFormed) (hd : q.disposed = false)
    (hd' : (q.turn t).disposed = true) : (q.turn t).Released [] := by
  obtain ⟨now, settled, rfl, hv⟩ := (h.onward t).disposes hd hd'
  show (q.scan now settled).state.Released []
  rcases scan_cases h.sound h.orderly now settled with
    ⟨hd'', _⟩ | ⟨_, _, _, _, _, _, _, _, he, _⟩ | ⟨_, _, he⟩
  · rw [hd] at hd''
    cases hd''
  · rw [he] at hv
    cases hv
  · rcases sleepOrIdle_cases q now settled (timeoutAt now q.pending) with
      ⟨hq, hs⟩ | ⟨_, _, _, _, hs⟩ | ⟨_, _, hs⟩
    · have hstate : (q.scan now settled).state =
          { q with disposed := true, arena := {}, idleHandlers := [], spare := [] } := by
        rw [he, hs, Queue.dispose, hd]
        rfl
      rw [hstate]
      exact ⟨rfl, hq, rfl, rfl, rfl⟩
    · rw [he, hs] at hv
      cases hv
    · rw [he, hs] at hv
      cases hv

theorem exists_disposal (hd : q.disposed = false) {ts : List Turn}
    (hd' : (q.turns ts).disposed = true) : ∃ before t after, ts = before ++ t :: after ∧
      (q.turns before).disposed = false ∧ ((q.turns before).turn t).disposed = true := by
  induction ts generalizing q with
  | nil =>
    rw [turns, List.foldl_nil, hd] at hd'
    cases hd'
  | cons t ts ih =>
    cases ht : (q.turn t).disposed with
    | true => exact ⟨[], t, ts, rfl, hd, ht⟩
    | false =>
      obtain ⟨before, u, after, rfl, hb, hu⟩ := ih ht hd'
      exact ⟨t :: before, u, after, rfl, hb, hu⟩

theorem exists_released {quittable : Bool} {ts : List Turn}
    (hd : (({ quittable } : Queue).turns ts).disposed = true) :
    ∃ hs, (({ quittable } : Queue).turns ts).Released hs := by
  obtain ⟨before, t, after, rfl, hb, ht⟩ := exists_disposal rfl hd
  have hreleased := (turns_wellFormed (wellFormed_fresh quittable) before).released hb ht
  rw [turns_append]
  exact ⟨_, hreleased.turns after⟩

theorem foldl_registrations_nil {ts : List Turn}
    (h : ∀ now i, .operate now (.addIdle i) ∉ ts) : ts.foldl registrations [] = [] := by
  induction ts with
  | nil => rfl
  | cons t ts ih =>
    have hnil : registrations [] t = [] := by
      cases t with
      | operate now op =>
        cases op with
        | addIdle i => exact absurd List.mem_cons_self (h now i)
        | _ => rfl
      | idle i outcome => cases outcome <;> rfl
      | _ => rfl
    rw [List.foldl_cons, hnil]
    exact ih fun now i hmem => h now i (List.mem_cons_of_mem t hmem)

/-- **After its disposal a queue holds nothing but the handlers that were registered since.**  The
chain is empty, neither the arena nor its free list holds a slot, and no handler is left for an idle
pass; the registry holds what the turns after the disposal have put there and not taken back, and
nothing if they registered nothing. -/
theorem disposed_holds_late_handlers {quittable : Bool} {ts : List Turn}
    (hd : (({ quittable } : Queue).turns ts).disposed = true) :
    let start : Queue := { quittable }
    let q := start.turns ts
    (q.pending = [] ∧ q.arena = { slots := #[], free := [], head := none, size := 0 } ∧
      q.spare = []) ∧
    ∃ before t after, ts = before ++ t :: after ∧ (start.turns before).disposed = false ∧
      ((start.turns before).turn t).disposed = true ∧
      q.idleHandlers = after.foldl registrations [] ∧
      ((∀ now i, .operate now (.addIdle i) ∉ after) → q.idleHandlers = []) := by
  intro start q
  obtain ⟨before, t, after, rfl, hb, ht⟩ := exists_disposal rfl hd
  have hw : (start.turns before).WellFormed := turns_wellFormed (wellFormed_fresh quittable) before
  have hreleased : q.Released (after.foldl registrations []) := by
    have hrest := (hw.released hb ht).turns after
    show (start.turns (before ++ t :: after)).Released _
    rw [turns_append]
    exact hrest
  refine ⟨⟨hreleased.pending, hreleased.arena, hreleased.spare⟩, before, t, after, rfl, hb, ht,
    hreleased.idleHandlers, fun hnone => ?_⟩
  rw [hreleased.idleHandlers]
  exact foldl_registrations_nil hnone

/-- Everything is tried on a queue that has come to its end; two late registrations are all that
stays. -/
theorem disposed_holds_late_handlers_of_two :
    let news : Message := { target := some ⟨0, "news"⟩ }
    let ts : List Turn := [.operate 1 (.addIdle 4), .operate 1 (.postBarrier 3),
      .operate 2 (.enqueue news 3), .operate 5 (.quit true), .look 5 false,
      .operate 6 (.enqueue news 0), .operate 6 (.addIdle 7), .operate 6 (.postBarrier 0),
      .operate 6 (.addIdle 8), .operate 7 (.removeBarrier 0), .operate 7 (.addIdle 7),
      .operate 7 (.removeIdle 7), .operate 8 (.quit false), .look 9 false]
    let q := ({} : Queue).turns ts
    q.disposed = true ∧ q.pending = [] ∧ q.arena = {} ∧ q.spare = [] ∧
      (∃ before t after, ts = before ++ t :: after ∧
        q.idleHandlers = after.foldl registrations []) ∧
      q.idleHandlers = [8, 7] := by
  intro news ts q
  have hd : q.disposed = true := by decide +kernel
  obtain ⟨⟨hpending, harena, hspare⟩, before, t, after, hts, _, _, hidle, _⟩ :=
    @disposed_holds_late_handlers true ts hd
  exact ⟨hd, hpending, harena, hspare, ⟨before, t, after, hts, hidle⟩, by decide +kernel⟩

/-- **A handler that is registered after the disposal is held** by a queue that will never run
it. -/
theorem registration_outlives_disposal :
    let q := ({} : Queue).turns [.operate 0 (.quit false), .look 0 false, .operate 0 (.addIdle 0)]
    q.Reachable ∧ q.disposed = true ∧ q.pending = [] ∧ q.idleHandlers = [0] := by
  intro q
  exact ⟨⟨true, _, rfl⟩, by decide +kernel, by decide +kernel, by decide +kernel⟩

end Agenda.Queue
