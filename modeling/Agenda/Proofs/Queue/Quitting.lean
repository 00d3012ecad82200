import Agenda.Proofs.Queue.Eligibility

/-!
# A queue that is quitting

A queue is told to quit once and for all, and then only empties.  `Onward` says what a turn can do
to the life of a queue: the flags never go back, only a quit that is allowed sets the first, only a
look that ends a call sets the second, and a queue that is quitting takes nothing in
(`WellFormed.onward`).

A look at such a queue ends the call, whatever is due (`scan_returns`).  It ends it without a
message only if nothing may run, provided that all that is pending is due (`WellFormed.scan_none`).
-/

namespace Agenda.Queue

variable {q : Queue} {t : Turn} {now : Time} {settled : Bool} {m : Message}

/-- What a turn does to the life of a queue. -/
structure Onward (q : Queue) (t : Turn) : Prop where
  quittable : (q.turn t).quittable = q.quittable
  quitting : q.quitting = true → (q.turn t).quitting = true
  disposed : q.disposed = true → (q.turn t).disposed = true
  shrinks : q.quitting = true → (q.turn t).pending.Sublist q.pending
  /-- Only a quit makes a queue quit, and what it leaves is due. -/
  quits : q.quitting = false → (q.turn t).quitting = true → ∃ now safe,
    t = .operate now (.quit safe) ∧ (q.quit now safe).value = .ok () ∧ q.quittable = true ∧
      ∀ m ∈ (q.turn t).pending, m.due ≤ now
  /-- Only a look disposes of a queue, and it has no message to return. -/
  disposes : q.disposed = false → (q.turn t).disposed = true → ∃ now settled,
    t = .look now settled ∧ (q.scan now settled).value = .returned none

namespace Onward

theorem of_state {q' : Queue} (h : q.turn t = q') (hquittable : q'.quittable = q.quittable)
    (hquitting : q'.quitting = q.quitting) (hdisposed : q'.disposed = q.disposed)
    (hshrinks : q.quitting = true → q'.pending.Sublist q.pending) : q.Onward t := by
  subst h
  refine ⟨hquittable, fun hq => hquitting.trans hq, fun hd => hdisposed.trans hd, hshrinks,
    fun hq hq' => ?_, fun hd hd' => ?_⟩
  · rw [hquitting, hq] at hq'
    cases hq'
  · rw [hdisposed, hd] at hd'
    cases hd'

theorem of_eq (h : q.turn t = q) : q.Onward t :=
  of_state h rfl rfl rfl fun _ => List.Sublist.refl _

end Onward

/-- What a quit leaves pending is due. -/
theorem due_of_mem_keptBy {ms : List Message} {safe : Bool} (h : m ∈ keptBy safe now ms) :
    m.due ≤ now := by
  unfold keptBy at h
  split at h
  · simpa using List.mem_takeWhile_imp h
  · simp at h

namespace WellFormed

theorem onward_operate (h : q.WellFormed) (now : Time) (op : Operation) :
    q.Onward (.operate now op) := by
  cases op with
  | enqueue m due =>
    rcases enqueue_cases q m due with ⟨_, hs, _⟩ | ⟨_, _, _, hq, hs, _⟩
    · exact .of_eq hs
    · obtain ⟨arena, he, _⟩ := link_spec h.sound { m with inUse := true, due }
      refine .of_state (hs.trans he) rfl rfl rfl fun hq' => ?_
      rw [hq] at hq'
      cases hq'
  | postBarrier due =>
    rcases postBarrier_cases q due with ⟨_, _, hs, _⟩ | ⟨_, hq, hs, _⟩
    · exact .of_eq hs
    · have h' : ({ q with nextToken := q.nextToken + 1 } : Queue).WellFormed := { h with }
      obtain ⟨arena, he, _⟩ := link_spec h'.sound (.barrier q.nextToken due)
      refine .of_state (hs.trans he) rfl rfl rfl fun hq' => ?_
      rw [hq] at hq'
      cases hq'
  | removeBarrier token =>
    rcases removeBarrier_cases h.sound token with
      ⟨_, hs, _⟩ | ⟨_, xs, b, ys, arena, hp, _, _, hs, _, hl, _⟩
    · exact .of_eq hs
    · refine .of_state hs rfl rfl rfl fun _ => ?_
      show arena.toList.Sublist q.pending
      rw [hl, hp]
      exact List.Sublist.append_left (List.sublist_cons_self b ys) xs
  | remove f =>
    obtain ⟨arena, hs, _, hl, _⟩ := remove_spec h.sound f
    refine .of_state hs rfl rfl rfl fun _ => ?_
    show arena.toList.Sublist q.pending
    rw [hl]
    exact List.filter_sublist
  | addIdle i => exact .of_state rfl rfl rfl rfl fun _ => List.Sublist.refl _
  | removeIdle i => exact .of_state rfl rfl rfl rfl fun _ => List.Sublist.refl _
  | quit safe =>
    rcases quit_cases h.sound now safe with ⟨hs, _⟩ | ⟨hv, hquittable, hq, _, arena, hs, _, hl⟩
    · exact .of_eq hs
    · have hturn : q.turn (.operate now (.quit safe)) = { q with arena, quitting := true } := hs
      refine ⟨by rw [hturn], fun _ => by rw [hturn], fun hd => by rw [hturn]; exact hd,
        fun hq' => ?_, fun _ _ => ?_, ?_⟩
      · rw [hq] at hq'
        cases hq'
      · refine ⟨now, safe, rfl, hv, hquittable, fun m hm => ?_⟩
        have hm' : m ∈ arena.toList := by
          rw [hturn] at hm
          exact hm
        exact due_of_mem_keptBy (hl ▸ hm')
      · intro hd hd'
        rw [hturn, hd] at hd'
        cases hd'

theorem onward_look (h : q.WellFormed) (now : Time) (settled : Bool) :
    q.Onward (.look now settled) := by
  rcases scan_cases h.sound h.orderly now settled with
    ⟨_, he⟩ | ⟨_, xs, m, ys, arena, hp, _, _, he, _, hl⟩ | ⟨_, _, he⟩
  · exact .of_eq (congrArg Reply.state he)
  · refine .of_state (congrArg Reply.state he) rfl rfl rfl fun _ => ?_
    show arena.toList.Sublist q.pending
    rw [hl, hp]
    exact List.Sublist.append_left (List.sublist_cons_self m ys) xs
  · rcases sleepOrIdle_cases q now settled (timeoutAt now q.pending) with
      ⟨hq, hs⟩ | ⟨_, _, _, _, hs⟩ | ⟨_, _, hs⟩
    · have hend : q.scan now settled = ⟨q.dispose, .returned none, false, [.disposed]⟩ :=
        he.trans hs
      have hturn : q.turn (.look now settled) = q.dispose := congrArg Reply.state hend
      rcases dispose_cases q with ⟨_, hd⟩ | ⟨_, hd⟩
      · exact .of_eq (hturn.trans hd)
      · have hturn' := hturn.trans hd
        refine ⟨by rw [hturn'], fun hq => by rw [hturn']; exact hq, fun _ => by rw [hturn'],
          fun _ => ?_, fun hq' => ?_, fun _ _ => ?_⟩
        · rw [hturn']
          exact List.nil_sublist q.pending
        · rw [hq] at hq'
          cases hq'
        · exact ⟨now, settled, rfl, congrArg Reply.value hend⟩
    · exact .of_state (congrArg Reply.state (he.trans hs)) rfl rfl rfl fun _ => List.Sublist.refl _
    · exact .of_state (congrArg Reply.state (he.trans hs)) rfl rfl rfl fun _ => List.Sublist.refl _

/-- **A queue's life goes one way.** -/
theorem onward (h : q.WellFormed) (t : Turn) : q.Onward t := by
  cases t with
  | operate now op => exact h.onward_operate now op
  | look now settled => exact h.onward_look now settled
  | idle i outcome =>
    cases outcome with
    | keep => exact .of_eq rfl
    | drop => exact .of_state rfl rfl rfl rfl fun _ => List.Sublist.refl _
    | fault cause => exact .of_eq rfl
  | endPass => exact .of_state rfl rfl rfl rfl fun _ => List.Sublist.refl _

end WellFormed

theorem quitting_of_quit {safe : Bool} (h : q.arena.Sound) (hv : (q.quit now safe).value = .ok ()) :
    (q.quit now safe).state.quitting = true := by
  rcases quit_cases h now safe with ⟨hs, _, ⟨_, hne⟩ | ⟨hq, _⟩⟩ | ⟨_, _, _, _, arena, hs, _⟩
  · exact absurd hv hne
  · rw [hs, hq]
  · rw [hs]

/-- A quit that comes again is granted and does nothing. -/
theorem quit_again (hquittable : q.quittable = true) (hq : q.quitting = true) (now : Time)
    (safe : Bool) : q.quit now safe = ⟨q, .ok (), false, []⟩ := by
  simp only [quit, hquittable, hq, Bool.not_true, Bool.false_eq_true, ↓reduceIte]

/-! ### Runs -/

theorem quittable_turns (h : q.WellFormed) (ts : List Turn) :
    (q.turns ts).quittable = q.quittable := by
  induction ts generalizing q with
  | nil => rfl
  | cons t ts ih => exact (ih (turn_wellFormed h t)).trans (h.onward t).quittable

theorem quitting_turns (h : q.WellFormed) (hq : q.quitting = true) (ts : List Turn) :
    (q.turns ts).quitting = true := by
  induction ts generalizing q with
  | nil => exact hq
  | cons t ts ih => exact ih (turn_wellFormed h t) ((h.onward t).quitting hq)

theorem disposed_turns (h : q.WellFormed) (hd : q.disposed = true) (ts : List Turn) :
    (q.turns ts).disposed = true := by
  induction ts generalizing q with
  | nil => exact hd
  | cons t ts ih => exact ih (turn_wellFormed h t) ((h.onward t).disposed hd)

/-- **A queue that is quitting only empties.** -/
theorem pending_turns_sublist (h : q.WellFormed) (hq : q.quitting = true) (ts : List Turn) :
    (q.turns ts).pending.Sublist q.pending := by
  induction ts generalizing q with
  | nil => exact List.Sublist.refl _
  | cons t ts ih =>
    exact (ih (turn_wellFormed h t) ((h.onward t).quitting hq)).trans ((h.onward t).shrinks hq)

/-! ### Looks at a queue that is quitting -/

/-- **A look at a queue that is quitting ends the call**, and without a message it disposes of the
queue. -/
theorem scan_returns (h : q.WellFormed) (hq : q.quitting = true) (now : Time) (settled : Bool) :
    ∃ r, (q.scan now settled).value = .returned r ∧
      (r = none → (q.scan now settled).state.disposed = true) := by
  rcases scan_cases h.sound h.orderly now settled with
    ⟨hd, he⟩ | ⟨_, _, m, _, _, _, _, _, he, _⟩ | ⟨_, _, he⟩
  · exact ⟨none, by rw [he], fun _ => by rw [he]; exact hd⟩
  · exact ⟨some m, by rw [he], nofun⟩
  · rcases sleepOrIdle_cases q now settled (timeoutAt now q.pending) with
      ⟨_, hs⟩ | ⟨hq', _⟩ | ⟨hq', _⟩
    · refine ⟨none, by rw [he, hs], fun _ => ?_⟩
      rw [he, hs]
      rcases dispose_cases q with ⟨hd, hd'⟩ | ⟨_, hd'⟩
      · rw [hd']
        exact hd
      · rw [hd']
    · rw [hq] at hq'
      cases hq'
    · rw [hq] at hq'
      cases hq'

theorem WellFormed.disposed_of_scan (h : q.WellFormed)
    (hv : (q.scan now settled).value = .returned none) :
    (q.scan now settled).state.disposed = true := by
  rcases scan_cases h.sound h.orderly now settled with
    ⟨hd, he⟩ | ⟨_, _, _, _, _, _, _, _, he, _⟩ | ⟨_, _, he⟩
  · rw [he]
    exact hd
  · rw [he] at hv
    cases hv
  · rcases sleepOrIdle_cases q now settled (timeoutAt now q.pending) with
      ⟨hq, _⟩ | ⟨_, _, _, _, hs⟩ | ⟨_, _, hs⟩
    · obtain ⟨r, hr, hdisposed⟩ := scan_returns h hq now settled
      rw [hv] at hr
      cases hr
      exact hdisposed rfl
    · rw [he, hs] at hv
      cases hv
    · rw [he, hs] at hv
      cases hv

/-- **If all that is pending is due, a look finds no message only where a barrier holds back all
that is left.** -/
theorem WellFormed.scan_none (h : q.WellFormed) (hd : q.disposed = false)
    (hdue : ∀ m ∈ q.pending, m.due ≤ now) (hv : (q.scan now settled).value = .returned none) :
    ∀ m ∈ q.pending, m.isBarrier = false →
      m.async = false ∧ ∃ head ∈ q.pending.head?, head.isBarrier = true := by
  rcases scan_cases h.sound h.orderly now settled with
    ⟨hd', _⟩ | ⟨_, _, _, _, _, _, _, _, he, _⟩ | ⟨_, hnothing, _⟩
  · rw [hd] at hd'
    cases hd'
  · rw [he] at hv
    cases hv
  · intro m hm hmessage
    have hno : ¬ Timeline.Contends q.pending m := by
      intro hc
      obtain ⟨e, he, hle⟩ := Timeline.exists_eligible_le h.orderly hc
      exact UInt64.not_le.mpr (hnothing e he) (UInt64.le_trans hle (hdue m hm))
    have hrest : ¬ (m.async = true ∨ ∃ head ∈ q.pending.head?, head.isBarrier = false) :=
      fun hc => hno ⟨hm, hmessage, hc⟩
    obtain ⟨hasync, hhead⟩ := not_or.mp hrest
    refine ⟨by simpa using hasync, ?_⟩
    cases hp : q.pending with
    | nil =>
      rw [hp] at hm
      simp at hm
    | cons head rest =>
      refine ⟨head, rfl, ?_⟩
      by_contra hb
      exact hhead ⟨head, by rw [hp]; rfl, by simpa using hb⟩

theorem quitting_of_enqueue {due : Time} (hv : (q.enqueue m due).value = .ok false) :
    q.quitting = true := by
  unfold enqueue at hv
  cases ht : m.target with
  | none => simp [ht] at hv
  | some target =>
    cases hu : m.inUse with
    | true => simp [ht, hu] at hv
    | false =>
      cases hq : q.quitting with
      | true => rfl
      | false => simp [ht, hu, hq] at hv

end Agenda.Queue
