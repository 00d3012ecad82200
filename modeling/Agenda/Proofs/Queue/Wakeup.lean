import Agenda.Proofs.Queue.Runs

/-!
# No wake-up is lost

A consumer that parks goes by what a look at the queue has told it, and the queue may have changed
before it is asleep and while it sleeps.  `Sleeping q timeout t` is what makes that safe: the queue
knows of the sleeper, it is not quitting, and a sleep of `timeout` that began at reading `t` is over
before the next message is due.

* `WellFormed.scan_sleeping`: the look that sends the consumer to sleep leaves such a queue.
* `Sleeping.perform`: an operation that does not wake the consumer keeps it such.

The second rests on `NoSooner`: what does not wake brings nothing forward.  `parked_not_past_due`
follows by induction on the course of events.
-/

namespace Agenda

/-- A sleep that begins at reading `t` is over by the time the next message of `ms` is due. -/
def Timeout.Covers (timeout : Timeout) (t : Time) (ms : List Message) : Prop :=
  ∀ d, Timeline.eligible? ms = some d →
    ∃ n, timeout = .millis n ∧ t.toNat + n.toNat ≤ d.due.toNat

theorem Timeout.Covers.mono {timeout : Timeout} {t : Time} {ms ms' : List Message}
    (h : timeout.Covers t ms) (hn : Timeline.NoSooner ms ms') : timeout.Covers t ms' := by
  intro d' hd'
  obtain ⟨d, hd, hle⟩ := hn d' hd'
  obtain ⟨n, hn, hsum⟩ := h d hd
  exact ⟨n, hn, Nat.le_trans hsum (UInt64.le_iff_toNat_le.mp hle)⟩

namespace Queue

open Timeline (MayRun NoSooner before)

variable {q : Queue} {timeout : Timeout} {t : Time} {m : Message}

theorem timeoutAt_covers {ms : List Message} (h : NothingDue t ms) :
    (timeoutAt t ms).Covers t ms := by
  intro d hd
  have hle : t ≤ d.due := UInt64.le_of_lt (h d hd)
  have hmin : min (d.due - t) longestPark ≤ d.due - t := Std.min_le_left
  refine ⟨min (d.due - t) longestPark, by rw [timeoutAt, hd], ?_⟩
  rw [UInt64.le_iff_toNat_le, UInt64.toNat_sub_of_le _ _ hle] at hmin
  rw [UInt64.le_iff_toNat_le] at hle
  omega

/-- A consumer may sleep on this queue, for `timeout` from reading `t` on. -/
structure Sleeping (q : Queue) (timeout : Timeout) (t : Time) : Prop where
  blocked : q.blocked = true
  running : q.quitting = false
  covers : timeout.Covers t q.pending

namespace Sleeping

theorem of_noSooner {arena : Arena} (h : q.Sleeping timeout t)
    (hn : NoSooner q.pending arena.toList) : ({ q with arena } : Queue).Sleeping timeout t :=
  ⟨h.blocked, h.running, h.covers.mono hn⟩

theorem link (h : q.Sleeping timeout t) (hw : q.WellFormed)
    (hsync : m.isBarrier = true → m.async = false) (huse : m.inUse = true)
    (hrun : ¬ MayRun (before m q.pending) m) : (q.link m).1.Sleeping timeout t := by
  obtain ⟨arena, he, _, hl⟩ := link_spec hw.sound m
  rw [he]
  refine h.of_noSooner ?_
  have hins := hw.orderly.insert hsync huse
  have hsplit := Timeline.before_append_behind m q.pending
  rw [Timeline.insert_eq] at hins
  rw [hl, Timeline.insert_eq]
  have hnone := Timeline.noSooner_insert (hsplit.symm ▸ hw.orderly) hins hrun
  rwa [hsplit] at hnone

theorem enqueue (h : q.Sleeping timeout t) (hw : q.WellFormed) {due : Time}
    (hwake : (q.enqueue m due).wakes = false) : (q.enqueue m due).state.Sleeping timeout t := by
  rcases enqueue_cases q m due with ⟨_, hs, _⟩ | ⟨_, hm, _, _, hs, hk⟩
  · rw [hs]
    exact h
  · have hm' : Message.isBarrier { m with inUse := true, due } = false := hm
    rw [hs]
    refine h.link hw (fun hb => ?_) rfl fun hrun => ?_
    · rw [hm'] at hb
      cases hb
    · have hwakes := (link_wakes hw.sound hw.orderly.barrierSync hm').mpr ⟨h.blocked, hrun⟩
      rw [← hk, hwake] at hwakes
      cases hwakes

theorem postBarrier (h : q.Sleeping timeout t) (hw : q.WellFormed) (due : Time) :
    (q.postBarrier due).state.Sleeping timeout t := by
  rcases postBarrier_cases q due with ⟨_, _, hs, _⟩ | ⟨_, _, hs, _⟩
  · rw [hs]
    exact h
  · have hw' : ({ q with nextToken := q.nextToken + 1 } : Queue).WellFormed := { hw with }
    have h' : ({ q with nextToken := q.nextToken + 1 } : Queue).Sleeping timeout t := { h with }
    rw [hs]
    exact h'.link hw' (fun _ => rfl) rfl fun hrun => Bool.noConfusion hrun.1

theorem removeBarrier (h : q.Sleeping timeout t) (hw : q.WellFormed) {token : Token}
    (hwake : (q.removeBarrier token).wakes = false) :
    (q.removeBarrier token).state.Sleeping timeout t := by
  rcases removeBarrier_cases hw.sound token with
    ⟨_, hs, _⟩ | ⟨_, xs, b, ys, arena, hp, hb, _, hs, _, hl, hk⟩
  · rw [hs]
    exact h
  · rw [hs]
    refine h.of_noSooner ?_
    rw [hl, hp]
    refine Timeline.noSooner_remove_barrier (hp ▸ hw.orderly) fun hxs => ?_
    -- without a wake the barrier makes way for another one
    by_contra hnone
    have hwakes := hk.mpr ⟨hxs, fun y hy => ?_, h.running⟩
    · rw [hwake] at hwakes
      cases hwakes
    · by_contra hyb
      exact hnone ⟨y, hy, by simpa using hyb⟩

theorem remove (h : q.Sleeping timeout t) (hw : q.WellFormed) (f : Filter) :
    (q.remove f).state.Sleeping timeout t := by
  obtain ⟨arena, hs, _, hl, _⟩ := remove_spec hw.sound f
  rw [hs]
  refine h.of_noSooner ?_
  rw [hl]
  refine Timeline.noSooner_filter hw.orderly fun x _ hx => ?_
  rw [accepts_of_isBarrier f hx]
  rfl

theorem quit (h : q.Sleeping timeout t) (hw : q.WellFormed) {now : Time} {safe : Bool}
    (hwake : (q.quit now safe).wakes = false) : (q.quit now safe).state.Sleeping timeout t := by
  rcases quit_cases hw.sound now safe with ⟨hs, _⟩ | ⟨_, _, _, hk, _⟩
  · rw [hs]
    exact h
  · rw [hwake] at hk
    cases hk

/-- **An operation that does not wake the consumer lets it sleep on.** -/
theorem perform (h : q.Sleeping timeout t) (hw : q.WellFormed) {now : Time} {op : Operation}
    (hwake : (q.perform now op).wakes = false) : (q.perform now op).state.Sleeping timeout t := by
  cases op with
  | enqueue m due => exact h.enqueue hw hwake
  | postBarrier due => exact h.postBarrier hw due
  | removeBarrier token => exact h.removeBarrier hw hwake
  | remove f => exact h.remove hw f
  | addIdle i => exact { h with }
  | removeIdle i => exact { h with }
  | quit safe => exact h.quit hw hwake

end Sleeping

/-- **The look that sends the consumer to sleep leaves a queue to sleep on.** -/
theorem WellFormed.scan_sleeping (h : q.WellFormed) {now : Time} {early settled : Bool}
    (hv : (q.scan now early).value = .parking timeout settled) :
    (q.scan now early).state.Sleeping timeout now := by
  rcases scan_cases h.sound h.orderly now early with
    ⟨_, he⟩ | ⟨_, _, _, _, _, _, _, _, he, _⟩ | ⟨_, hnone, he⟩
  · rw [he] at hv
    cases hv
  · rw [he] at hv
    cases hv
  · rw [he] at hv ⊢
    rcases sleepOrIdle_cases q now early (timeoutAt now q.pending) with
      ⟨_, hs⟩ | ⟨_, _, _, _, hs⟩ | ⟨hq, _, hs⟩
    · rw [hs] at hv
      cases hv
    · rw [hs] at hv
      cases hv
    · rw [hs] at hv ⊢
      cases hv
      exact ⟨rfl, hq, timeoutAt_covers hnone⟩

end Queue

namespace System

open Queue (Sleeping)

variable {s t : System} {timeout : Timeout} {settled : Bool}

/-- **How a consumer comes to be parked** for longer than a moment: it was, and somebody did an
operation or time went on, or its look at the queue has just sent it there. -/
theorem step?_parking {a : Action} (h : s.step? a = some t)
    (hcall : t.call = .parking timeout settled) (hlong : timeout ≠ .immediate) :
    (s.call = .parking timeout settled ∧ t.lookedAt = s.lookedAt ∧
      ((t.queue = s.queue ∧ t.notified = s.notified) ∨
        ∃ op, t.queue = (s.queue.perform s.now op).state ∧
          t.notified = (s.notified || (s.queue.perform s.now op).wakes))) ∨
    (a = .look ∧ t.lookedAt = s.now ∧ ∃ early, s.call = .awake early ∧
      (s.queue.scan s.now early).value = .parking timeout settled ∧
      t.queue = (s.queue.scan s.now early).state) := by
  cases a with
  | operate op =>
    cases h
    exact Or.inl ⟨hcall, rfl, Or.inr ⟨op, rfl, rfl⟩⟩
  | tick now =>
    simp only [step?, Option.ite_none_right_eq_some, Option.some.injEq] at h
    obtain ⟨_, rfl⟩ := h
    exact Or.inl ⟨hcall, rfl, Or.inl ⟨rfl, rfl⟩⟩
  | call =>
    simp only [step?] at h
    split at h
    · cases h
      simp only [Queue.call] at hcall
      split at hcall <;> cases hcall
      exact absurd rfl hlong
    · cases h
  | wake =>
    simp only [step?] at h
    split at h <;> cases h
    cases hcall
  | look =>
    simp only [step?] at h
    split at h
    · rename_i early hearly
      cases h
      exact Or.inr ⟨rfl, rfl, early, hearly, hcall, rfl⟩
    · cases h
  | idle outcome =>
    simp only [step?] at h
    split at h
    · cases h
      cases outcome <;> cases hcall
    · cases h
  | endPass =>
    simp only [step?] at h
    split at h <;> cases h
    cases hcall
    exact absurd rfl hlong

/-- The consumer's timeout was computed by an earlier look, at clock reading `s.lookedAt`. -/
def SentToSleep (s : System) (timeout : Timeout) (settled : Bool) : Prop :=
  ∃ (u : System) (as : List Action) (early : Bool), u.Reachable ∧ Leads u (.look :: as) s ∧
    u.call = .awake early ∧ u.now = s.lookedAt ∧
    (u.queue.scan u.now early).value = .parking timeout settled

theorem Reachable.sleeping (h : s.Reachable) (hcall : s.call = .parking timeout settled)
    (hlong : timeout ≠ .immediate) : s.SentToSleep timeout settled ∧
      (s.notified = false → s.queue.Sleeping timeout s.lookedAt) := by
  obtain ⟨quittable, now, as, h⟩ := h
  induction h with
  | refl => cases hcall
  | @tail u v as a prior hstep ih =>
    have hu : u.Reachable := ⟨quittable, now, as, prior⟩
    have hw := hu.queue.wellFormed
    -- the last action left the sleeper asleep, or it was the look that sent it to sleep
    rcases step?_parking hstep hcall hlong with
      ⟨hbefore, hlook, hquiet⟩ | ⟨rfl, hlook, early, hearly, hv, hqueue⟩
    · obtain ⟨⟨w, bs, early, hw', hleads, hearly, hnow, hv⟩, hsleep⟩ := ih hbefore
      refine ⟨⟨w, bs ++ [a], early, hw', hleads.tail hstep, hearly, hnow.trans hlook.symm, hv⟩,
        fun hn => ?_⟩
      rw [hlook]
      rcases hquiet with ⟨hqueue, hnotified⟩ | ⟨op, hqueue, hnotified⟩
      · rw [hqueue]
        exact hsleep (hnotified ▸ hn)
      · rw [hnotified, Bool.or_eq_false_iff] at hn
        rw [hqueue]
        exact (hsleep hn.1).perform hw hn.2
    · refine ⟨⟨u, [], early, hu, (Leads.refl u).tail hstep, hearly, hlook.symm, hv⟩, fun _ => ?_⟩
      rw [hlook, hqueue]
      exact hw.scan_sleeping hv

/-- **No wake-up is lost.**  When the consumer is parked or about to park, for longer than a moment,
and no notification is pending, its timeout comes of a look at reading `s.lookedAt`, the queue knows
that it sleeps and is not quitting, and the sleep is over before anything that the consumer could
take now is due, whatever was done to the queue since that look. -/
theorem parked_not_past_due (h : s.Reachable) (hcall : s.call = .parking timeout settled)
    (hlong : timeout ≠ .immediate) (hquiet : s.notified = false) :
    s.SentToSleep timeout settled ∧ s.queue.blocked = true ∧ s.queue.quitting = false ∧
      s.queue.eligible?.map (fun place => s.queue.arena.get place.id) =
        Timeline.eligible? s.queue.pending ∧
      ∀ d, Timeline.eligible? s.queue.pending = some d →
        ∃ n, timeout = .millis n ∧ s.lookedAt.toNat + n.toNat ≤ d.due.toNat := by
  obtain ⟨hsent, hsleep⟩ := h.sleeping hcall hlong
  have hs := hsleep hquiet
  exact ⟨hsent, hs.blocked, hs.running, Queue.eligible?_get h.queue.wellFormed.sound, hs.covers⟩

/-- The consumer dozes off before a barrier is posted and a third message comes behind it. -/
theorem parked_not_past_due_behind_barrier :
    let news : Message := { target := some ⟨0, "news"⟩ }
    let late : Message := { news with async := true }
    ∃ s, Leads (initial true 9) [.operate (.enqueue news 100), .operate (.enqueue late 120), .call,
        .wake, .look, .operate (.postBarrier 50), .operate (.enqueue late 130), .tick 60] s ∧
      s.call = .parking (.millis 91) true ∧ s.notified = false ∧
      Timeline.eligible? s.queue.pending = some { late with due := 120, inUse := true } ∧
      s.SentToSleep (.millis 91) true ∧ s.queue.blocked = true ∧ s.queue.quitting = false ∧
      ∃ n, Timeout.millis 91 = .millis n ∧ s.lookedAt.toNat + n.toNat ≤ 120 := by
  intro news late
  have hrun : ([.operate (.enqueue news 100), .operate (.enqueue late 120), .call, .wake, .look,
      .operate (.postBarrier 50), .operate (.enqueue late 130), .tick 60].foldlM step?
        (initial true 9)).map (fun s => (s.call, s.notified, Timeline.eligible? s.queue.pending)) =
      some (.parking (.millis 91) true, false, some { late with due := 120, inUse := true }) := by
    decide +kernel
  obtain ⟨s, hs, hsees⟩ := Option.map_eq_some_iff.mp hrun
  obtain ⟨hcall, hquiet, hnext⟩ : s.call = _ ∧ s.notified = _ ∧ _ := by simpa using hsees
  have hleads := leads_iff.mpr hs
  obtain ⟨hsent, hblocked, hrunning, _, hcovers⟩ :=
    parked_not_past_due ⟨true, 9, _, hleads⟩ hcall nofun hquiet
  exact ⟨s, hleads, hcall, hquiet, hnext, hsent, hblocked, hrunning, hcovers _ hnext⟩

end System

end Agenda
