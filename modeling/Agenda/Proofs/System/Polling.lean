import Agenda.Proofs.System.IdlePass

/-!
# The parks of a call

A consumer that waits must neither spin nor oversleep.  A park that is over at once is a poll; a
call begins with one, and makes one more after its idle pass.  `Step.parks` says where a park comes
from: from the call, from the end of a pass, or from a look that has found nothing due, and then it
lasts as `Waits` says.  `Leads.polls_eq` counts the polls by the passes, of which a call has one at
most, and `Leads.pass_seen` says that nothing comes between a pass and the poll behind it.
-/

namespace Agenda

/-- The timeout of the park that begins. -/
def Sight.park? : Sight → Option Timeout
  | .parks timeout => some timeout
  | _ => none

/-- The number of idle passes that are under way in a call. -/
def Call.passesOpen : Call → Nat
  | .idle _ => 1
  | _ => 0

/-- How long the consumer sleeps that has found `ms` pending at reading `now`: until somebody wakes
it if nothing can be taken, and otherwise, but for a limit, until the next message is due, which is
later than now. -/
def Timeout.Waits (timeout : Timeout) (now : Time) (ms : List Message) : Prop :=
  (Timeline.eligible? ms = none ∧ timeout = .indefinite) ∨
    ∃ d n, Timeline.eligible? ms = some d ∧ timeout = .millis n ∧ now.toNat < d.due.toNat ∧
      n.toNat = min (d.due.toNat - now.toNat) 2147483647 ∧ 1 ≤ n.toNat

theorem Timeout.Waits.ne_immediate {timeout : Timeout} {now : Time} {ms : List Message}
    (h : timeout.Waits now ms) : timeout ≠ .immediate := by
  rintro rfl
  rcases h with ⟨_, h⟩ | ⟨_, _, _, h, _⟩ <;> cases h

namespace Queue

variable {q : Queue} {now : Time} {timeout : Timeout} {settled early : Bool}

theorem timeoutAt_waits {ms : List Message} (h : NothingDue now ms) :
    (timeoutAt now ms).Waits now ms := by
  unfold timeoutAt
  cases hd : Timeline.eligible? ms with
  | none => exact Or.inl ⟨hd, rfl⟩
  | some d =>
    have hlt : now.toNat < d.due.toNat := UInt64.lt_iff_toNat_lt.mp (h d hd)
    have hsub : (d.due - now).toNat = d.due.toNat - now.toNat :=
      UInt64.toNat_sub_of_le _ _ (UInt64.le_iff_toNat_le.mpr (by omega))
    have hlimit : longestPark.toNat = 2147483647 := rfl
    have hmin : (min (d.due - now) longestPark).toNat =
        min (d.due.toNat - now.toNat) 2147483647 := by
      rw [← hsub, ← hlimit, Std.min_eq_if]
      split
      · rename_i hle
        rw [UInt64.le_iff_toNat_le] at hle
        omega
      · rename_i hgt
        rw [UInt64.le_iff_toNat_le] at hgt
        omega
    exact Or.inr ⟨d, _, hd, rfl, hlt, hmin, by omega⟩

theorem WellFormed.scan_parks (h : q.WellFormed)
    (hv : (q.scan now early).value = .parking timeout settled) :
    q.quitting = false ∧ timeout.Waits now q.pending := by
  rcases scan_cases h.sound h.orderly now early with
    ⟨_, he⟩ | ⟨_, _, _, _, _, _, _, _, he, _⟩ | ⟨_, hnone, he⟩
  · rw [he] at hv
    cases hv
  · rw [he] at hv
    cases hv
  · rw [he] at hv
    rcases sleepOrIdle_cases q now early (timeoutAt now q.pending) with
      ⟨_, hs⟩ | ⟨_, _, _, _, hs⟩ | ⟨hq, _, hs⟩
    · rw [hs] at hv
      cases hv
    · rw [hs] at hv
      cases hv
    · rw [hs] at hv
      cases hv
      exact ⟨hq, timeoutAt_waits hnone⟩

end Queue

namespace System

variable {s t u v w : System} {a : Action} {as : List Action} {timeout : Timeout}

/-- The parks among what is seen. -/
def parksIn (xs : List Sight) : List Timeout :=
  xs.filterMap Sight.park?

theorem parksIn_append (xs ys : List Sight) : parksIn (xs ++ ys) = parksIn xs ++ parksIn ys :=
  List.filterMap_append

/-! ### Where a park comes from -/

/-- **A park begins with the call, at the end of a pass, or at a look that finds nothing due.** -/
theorem Step.parks (h : v.Step a w) (hw : v.queue.WellFormed) (hx : .parks timeout ∈ v.sights a w) :
    (a = .call ∧ timeout = .immediate) ∨
    (a = .endPass ∧ v.call = .idle [] ∧ timeout = .immediate) ∨
    (a = .look ∧ v.queue.quitting = false ∧ timeout.Waits v.now v.queue.pending) := by
  rcases h.sights_cases hx with ⟨_, hx⟩ | ⟨rfl, _, ⟨_, hx⟩ | hx⟩ | ⟨settled, rfl, rfl, hx⟩ |
    ⟨rfl, hidle, hx⟩
  · cases hx
  · cases hx
  · exact Or.inl ⟨rfl, Sight.parks.inj hx⟩
  · obtain ⟨settled', hv⟩ := Call.parks_mem_sights.mp hx
    exact Or.inr (Or.inr ⟨rfl, hw.scan_parks hv⟩)
  · exact Or.inr (Or.inl ⟨rfl, hidle, Sight.parks.inj hx⟩)

/-! ### How many polls there are -/

theorem Step.polls_eq (h : s.Step a t) (hw : s.queue.WellFormed) (hne : a ≠ .call) :
    (parksIn (s.sights a t)).count .immediate + t.call.passesOpen =
      s.call.passesOpen + (passesIn (s.sights a t)).length := by
  cases h with
  | operate op => exact Nat.add_comm 0 _
  | tick h => exact Nat.add_comm 0 _
  | call h => exact absurd rfl hne
  | wake h =>
    rw [h]
    rfl
  | @look settled h =>
    simp only [sights, settle, h]
    cases hv : (s.queue.scan s.now settled).value with
    | parking timeout settled' =>
      have hlong := (hw.scan_parks hv).2.ne_immediate
      show [timeout].count .immediate + 0 = 0
      rw [List.count_singleton, if_neg (by simpa using hlong)]
    | awake settled' => rfl
    | idle batch => rfl
    | returned m => rfl
  | idle outcome h =>
    simp only [sights, h]
    cases outcome <;> rfl
  | endPass h =>
    simp only [sights, h]
    rfl

theorem Leads.polls_eq (h : Leads s as t) (hw : s.queue.WellFormed) (hno : .call ∉ as) :
    (parksIn (s.seen as)).count .immediate + t.call.passesOpen =
      s.call.passesOpen + (passesIn (s.seen as)).length := by
  induction h with
  | refl => simp [seen, gather, parksIn, passesIn]
  | @tail u t as a prior hstep ih =>
    simp only [List.mem_append, List.mem_singleton, not_or] at hno
    have hbefore := ih hno.1
    have hlast := (step?_eq_some.mp hstep).polls_eq (prior.wellFormed hw) fun he => hno.2 he.symm
    rw [seen_tail prior hstep, parksIn_append, passesIn_append, List.count_append,
      List.length_append]
    omega

/-- **In a pass, nothing has been seen since it began but the runs of its handlers.** -/
theorem Leads.pass_seen (h : Leads s as t) (hno : .call ∉ as) (hs : s.call.passesOpen = 0)
    {left : List IdleHandler} (ht : t.call = .idle left) :
    ∃ xs ran, s.seen as = xs ++ .passes (ran ++ left) :: ran.map .runs := by
  induction h generalizing left with
  | refl =>
    rw [ht] at hs
    cases hs
  | @tail u t as a prior hstep ih =>
    simp only [List.mem_append, List.mem_singleton, not_or] at hno
    rw [seen_tail prior hstep]
    cases step?_eq_some.mp hstep with
    | operate op =>
      obtain ⟨xs, ran, he⟩ := ih hno.1 ht
      refine ⟨xs, ran, ?_⟩
      rw [he]
      exact List.append_nil _
    | tick hle =>
      obtain ⟨xs, ran, he⟩ := ih hno.1 ht
      refine ⟨xs, ran, ?_⟩
      rw [he]
      exact List.append_nil _
    | call hc => exact absurd rfl hno.2
    | wake hc => cases ht
    | @look settled hc =>
      have hv : (u.queue.scan u.now settled).value = .idle left := ht
      refine ⟨s.seen as, [], ?_⟩
      simp only [sights, settle, hv, Call.sights, List.nil_append, List.map_nil]
    | @idle i rest outcome hc =>
      obtain rfl : rest = left := by
        have hvalue := (u.queue.afterIdle_spec i rest outcome).1
        exact Call.idle.inj (hvalue.symm.trans ht)
      obtain ⟨xs, ran, he⟩ := ih hno.1 hc
      refine ⟨xs, ran ++ [i], ?_⟩
      simp only [sights, hc, he, List.append_assoc, List.cons_append, List.nil_append,
        List.map_append, List.map_cons, List.map_nil]
    | endPass hc => cases ht

/-- **The consumer neither spins nor oversleeps.**  A call on a queue that has not been disposed of
begins with a poll.  Whatever is done meanwhile, at most one more poll comes in it, and what is seen
right before that one is an idle pass that has run all its handlers.  Every other park comes of a
look that has found the queue not quitting and nothing due that could be taken; it has no end if
nothing could be taken at all, and otherwise lasts until the next message is due, which is a
millisecond at least, or for the longest time that a park may last. -/
theorem call_neither_spins_nor_oversleeps (h : s.Reachable) (hd : s.queue.disposed = false)
    (hcall : s.step? .call = some t) (hl : Leads t as u) (hno : .call ∉ as) :
    s.seen (.call :: as) = .parks .immediate :: t.seen as ∧
    (parksIn (t.seen as)).count .immediate ≤ 1 ∧
    ∀ before a after v w timeout, as = before ++ a :: after → Leads t before v →
      v.step? a = some w → .parks timeout ∈ v.sights a w →
        (a = .endPass ∧ timeout = .immediate ∧
          ∃ xs batch, t.seen before = xs ++ .passes batch :: batch.map .runs) ∨
        (a = .look ∧ v.queue.quitting = false ∧ timeout.Waits v.now v.queue.pending) := by
  have hs := step?_eq_some.mp hcall
  have hw : t.queue.WellFormed := ((Leads.refl s).tail hcall).wellFormed h.queue.wellFormed
  have hstart : t.call = .parking .immediate false := by
    cases hs with
    | call hc => exact if_neg (by simp [hd])
  refine ⟨?_, ?_, fun before a after v w timeout has hv hstep hx => ?_⟩
  · simp only [seen, gather, hcall, sights, hstart, Call.sights, List.singleton_append]
  · have hpolls := hl.polls_eq hw hno
    have hpasses := hl.passes_le hno
    rw [hstart] at hpolls hpasses
    simp only [Call.passesOpen, Call.passesLeft] at hpolls hpasses
    omega
  · have hbefore : .call ∉ before := fun hmem => hno (has ▸ List.mem_append_left _ hmem)
    rcases (step?_eq_some.mp hstep).parks (hv.wellFormed hw) hx with
      ⟨rfl, _⟩ | ⟨rfl, hidle, hpoll⟩ | ⟨rfl, hq, hwaits⟩
    · exact absurd (has ▸ List.mem_append_right before List.mem_cons_self) hno
    · obtain ⟨xs, batch, he⟩ := hv.pass_seen hbefore (by rw [hstart]; rfl) hidle
      rw [List.append_nil] at he
      exact Or.inl ⟨rfl, hpoll, xs, batch, he⟩
    · exact Or.inr ⟨rfl, hq, hwaits⟩

/-- A barrier stalls the queue until it is removed; then the idle handler runs, and a message that
is due in more than the longest time that a park may last is waited for in two parks. -/
theorem call_neither_spins_nor_oversleeps_in_five_parks :
    let news : Message := { target := some ⟨0, "news"⟩ }
    let sets : List Action := [.operate (.addIdle 1), .operate (.postBarrier 5)]
    let before : List Action := [.wake, .look, .operate (.enqueue news 3000000000),
      .operate (.removeBarrier 0), .wake, .look, .idle .keep, .endPass, .wake, .look,
      .tick 2999999995, .wake]
    ∃ s t v w, Leads (initial true 10) sets s ∧ s.step? .call = some t ∧ Leads t before v ∧
      v.step? .look = some w ∧ parksIn (s.seen (.call :: (before ++ [.look]))) =
        [.immediate, .indefinite, .immediate, .millis 2147483647, .millis 5] ∧
      (parksIn (t.seen (before ++ [.look]))).count .immediate ≤ 1 ∧ v.queue.quitting = false ∧
      (Timeout.millis 5).Waits v.now v.queue.pending := by
  intro news sets before
  obtain ⟨s, t, v, w, hs, ht, hv, hw, hd, hparks, hlast⟩ : ∃ s t v w : System,
      sets.foldlM step? (initial true 10) = some s ∧ s.step? .call = some t ∧
        before.foldlM step? t = some v ∧ v.step? .look = some w ∧ s.queue.disposed = false ∧
        parksIn (s.seen (.call :: (before ++ [.look]))) =
          [.immediate, .indefinite, .immediate, .millis 2147483647, .millis 5] ∧
        .parks (.millis 5) ∈ v.sights .look w := by
    let s : System := (sets.foldlM step? (initial true 10)).getD {}
    let t : System := (s.step? .call).getD {}
    let v : System := (before.foldlM step? t).getD {}
    refine ⟨s, t, v, (v.step? .look).getD {}, ?_⟩
    decide +kernel
  rw [← leads_iff] at hs hv
  obtain ⟨_, hpolls, hpark⟩ := call_neither_spins_nor_oversleeps ⟨true, 10, sets, hs⟩ hd ht
    (hv.tail hw) (by simp [before])
  rcases hpark before .look [] v w (.millis 5) rfl hv hw hlast with ⟨hno, _⟩ | ⟨_, hq, hwaits⟩
  · cases hno
  · exact ⟨s, t, v, w, hs, ht, hv, hw, hparks, hpolls, hq, hwaits⟩

end System

end Agenda
