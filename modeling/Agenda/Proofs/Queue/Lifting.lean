import Agenda.Proofs.Queue.Isolation
import Agenda.Proofs.Queue.Tokens

/-!
# A barrier that is lifted

A barrier is posted, messages are sent, removed and asked for, and the barrier is removed again.
What is pending then, and what was answered meanwhile, is what it would have been without the
barrier.

Two queues are kept side by side.  `Barred token q p` says that `q` has one barrier more than `p`,
with this token, and that nothing else that is pending tells them apart.  Posting a barrier under a
token that is not in use sets two queues apart in this way (`barred_postBarrier`), every errand
about messages gets one answer from both and leaves them so (`Barred.serve`), and removing the
barrier makes them the same again (`Barred.removeBarrier`).

The place of a message is found by a walk past the barrier, wherever it stands.  That the walk comes
to the same place without it is `filter_link`: a barrier is left out of the list by a choice among
the messages, and insertion commutes with every choice.
-/

namespace Agenda

/-- The errand is about messages, and about no barrier. -/
def Errand.isAboutMessages : Errand → Bool
  | .postBarrier _ | .removeBarrier _ => false
  | _ => true

theorem Message.token?_of_not_isBarrier {m : Message} (h : m.isBarrier = false) :
    m.token? = none := by
  rw [token?, h]
  rfl

namespace Queue

variable {q p : Queue} {token : Token} {f : Filter}

/-- The queue `q` has one pending barrier more than `p`, and it has this token. -/
structure Barred (token : Token) (q p : Queue) : Prop where
  quitting : q.quitting = p.quitting
  pending : q.pending.filter (·.token? ≠ some token) = p.pending
  once : q.pending.countP (·.token? = some token) = 1

theorem token?_ne_of_accepts {m : Message} (h : f.accepts m = true) (token : Token) :
    m.token? ≠ some token := by
  intro htoken
  rw [accepts_of_isBarrier f (isBarrier_of_token? htoken)] at h
  cases h

theorem barred_postBarrier (h : q.WellFormed) (hq : q.quitting = false)
    (hfresh : ∀ m ∈ q.pending, m.token? ≠ some q.nextToken) (w : Time) :
    (q.postBarrier w).value = some q.nextToken ∧
      Barred q.nextToken (q.postBarrier w).state q := by
  rcases postBarrier_cases q w with ⟨_, hq', _⟩ | ⟨hv, _, hs, _⟩
  · rw [hq] at hq'
    cases hq'
  · let q' : Queue := { q with nextToken := q.nextToken + 1 }
    have htoken : (Message.barrier q.nextToken w).token? = some q.nextToken := rfl
    refine ⟨hv, ?_, ?_, ?_⟩
    · rw [hs, link_quitting]
    · rw [hs]
      have hrest : q'.pending.filter (·.token? ≠ some q.nextToken) = q.pending :=
        List.filter_eq_self.mpr fun m hm => by simpa using hfresh m hm
      rw [filter_link (q := q') h.sound h.orderly.ascending, if_neg (by simp [htoken]), hrest]
    · have hperm : (q'.link (.barrier q.nextToken w)).1.pending.Perm
          (.barrier q.nextToken w :: q.pending) :=
        link_perm (q := q') h.sound _
      have hnone : q.pending.countP (·.token? = some q.nextToken) = 0 :=
        List.countP_eq_zero.mpr fun m hm => by simpa using hfresh m hm
      rw [hs, hperm.countP_eq, List.countP_cons_of_pos (by simp [htoken]), hnone]

namespace Barred

theorem link {m : Message} (h : Barred token q p) (hq : q.WellFormed) (hp : p.WellFormed)
    (hm : m.isBarrier = false) : Barred token (q.link m).1 (p.link m).1 := by
  have htoken := m.token?_of_not_isBarrier hm
  refine ⟨?_, ?_, ?_⟩
  · rw [link_quitting, link_quitting, h.quitting]
  · rw [filter_link hq.sound hq.orderly.ascending, if_pos (by simp [htoken]), h.pending,
      link_pending hp.sound]
  · rw [(link_perm hq.sound m).countP_eq, List.countP_cons_of_neg (by simp [htoken]), h.once]

theorem enqueue (h : Barred token q p) (hq : q.WellFormed) (hp : p.WellFormed) (m : Message)
    (t : Time) : Barred token (q.enqueue m t).state (p.enqueue m t).state := by
  rcases enqueue_both h.quitting m t with ⟨hs, hs'⟩ | ⟨hm, hs, hs'⟩
  · rw [hs, hs']
    exact h
  · rw [hs, hs']
    exact h.link hq hp hm

theorem accepted (h : Barred token q p) (f : Filter) :
    q.pending.filter f.accepts = p.pending.filter f.accepts := by
  rw [← h.pending, List.filter_filter]
  refine List.filter_congr fun m _ => ?_
  cases ha : f.accepts m with
  | false => rfl
  | true => simp [token?_ne_of_accepts ha token]

theorem remove (h : Barred token q p) (hq : q.WellFormed) (hp : p.WellFormed) (f : Filter) :
    Barred token (q.remove f).state (p.remove f).state := by
  refine ⟨h.quitting, ?_, ?_⟩
  · rw [filter_remove hq.sound, h.pending, pending_remove hp.sound]
  · -- no filter takes the barrier
    rw [pending_remove hq.sound, List.countP_filter, ← h.once]
    refine List.countP_congr fun m _ => ?_
    simp only [Bool.and_eq_true, decide_eq_true_eq, Bool.not_eq_true', and_iff_left_iff_imp]
    intro htoken
    exact accepts_of_isBarrier f (isBarrier_of_token? htoken)

/-- **An errand about messages gets one answer from both queues**, and leaves them barred. -/
theorem serve {e : Errand} (h : Barred token q p) (hq : q.WellFormed) (hp : p.WellFormed)
    (now : Time) (he : e.isAboutMessages = true) :
    (q.serve now e).1 = (p.serve now e).1 ∧ Barred token (q.serve now e).2 (p.serve now e).2 := by
  rcases serve_cases now e with ⟨m, t, -, hserve⟩ | ⟨f, rfl⟩ | ⟨f, rfl⟩ | ⟨t, rfl⟩ | ⟨token', rfl⟩
  · rw [hserve, hserve]
    have hv := enqueue_value h.quitting m t
    exact ⟨congrArg (fun v => Errand.Answer.result (.sent v)) hv, h.enqueue hq hp m t⟩
  · have hv := remove_value_congr hq.sound hp.sound (h.accepted f)
    exact ⟨congrArg (fun n => Errand.Answer.result (.removed n)) hv, h.remove hq hp f⟩
  · exact ⟨congrArg Errand.Answer.found (has_congr (h.accepted f)), h⟩
  · cases he
  · cases he

theorem serveAll {es : List (Time × Errand)} (h : Barred token q p) (hq : q.WellFormed)
    (hp : p.WellFormed) (hes : ∀ e ∈ es, e.2.isAboutMessages = true) :
    (q.serveAll es).1 = (p.serveAll es).1 ∧
      Barred token (q.serveAll es).2 (p.serveAll es).2 := by
  induction es generalizing q p with
  | nil => exact ⟨rfl, h⟩
  | cons head es ih =>
    obtain ⟨now, e⟩ := head
    obtain ⟨hanswer, h'⟩ := h.serve hq hp now (hes _ List.mem_cons_self)
    obtain ⟨hanswers, hend⟩ := ih h' (hq.serve now e) (hp.serve now e)
      fun e' he' => hes e' (List.mem_cons_of_mem _ he')
    rw [serveAll_cons, serveAll_cons, hanswer, hanswers]
    exact ⟨rfl, hend⟩

/-- **Removing the barrier makes the queues the same.** -/
theorem removeBarrier (h : Barred token q p) (hq : q.WellFormed) :
    (q.removeBarrier token).value = .ok () ∧
      (q.removeBarrier token).state.pending = p.pending := by
  rcases removeBarrier_cases hq.sound token with
    ⟨_, _, _, hnone⟩ | ⟨hv, xs, b, ys, arena, hpending, hb, hxs, hs, _, hl, _⟩
  · have hzero : q.pending.countP (·.token? = some token) = 0 :=
      List.countP_eq_zero.mpr fun m hm => by simpa using hnone m hm
    rw [h.once] at hzero
    cases hzero
  · -- what stands in front of the barrier has another token, and so has what stands behind it
    have honce := h.once
    have hkept := h.pending
    rw [hpending] at honce hkept
    rw [List.countP_append, List.countP_cons_of_pos (by simpa using hb)] at honce
    have hys : ∀ y ∈ ys, y.token? ≠ some token := by
      have hzero : ys.countP (·.token? = some token) = 0 := by omega
      intro y hy
      simpa using List.countP_eq_zero.mp hzero y hy
    refine ⟨hv, ?_⟩
    rw [hs, ← hkept, List.filter_append, List.filter_cons_of_neg (by simpa using hb),
      List.filter_eq_self.mpr fun x hx => by simpa using hxs x hx,
      List.filter_eq_self.mpr fun y hy => by simpa using hys y hy]
    exact hl

end Barred

theorem WellFormed.serveAll (h : q.WellFormed) (es : List (Time × Errand)) :
    (q.serveAll es).2.WellFormed := by
  induction es generalizing q with
  | nil => exact h
  | cons e es ih => exact ih (h.serve e.1 e.2)

/-- **A barrier that is lifted leaves no trace.**  A queue that some run reaches, and that is not
quitting, has posted fewer than 2³² barriers.  A barrier is posted at it for any time, then any
errands about messages are run, each at a clock reading of its own, and then the barrier is removed
by its token.  The errands get the answers that they get without the barrier, the removal is done,
and the same messages and barriers are pending in the same order. -/
theorem lifted_barrier_leaves_no_trace {quittable : Bool} {ts : List Turn} {w : Time}
    {es : List (Time × Errand)} (hq : (({ quittable } : Queue).turns ts).quitting = false)
    (hfew : (({ quittable } : Queue).posted ts).length < 2 ^ 32)
    (hes : ∀ e ∈ es, e.2.isAboutMessages = true) :
    let q := ({ quittable } : Queue).turns ts
    let barred := (q.postBarrier w).state.serveAll es
    let plain := q.serveAll es
    ∃ token, (q.postBarrier w).value = some token ∧ barred.1 = plain.1 ∧
      (barred.2.removeBarrier token).value = .ok () ∧
      (barred.2.removeBarrier token).state.pending = plain.2.pending := by
  intro q barred plain
  have hw : q.WellFormed := turns_wellFormed (wellFormed_fresh quittable) ts
  have hw' := hw.postBarrier w
  obtain ⟨hv, hbarred⟩ :=
    barred_postBarrier hw hq (fun m hm => Ledger.token?_ne_nextToken hfew hm) w
  obtain ⟨hanswers, hend⟩ := hbarred.serveAll hw' hw hes
  exact ⟨q.nextToken, hv, hanswers, hend.removeBarrier (hw'.serveAll es)⟩

/-- Another barrier is pending, the barrier comes between messages for its own time, its neighbours
on both sides are removed, and one message cannot be sent. -/
theorem lifted_barrier_leaves_no_trace_between :
    let g : Target := ⟨0, "news"⟩
    let plain : Handler := { target := g }
    let ts : List Turn := [.operate 1 (.postBarrier 2), .operate 1 (.enqueue (.coded g 1) 5),
      .operate 1 (.enqueue (.coded g 2) 7), .look 1 false]
    let es : List (Time × Errand) := [(3, .send plain (.coded g 3) (.exactly 5)),
      (3, .enqueue (.coded g 4) 5), (3, .remove (plain.coded 1)), (3, .remove (plain.coded 3)),
      (4, .post plain 9 .front), (4, .has (plain.posts 9)), (5, .sendCode plain 6),
      (5, .enqueue { Message.coded g 5 with inUse := true } 6)]
    let q := ({} : Queue).turns ts
    let barred := (q.postBarrier 5).state.serveAll es
    q.quitting = false ∧ (∀ e ∈ es, e.2.isAboutMessages = true) ∧ barred.2.pending.length = 6 ∧
      barred.1 = (q.serveAll es).1 ∧ (barred.2.removeBarrier 1).value = .ok () ∧
      (barred.2.removeBarrier 1).state.pending = (q.serveAll es).2.pending ∧
      (q.serveAll es).2.pending.map (fun m => (m.token?, m.callback, m.what, m.due)) =
        [(none, some 9, 0, 0), (some 0, none, 0, 2), (none, none, 4, 5), (none, none, 6, 5),
          (none, none, 2, 7)] := by
  intro g plain ts es q barred
  have hq : q.quitting = false := by decide +kernel
  have hfew : (({} : Queue).posted ts).length < 2 ^ 32 := by decide +kernel
  have hes : ∀ e ∈ es, e.2.isAboutMessages = true := by decide +kernel
  have htoken : (q.postBarrier 5).value = some 1 := by decide +kernel
  have hlength : barred.2.pending.length = 6 := by decide +kernel
  have hpending : (q.serveAll es).2.pending.map (fun m => (m.token?, m.callback, m.what, m.due)) =
      [(none, some 9, 0, 0), (some 0, none, 0, 2), (none, none, 4, 5), (none, none, 6, 5),
        (none, none, 2, 7)] := by
    decide +kernel
  obtain ⟨token, hv, hanswers, hdone, hsame⟩ := lifted_barrier_leaves_no_trace (w := 5) hq hfew hes
  obtain rfl : token = 1 := Option.some.inj (hv.symm.trans htoken)
  exact ⟨hq, hes, hlength, hanswers, hdone, hsame, hpending⟩

end Queue

end Agenda
