import Agenda.Errand
import Agenda.Proofs.System.Quitting

/-!
# Refusals

What a queue refuses, and that a refusal changes nothing.  A message can be sent once: the queue
marks what it takes, whoever holds the message can change everything in it but the mark
(`inUse_edits`), and everything that the consumer is answered with bears it (`Leads.answer_taken`).
Only a duplicate, which is a message of its own, can be sent again.

The causes of a refusal have an order (`Queue.enqueue_answer`).  `perform_refused` goes through all
operations that can be refused or come too late: each leaves the queue as it was and wakes nobody,
and so does a quit that comes again (`Queue.quit_again`).
-/

namespace Agenda

/-- The answer says that nothing was done: it is a refusal, or that the operation came too late. -/
def Operation.Result.refuses : Operation.Result → Bool
  | .sent (.ok true) | .posted (some _) | .removed _ | .done (.ok _) => false
  | .sent _ | .posted none | .done (.error _) => true

namespace Message

variable {m : Message}

@[simp] theorem inUse_edit (m : Message) (change : Edit) : (m.edit change).inUse = m.inUse := by
  cases change <;> rfl

theorem isBarrier_edit (h : m.isBarrier = false) (change : Edit) :
    (m.edit change).isBarrier = false := by
  cases change with
  | target target => rfl
  | _ => exact h

theorem inUse_edits (m : Message) (changes : List Edit) : (m.edits changes).inUse = m.inUse := by
  induction changes generalizing m with
  | nil => rfl
  | cons change changes ih => exact (ih (m.edit change)).trans (m.inUse_edit change)

theorem isBarrier_edits (h : m.isBarrier = false) (changes : List Edit) :
    (m.edits changes).isBarrier = false := by
  induction changes generalizing m with
  | nil => exact h
  | cons change changes ih => exact ih (isBarrier_edit h change)

end Message

theorem Handler.exists_sendFor_eq (g : Handler) (now : Time) (m : Message) (moment : Moment) :
    ∃ due, g.sendFor now m moment = .enqueue (g.adopt m) due := by
  cases moment <;> exact ⟨_, rfl⟩

namespace Queue

variable {q : Queue} {m : Message}

/-! ### What is refused -/

theorem enqueue_inUse (hm : m.isBarrier = false) (hu : m.inUse = true) (q : Queue) (due : Time) :
    (q.enqueue m due).value = .error (.inUse m) := by
  refine (enqueue_answer_iff q m due).2.1.mpr ⟨fun ht => ?_, hu⟩
  rw [Message.isBarrier, ht] at hm
  cases hm

theorem enqueue_duplicate (hm : m.isBarrier = false) (hq : q.quitting = false) (due : Time) :
    (q.enqueue m.duplicate due).value = .ok true := by
  refine (enqueue_answer_iff q m.duplicate due).2.2.2.mpr ⟨fun ht => ?_, rfl, hq⟩
  rw [Message.isBarrier, show m.target = none from ht] at hm
  cases hm

theorem sendFor_inUse (hu : m.inUse = true) (q : Queue) (now : Time) (g : Handler)
    (moment : Moment) :
    (q.perform now (g.sendFor now m moment)).value = .sent (.error (.inUse (g.adopt m))) := by
  obtain ⟨due, he⟩ := g.exists_sendFor_eq now m moment
  have hu' : (g.adopt m).inUse = true := hu
  rw [he]
  exact congrArg Operation.Result.sent (enqueue_inUse rfl hu' q due)

theorem sendFor_duplicate (hq : q.quitting = false) (m : Message) (now : Time) (g : Handler)
    (moment : Moment) :
    (q.perform now (g.sendFor now m.duplicate moment)).value = .sent (.ok true) := by
  obtain ⟨due, he⟩ := g.exists_sendFor_eq now m.duplicate moment
  rw [he]
  exact congrArg Operation.Result.sent
    ((enqueue_answer_iff q _ due).2.2.2.mpr ⟨Option.some_ne_none _, rfl, hq⟩)

/-! ### What a refusal changes -/

/-- **An operation that is refused or comes too late changes nothing** and wakes nobody. -/
theorem perform_refused {now : Time} {op : Operation}
    (h : (q.perform now op).value.refuses = true) :
    (q.perform now op).state = q ∧ (q.perform now op).wakes = false := by
  cases op with
  | enqueue m due =>
    rcases enqueue_cases q m due with ⟨_, hs, hk⟩ | ⟨hok, _⟩
    · exact ⟨hs, hk⟩
    · rw [show (q.perform now (.enqueue m due)).value = .sent (q.enqueue m due).value from rfl,
        hok] at h
      cases h
  | postBarrier due =>
    rcases postBarrier_cases q due with ⟨_, _, hs, hk⟩ | ⟨hsome, _⟩
    · exact ⟨hs, hk⟩
    · have hvalue : (q.perform now (.postBarrier due)).value = .posted (q.postBarrier due).value :=
        rfl
      rw [hvalue, hsome] at h
      cases h
  | removeBarrier token =>
    simp only [perform, removeBarrier, Reply.toResult] at h ⊢
    split at h
    · exact ⟨rfl, rfl⟩
    · cases h
  | remove f => cases h
  | addIdle i => cases h
  | removeIdle i => cases h
  | quit safe =>
    cases hq : q.quittable with
    | false =>
      have hquit : q.quit now safe = ⟨q, .error .quitForbidden, false, []⟩ := by simp [quit, hq]
      exact ⟨congrArg Reply.state hquit, congrArg Reply.wakes hquit⟩
    | true =>
      simp only [perform, quit, Reply.toResult, hq, Bool.not_true, Bool.false_eq_true,
        ↓reduceIte] at h
      split at h <;> cases h

end Queue

namespace System

variable {s t : System} {a : Action} {as : List Action} {m : Message}

/-! ### What the consumer is answered with -/

theorem Step.answer_taken (h : s.Step a t) (hw : s.queue.WellFormed)
    (hx : .answers (some m) ∈ s.sights a t) : m.isBarrier = false ∧ m.inUse = true := by
  rcases h.sights_cases hx with
    ⟨_, hx⟩ | ⟨_, _, ⟨_, hx⟩ | hx⟩ | ⟨settled, rfl, rfl, hx⟩ | ⟨_, _, hx⟩
  · cases hx
  · cases hx
  · cases hx
  · obtain ⟨ahead, rest, ht⟩ := hw.scan_took (Call.answers_mem_sights.mp hx)
    refine ⟨ht.mayRun.1, hw.orderly.inUse m ?_⟩
    rw [ht.pending]
    simp
  · cases hx

/-- **Every message that the consumer is answered with is marked.** -/
theorem Leads.answer_taken (h : Leads s as t) (hw : s.queue.WellFormed)
    (hx : .answers (some m) ∈ s.seen as) : m.isBarrier = false ∧ m.inUse = true := by
  induction h with
  | refl => simp [seen, gather] at hx
  | @tail u t as a prior hstep ih =>
    rw [seen_tail prior hstep] at hx
    rcases List.mem_append.mp hx with hx | hx
    · exact ih hx
    · exact (step?_eq_some.mp hstep).answer_taken (prior.wellFormed hw) hx

theorem Leads.quit_again {quittable : Bool} {start : Time} {before after : List Action} {u : System}
    {safe : Bool} (h : Leads (initial quittable start) (before ++ .operate (.quit safe) :: after) s)
    (hu : Leads (initial quittable start) before u) (hok : (u.queue.quit u.now safe).value = .ok ())
    (again : Bool) : s.queue.quit s.now again = ⟨s.queue, .ok (), false, []⟩ := by
  have hfresh := Queue.wellFormed_fresh quittable
  have hw := hu.wellFormed hfresh
  -- what follows the quit
  obtain ⟨v, hv, hrest⟩ : ∃ v, u.step? (.operate (.quit safe)) = some v ∧ Leads v after s := by
    rw [leads_iff, List.foldlM_append, leads_iff.mp hu] at h
    exact ⟨_, rfl, leads_iff.mpr h⟩
  have hvs := step?_eq_some.mp hv
  have hquitting : v.queue.quitting = true := by
    cases hvs
    exact Queue.quitting_of_quit hw.sound hok
  have hquittable : u.queue.quittable = true := by
    rcases Queue.quit_cases hw.sound u.now safe with ⟨_, _, ⟨_, hne⟩ | ⟨hq, _⟩⟩ | ⟨_, hq, _⟩
    · exact absurd hok hne
    · obtain ⟨_, _, _, w, _, hw', _, hyes⟩ := hu.exists_quit hfresh rfl hq
      rw [hu.quittable hfresh, ← hw'.quittable hfresh, hyes]
    · exact hq
  have hsame : s.queue.quittable = true := by
    rw [h.quittable hfresh, ← hu.quittable hfresh, hquittable]
  exact Queue.quit_again hsame (hrest.quitting (hvs.wellFormed hw) hquitting) s.now again

/-- **What is refused changes nothing, and no message is sent twice.**  In whatever course of
events, all that is pending and all that the consumer was answered with is marked as taken, and no
change of a message touches the mark.  So a message that the consumer was answered with is refused
ever after, changed or not, by whatever queue and through whatever handler, while a duplicate of it
is taken by any queue that is not quitting.  The causes of a refusal have an order.  And a refusal,
an operation that comes too late and a quit that comes again leave the queue as it was, and wake
nobody. -/
theorem refused_and_sent_once {quittable : Bool} {start : Time}
    (h : Leads (initial quittable start) as s) :
    ((∀ m, m ∈ s.queue.pending ∨ .answers (some m) ∈ (initial quittable start).seen as →
        m.inUse = true) ∧
      ∀ (m : Message) changes, (m.edits changes).inUse = m.inUse) ∧
    (∀ m changes, .answers (some m) ∈ (initial quittable start).seen as →
      ∀ (q : Queue) now due (g : Handler) moment,
        (q.enqueue (m.edits changes) due).value = .error (.inUse (m.edits changes)) ∧
        (q.perform now (g.sendFor now (m.edits changes) moment)).value =
          .sent (.error (.inUse (g.adopt (m.edits changes)))) ∧
        (q.quitting = false → (q.enqueue (m.edits changes).duplicate due).value = .ok true ∧
          (q.perform now (g.sendFor now (m.edits changes).duplicate moment)).value =
            .sent (.ok true))) ∧
    (∀ (q : Queue) m due,
      ((q.enqueue m due).value = .error .noTarget ↔ m.target = none) ∧
      ((q.enqueue m due).value = .error (.inUse m) ↔ m.target ≠ none ∧ m.inUse = true) ∧
      ((q.enqueue m due).value = .ok false ↔
        m.target ≠ none ∧ m.inUse = false ∧ q.quitting = true) ∧
      ((q.enqueue m due).value = .ok true ↔
        m.target ≠ none ∧ m.inUse = false ∧ q.quitting = false)) ∧
    (∀ (q : Queue) now op, (q.perform now op).value.refuses = true →
      (q.perform now op).state = q ∧ (q.perform now op).wakes = false) ∧
    ∀ before safe after u, as = before ++ .operate (.quit safe) :: after →
      Leads (initial quittable start) before u → (u.queue.quit u.now safe).value = .ok () →
        ∀ again, s.queue.quit s.now again = ⟨s.queue, .ok (), false, []⟩ := by
  have hfresh : (initial quittable start).queue.WellFormed := Queue.wellFormed_fresh quittable
  refine ⟨⟨?_, Message.inUse_edits⟩, ?_, Queue.enqueue_answer_iff,
    fun q now op => Queue.perform_refused, ?_⟩
  · rintro m (hm | hm)
    · exact (h.wellFormed hfresh).orderly.inUse m hm
    · exact (h.answer_taken hfresh hm).2
  · intro m changes hm q now due g moment
    obtain ⟨hbarrier, huse⟩ := h.answer_taken hfresh hm
    have hbarrier' := Message.isBarrier_edits hbarrier changes
    have huse' := (m.inUse_edits changes).trans huse
    exact ⟨Queue.enqueue_inUse hbarrier' huse' q due, Queue.sendFor_inUse huse' q now g moment,
      fun hq => ⟨Queue.enqueue_duplicate hbarrier' hq due,
        Queue.sendFor_duplicate hq _ now g moment⟩⟩
  · rintro before safe after u rfl hu hok again
    exact h.quit_again hu hok again

/-- A message is taken from a queue that then quits safely with another one pending. Changed in four
ways it is refused, and its duplicate is not; a barrier comes too late, and so does another quit. -/
theorem refused_and_sent_once_after_quit :
    let news : Message := { target := some ⟨0, "news"⟩, payload := some 4 }
    let taken : Message := { news with due := 5, inUse := true }
    let changes : List Message.Edit := [.async true, .target ⟨1, "other"⟩, .noPayload, .arg1 3]
    let start := initial true 10
    let before : List Action := [.operate (.enqueue news 5), .call, .wake, .look,
      .operate (.enqueue news 7)]
    ∃ s, Leads start (before ++ [Action.operate (.quit true)]) s ∧
      .answers (some taken) ∈ start.seen (before ++ [Action.operate (.quit true)]) ∧
      { news with due := 7, inUse := true } ∈ s.queue.pending ∧ taken.inUse = true ∧
      (({} : Queue).enqueue (taken.edits changes) 30).value =
        .error (.inUse (taken.edits changes)) ∧
      (({} : Queue).enqueue (taken.edits changes).duplicate 30).value = .ok true ∧
      (s.queue.perform s.now (.postBarrier 3)).state = s.queue ∧
      s.queue.quit s.now false = ⟨s.queue, .ok (), false, []⟩ := by
  intro news taken changes start before
  obtain ⟨u, s, hu, hs, hok, hseen, hpending, hlate⟩ : ∃ u s : System,
      before.foldlM step? start = some u ∧
        (before ++ [Action.operate (.quit true)]).foldlM step? start = some s ∧
        (u.queue.quit u.now true).value = .ok () ∧
        .answers (some taken) ∈ start.seen (before ++ [Action.operate (.quit true)]) ∧
        { news with due := 7, inUse := true } ∈ s.queue.pending ∧
        (s.queue.perform s.now (.postBarrier 3)).value.refuses = true := by
    refine ⟨(before.foldlM step? start).getD {},
      ((before ++ [Action.operate (.quit true)]).foldlM step? start).getD {}, ?_⟩
    decide +kernel
  rw [← leads_iff] at hu hs
  obtain ⟨⟨hmarked, _⟩, hreturned, _, hrefused, hagain⟩ := refused_and_sent_once hs
  obtain ⟨hagainst, _, hduplicate⟩ :=
    hreturned taken changes hseen {} 10 30 { target := ⟨2, "desk"⟩ } .now
  exact ⟨s, hs, hseen, hpending, hmarked taken (Or.inr hseen), hagainst, (hduplicate rfl).1,
    (hrefused s.queue s.now _ hlate).1, hagain before true [] u rfl hu hok false⟩

end System

end Agenda
