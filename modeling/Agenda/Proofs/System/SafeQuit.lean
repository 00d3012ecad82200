import Agenda.Proofs.System.Quitting

/-!
# What a safe quit keeps

A safe quit discards what is not due and keeps the rest in line.  From then on nothing is discarded
before the consumer is told that there are no more messages (`Leads.discarded`), so by then a kept
message was returned or removed or is still pending.  A look that ends a call without a message
leaves a message pending only behind a barrier (`Step.held_back`), and what is behind it is lost.
-/

namespace Agenda

/-- An entry in line that a barrier at the front keeps from being returned. -/
def Ledger.HeldBack (L : Ledger) (e : Entry) : Prop :=
  e ∈ L.line ∧ e.message.async = false ∧ ∃ b ∈ L.line.head?, b.message.isBarrier = true

namespace System

open Ledger (discarded_note)

variable {s t u : System} {a : Action} {as : List Action} {L : Ledger} {e : Entry}

/-! ### Until the end -/

theorem Step.discarded (h : s.Step a t) (hq : s.queue.quitting = true)
    (hx : .answers none ∉ s.sights a t)
    (hd : (.discarded, e) ∈ (L.noteAll s.queue (s.turnOf a t)).departed) :
    (.discarded, e) ∈ L.departed := by
  cases h with
  | operate op =>
    rcases discarded_note hd with hd | ⟨_, _, _, hno⟩ | ⟨_, _, he, _⟩
    · exact hd
    · rw [hq] at hno
      cases hno
    · cases he
  | tick h => exact hd
  | call h => exact hd
  | wake h => exact hd
  | look h =>
    simp only [turnOf, h] at hd
    rcases discarded_note hd with hd | ⟨_, _, he, _⟩ | ⟨now, settled, he, hv⟩
    · exact hd
    · cases he
    · cases he
      simp [sights, settle, hv, Call.sights] at hx
  | idle outcome h =>
    simp only [turnOf, h] at hd
    exact hd
  | endPass h =>
    simp only [turnOf, h] at hd
    exact hd

theorem Leads.discarded (h : Leads s as t) (hw : s.queue.WellFormed)
    (hq : s.queue.quitting = true) (hno : .answers none ∉ s.seen as)
    (hd : (.discarded, e) ∈ (L.noteAll s.queue (s.turnsOf as)).departed) :
    (.discarded, e) ∈ L.departed := by
  induction h with
  | refl => exact hd
  | @tail u t as a prior hstep ih =>
    rw [seen_tail prior hstep, List.mem_append, not_or] at hno
    rw [turnsOf_tail prior hstep, Ledger.noteAll_append, ← prior.queue_eq] at hd
    exact ih hno.1 ((step?_eq_some.mp hstep).discarded (prior.quitting hw hq) hno.2 hd)

/-- **What is in line when a queue starts to quit** is returned, removed or still in line as long as
the consumer has not been told. -/
theorem Leads.kept (h : Leads s as t) (hw : s.queue.WellFormed) (hq : s.queue.quitting = true)
    (hL : L.Tells s.queue.pending) (hno : .answers none ∉ s.seen as) :
    let M := L.noteAll s.queue (s.turnsOf as)
    ∃ es, M.returned = L.returned ++ es ∧
      es.map Entry.message = (answersIn (s.seen as)).reduceOption ∧
      ∀ e ∈ L.line, (.removed, e) ∈ M.departed ∨ es.count e = 1 ∨ e ∈ M.line := by
  intro M
  have hM : M.Tells (s.queue.turns (s.turnsOf as)).pending := hL.noteAll hw _
  obtain ⟨es, hes, hmessages⟩ := h.returned hw hL
  refine ⟨es, hes, hmessages, fun e he => ?_⟩
  have haccepted : e ∈ M.accepted := by
    obtain ⟨new, hnew⟩ := Ledger.accepted_noteAll L s.queue (s.turnsOf as)
    show e ∈ (L.noteAll s.queue (s.turnsOf as)).accepted
    rw [hnew]
    exact List.mem_append_left _ (hL.mem_accepted he)
  -- what was accepted is in line or gone, and what is gone was not discarded
  rcases List.mem_append.mp (hM.balance.mem_iff.mp haccepted) with hline | hgone
  · exact Or.inr (Or.inr hline)
  · obtain ⟨⟨why, e⟩, hd, rfl⟩ := List.mem_map.mp hgone
    cases why with
    | removed => exact Or.inl hd
    | discarded => exact absurd (h.discarded hw hq hno hd) (hL.notMem_departed he _)
    | returned =>
      have hr : e ∈ L.returned ++ es := hes ▸ Ledger.mem_returned.mpr hd
      have hnew : e ∈ es := by
        refine (List.mem_append.mp hr).resolve_left fun hold => ?_
        exact hL.notMem_departed he _ (Ledger.mem_returned.mp hold)
      have hnodup : (L.returned ++ es).Nodup := hes ▸ hM.nodup_returned
      exact Or.inr (Or.inl (List.count_eq_one_of_mem (List.nodup_append.mp hnodup).2.1 hnew))

/-! ### The end -/

theorem Step.not_disposed (h : s.Step a t) (hw : s.queue.WellFormed) (hs : s.queue.disposed = false)
    (hno : .answers none ∉ s.sights a t) : t.queue.disposed = false := by
  by_contra hd
  obtain ⟨rfl, hcall⟩ := h.disposes hw hs (by simpa using hd)
  simp [sights, hcall, Call.sights] at hno

theorem Leads.not_disposed (h : Leads s as t) (hw : s.queue.WellFormed)
    (hs : s.queue.disposed = false) (hno : .answers none ∉ s.seen as) :
    t.queue.disposed = false := by
  induction h with
  | refl => exact hs
  | tail prior hstep ih =>
    rw [seen_tail prior hstep, List.mem_append, not_or] at hno
    exact (step?_eq_some.mp hstep).not_disposed (prior.wellFormed hw) (ih hno.1) hno.2

theorem Leads.held_back {quittable : Bool} {now : Time} (h : Leads (initial quittable now) as s)
    (hq : s.queue.quitting = true) (hd : s.queue.disposed = false) (hstep : s.step? a = some t)
    (hx : .answers none ∈ s.sights a t) :
    let M := (initial quittable now).ledger as
    ∀ e ∈ M.line, e.message.isBarrier = false → M.HeldBack e ∧
      (.discarded, e) ∈ ((initial quittable now).ledger (as ++ [a])).departed := by
  intro M e he hmessage
  have hw := h.wellFormed (Queue.wellFormed_fresh quittable)
  have hM : M.Tells s.queue.pending := h.tells
  have hs := step?_eq_some.mp hstep
  rw [ledger_tail h hstep]
  obtain ⟨rfl, hcall⟩ := hs.disposes hw hd (hs.over_of_answer hw hx).1
  cases hs with
  | @look settled hawake =>
    have hv : (s.queue.scan s.now settled).value = .returned none := hcall
    have hdue : ∀ m ∈ s.queue.pending, m.due ≤ s.now := fun m hm =>
      Reachable.due_of_quitting ⟨_, _, _, h⟩ hq hm
    have hpending : e.message ∈ s.queue.pending := by
      rw [← hM.line]
      exact List.mem_map_of_mem he
    obtain ⟨hasync, head, hhead, hbarrier⟩ := hw.scan_none hd hdue hv _ hpending hmessage
    rw [← hM.line, List.head?_map] at hhead
    obtain ⟨b, hb, rfl⟩ := Option.map_eq_some_iff.mp hhead
    refine ⟨⟨he, hasync, b, hb, hbarrier⟩, ?_⟩
    simp only [turnOf, hawake]
    show (.discarded, e) ∈ (M.noteLook (s.queue.scan s.now settled).value).departed
    rw [hv]
    exact Ledger.mem_departed_leave.mpr (Or.inr ⟨rfl, List.mem_filter.mpr ⟨he, rfl⟩⟩)

theorem noteAll_safe_quit (hs : s.queue.quitting = false)
    (hok : (s.queue.quit s.now true).value = .ok ()) :
    L.noteAll s.queue (s.turnOf (.operate (.quit true)) t) =
      L.leaveAll .discarded fun m => !decide (m.due ≤ s.now) := by
  show L.noteOperation s.queue s.now (.quit true) = _
  simp only [Ledger.noteOperation, hok, hs, Bool.false_eq_true, if_false, Bool.true_and]

/-- **What a safe quit keeps.**  In a course of events from a fresh system the queue is told to quit
safely, for the first time.

* What is pending and not due is discarded at once.
* The consumer is told that there are no more messages if it goes on.
* Until it is told, it is given every message once that was pending and due and that nobody removes,
  unless the message is held back when it is told.  Such a message is discarded then. -/
theorem safe_quit_keeps_due (quittable : Bool) (now : Time) {before : List Action} {s t : System}
    (h : Leads (initial quittable now) before s) (hs : s.queue.quitting = false)
    (hok : (s.queue.quit s.now true).value = .ok ())
    (hquit : s.step? (.operate (.quit true)) = some t) :
    let start := initial quittable now
    let quits := before ++ [.operate (.quit true)]
    let L := start.ledger before
    (∀ e ∈ L.line, s.now < e.message.due → (.discarded, e) ∈ (start.ledger quits).departed) ∧
    (∀ as u, Leads t as u → t.patience < as.countP Action.isConsumer →
      .answers none ∈ t.seen as) ∧
    ∀ as u a v, Leads t as u → .answers none ∉ t.seen as → u.step? a = some v →
      .answers none ∈ u.sights a v →
      let M := start.ledger (quits ++ as)
      ∃ es, M.returned = L.returned ++ es ∧
        es.map Entry.message = (answersIn (t.seen as)).reduceOption ∧
        ∀ e ∈ L.line, e.message.isBarrier = false → e.message.due ≤ s.now →
          (.removed, e) ∉ M.departed → (es.count e = 1 ↔ ¬ M.HeldBack e) ∧
            (M.HeldBack e → (.discarded, e) ∈ (start.ledger (quits ++ as ++ [a])).departed) := by
  intro start quits L
  have hw := h.wellFormed (Queue.wellFormed_fresh quittable)
  have hstep := step?_eq_some.mp hquit
  have hwt := hstep.wellFormed hw
  have hqt : t.queue.quitting = true := by
    cases hstep
    exact Queue.quitting_of_quit hw.sound hok
  have ht : Leads start quits t := h.tail hquit
  have hquits : start.ledger quits = L.leaveAll .discarded fun m => !decide (m.due ≤ s.now) :=
    (ledger_tail h hquit).trans (noteAll_safe_quit hs hok)
  refine ⟨fun e he hlate => ?_, fun as u hu hlt => ?_, fun as u a v hu hno hlast hx => ?_⟩
  · rw [hquits]
    refine Ledger.mem_departed_leave.mpr (Or.inr ⟨rfl, List.mem_filter.mpr ⟨he, ?_⟩⟩)
    simpa using hlate
  · rcases hu.answers_none hwt hqt with hx | hle
    · exact hx
    · omega
  · intro M
    have hcourse := ht.append hu
    have hM : M.Tells u.queue.pending := hcourse.tells
    obtain ⟨es, hes, hmessages, hkept⟩ := hu.kept hwt hqt ht.tells hno
    rw [← ledger_append ht] at hes hkept
    have hreturned : (start.ledger quits).returned = L.returned := by
      rw [hquits, Ledger.leaveAll, Ledger.returned_leave, if_neg (by decide), List.append_nil]
    rw [hreturned] at hes
    have hdt := hstep.not_disposed hw (hw.not_disposed hs) (by simp [sights])
    have hend := hcourse.held_back (hu.quitting hwt hqt) (hu.not_disposed hwt hdt hno) hlast hx
    refine ⟨es, hes, hmessages, fun e he hmessage hedue hremoved => ?_⟩
    refine ⟨⟨fun hone hheld => ?_, fun hfree => ?_⟩, fun hheld => (hend e hheld.1 hmessage).2⟩
    · -- what was returned is no longer in line
      have hmem : e ∈ M.returned := by
        rw [hes]
        exact List.mem_append_right _ (List.count_pos_iff.mp (by omega))
      exact hM.notMem_departed hheld.1 _ (Ledger.mem_returned.mp hmem)
    · have hline : e ∈ (start.ledger quits).line := by
        rw [hquits]
        exact List.mem_filter.mpr ⟨he, by simpa using hedue⟩
      rcases hkept e hline with hr | hone | hleft
      · exact absurd hr hremoved
      · exact hone
      · exact absurd (hend e hleft hmessage).1 hfree

/-- Behind a barrier that stays, the asynchronous message is kept and the other is lost. -/
theorem safe_quit_keeps_due_past_barrier :
    let news : Message := { target := some ⟨0, "news"⟩ }
    let late : Message := { news with async := true }
    let start := initial true 10
    let before : List Action :=
      [.operate (.postBarrier 5), .operate (.enqueue news 6), .operate (.enqueue late 7)]
    let quits : List Action := before ++ [.operate (.quit true)]
    let as : List Action := [.call, .wake, .look, .call, .wake]
    let lost : Entry := ⟨1, { news with due := 6, inUse := true }⟩
    let kept : Entry := ⟨2, { late with due := 7, inUse := true }⟩
    ∃ s es, Leads start before s ∧ s.queue.quitting = false ∧
      [lost, kept].Sublist (start.ledger before).line ∧
      (start.ledger (quits ++ as)).returned = es ∧ es.count kept = 1 ∧
      (.discarded, lost) ∈ (start.ledger (quits ++ as ++ [.look])).departed := by
  intro news late start before quits as lost kept
  let s : System :=
    { start with
      queue := ({} : Queue).turns [.operate 10 (.postBarrier 5), .operate 10 (.enqueue news 6),
        .operate 10 (.enqueue late 7)] }
  have hs : Leads start before s := leads_iff.mpr rfl
  let t : System := { s with queue := (s.queue.quit 10 true).state, notified := true }
  have ht : s.step? (.operate (.quit true)) = some t := rfl
  obtain ⟨_, _, hends⟩ := safe_quit_keeps_due true 10 hs rfl rfl ht
  have hrun : ((as.foldlM step? t).bind fun u => (u.step? .look).map (u.sights .look)) =
      some [.answers none] := by
    decide +kernel
  obtain ⟨u, hu, hlook⟩ := Option.bind_eq_some_iff.mp hrun
  obtain ⟨v, hv, hx⟩ := Option.map_eq_some_iff.mp hlook
  obtain ⟨es, hes, hanswers, hdue⟩ :=
    hends as u .look v (leads_iff.mpr hu) (by decide +kernel) hv (by simp [hx])
  have hnothing : (start.ledger before).returned = [] := by decide +kernel
  rw [hnothing, List.nil_append] at hes
  have hmessages : es.map Entry.message = [kept.message] := hanswers.trans (by decide +kernel)
  have hkept := hdue kept (by decide +kernel) (by decide) (by decide) (by decide +kernel)
  have hlost := hdue lost (by decide +kernel) (by decide) (by decide) (by decide +kernel)
  refine ⟨s, es, hs, rfl, by decide +kernel, hes, ?_, ?_⟩
  · refine hkept.1.mpr fun h => ?_
    exact absurd h.2.1 (by decide)
  · refine hlost.2 (Classical.byContradiction fun h => ?_)
    have hmem : lost.message ∈ es.map Entry.message :=
      List.mem_map_of_mem (List.count_pos_iff.mp (by rw [hlost.1.mpr h]; decide))
    rw [hmessages] at hmem
    exact absurd hmem (by decide)

/-- **A message can be lost in a safe quit**, though it was due and nobody removed it: a barrier
that nobody has removed is ahead of it. -/
theorem due_message_lost_behind_barrier :
    let news : Message := { target := some ⟨0, "news"⟩ }
    let start := initial true 10
    let before : List Action := [.operate (.postBarrier 5), .operate (.enqueue news 6)]
    let course : List Action := before ++ .operate (.quit true) :: [.call, .wake, .look]
    let e : Entry := ⟨1, { news with due := 6, inUse := true }⟩
    ∃ s t, Leads start before s ∧ s.queue.quittable = true ∧ s.queue.quitting = false ∧
      e ∈ (start.ledger before).line ∧ e.message.due ≤ s.now ∧ Leads start course t ∧
      start.seen course = [.parks .immediate, .answers none] ∧
      (start.ledger course).departed = [(.discarded, ⟨0, .barrier 0 5⟩), (.discarded, e)] := by
  intro news start before course e
  let s : System :=
    { start with
      queue := ({} : Queue).turns [.operate 10 (.postBarrier 5), .operate 10 (.enqueue news 6)] }
  have hs : Leads start before s := leads_iff.mpr rfl
  have hrun : (course.foldlM step? start).isSome := by decide +kernel
  obtain ⟨t, ht⟩ := Option.isSome_iff_exists.mp hrun
  exact ⟨s, t, hs, rfl, rfl, by decide +kernel, by decide, leads_iff.mpr ht, by decide +kernel,
    by decide +kernel⟩

end System

end Agenda
