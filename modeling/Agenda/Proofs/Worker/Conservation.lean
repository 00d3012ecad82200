import Agenda.Proofs.System.Accounts
import Agenda.Proofs.Worker.Course

/-!
# No message is lost in a loop

A loop is handed messages by its queue and dispatches them.  `Keeps` says that it has dispatched
what it was handed, in order, except for the message that it has in hand; `Counts` says that its
counts are right.  Both hold after every move (`Step.keeps`, `Step.counts`), whoever makes it.  When
the loop has ended, it has nothing in hand and its queue is gone, so the accounts of the queue
close.
-/

namespace Agenda

/-- A message that its target gets `threshold` milliseconds after it was due, or later.  A message
for the front of the queue was not due at any time. -/
def Dispatch.isLate (threshold : UInt64) (d : Dispatch) : Bool :=
  d.message.due != 0 && d.message.due.toNat + threshold.toNat ≤ d.reading.toNat

/-- The message that a call has ended with. -/
def Call.taken : Call → List Message
  | .returned (some x) => [x]
  | _ => []

namespace System

variable {s t : System} {a : Action}

/-- A step within a call leaves it as it is or goes on in it, perhaps to its end. -/
theorem Step.within_call (h : s.Step a t) (hw : s.queue.WellFormed) (hne : a ≠ .call) :
    (t.call = s.call ∧ s.queue.handedOver (s.turnOf a t) = []) ∨
    ((∀ r, s.call ≠ .returned r) ∧ s.queue.handedOver (s.turnOf a t) = t.call.taken ∧
      (∀ x ∈ t.call.taken, x.isBarrier = false ∧ x.due ≤ t.now) ∧
      (t.call = .returned none → t.queue.disposed = true)) := by
  cases h with
  | operate op => exact Or.inl ⟨rfl, rfl⟩
  | tick h => exact Or.inl ⟨rfl, rfl⟩
  | call h => exact absurd rfl hne
  | wake h => exact Or.inr ⟨by simp [h], rfl, by simp [Call.taken], by simp⟩
  | @look settled h =>
    refine Or.inr ⟨by simp [h], ?_, fun x hx => ?_, hw.disposed_of_scan⟩
    · simp only [turnOf, h, Queue.handedOver, Queue.handed, settle, List.append_nil]
      rfl
    · have hv : (s.queue.scan s.now settled).value = .returned (some x) := by
        simp only [settle, Call.taken] at hx
        split at hx
        · rw [List.mem_singleton] at hx
          rw [hx]
          assumption
        · simp at hx
      obtain ⟨_, _, ht⟩ := hw.scan_took hv
      exact ⟨ht.mayRun.1, ht.due⟩
  | @idle i rest outcome h =>
    have hcall : (s.queue.afterIdle i rest outcome).value = .idle rest := by
      cases outcome <;> rfl
    refine Or.inr ⟨by simp [h], ?_, ?_, ?_⟩
    · simp only [turnOf, h, settle, hcall]
      rfl
    · simp [settle, hcall, Call.taken]
    · simp [settle, hcall]
  | endPass h =>
    refine Or.inr ⟨by simp [h], ?_, by simp [settle, Queue.endIdlePass, Call.taken],
      by simp [settle, Queue.endIdlePass]⟩
    simp only [turnOf, h]
    rfl

end System

namespace Worker

variable {c : Config} {w u : Worker} {m : Move} {ms : List Move} {x : Message}
  {handed : List Message} {D : List Dispatch}

/-- The message that a loop was handed and has not given to its target. -/
def inHand (w : Worker) : List Message :=
  match w.stage with
  | .taking => w.system.call.taken
  | _ => []

/-- A loop has dispatched what it was handed, but for what it has in hand. -/
structure Keeps (w : Worker) (handed : List Message) (D : List Dispatch) : Prop where
  handed : handed = D.map Dispatch.message ++ w.inHand
  own : ∀ d ∈ D, d.message.target = some d.target ∧ d.message.due ≤ d.reading
  due : ∀ x ∈ w.inHand, x.isBarrier = false ∧ x.due ≤ w.system.now
  resting : w.stage ≠ .taking → ∃ r, w.system.call = .returned r
  told : w.stage = .taking ∨ w.stage = .ended → w.system.call = .returned none →
    w.system.queue.disposed = true
  ended : w.stage = .ended → w.system.call = .returned none

theorem keeps_initial (c : Config) (quittable : Bool) (now : Time) :
    (initial c quittable now).Keeps [] [] where
  handed := rfl
  own := by simp
  due := by simp [inHand, initial]
  resting _ := ⟨none, rfl⟩
  told := by simp [initial]
  ended := nofun

theorem inHand_of_ne (h : w.stage ≠ .taking) : w.inHand = [] := by
  unfold inHand
  split
  · exact absurd ‹_› h
  · rfl

theorem inHand_of_taking (h : w.stage = .taking) : w.inHand = w.system.call.taken := by
  simp only [inHand, h]

theorem Keeps.act {a : Action} {s : System} (hk : w.Keeps handed D) (hw : w.system.queue.WellFormed)
    (hne : a ≠ .call) (h : w.system.Step a s) :
    ({ w with system := s } : Worker).Keeps
      (handed ++ w.system.queue.handedOver (w.system.turnOf a s)) D := by
  rcases h.within_call hw hne with ⟨hcall, hnone⟩ | ⟨hopen, hover, hgood, hgone⟩
  · -- the call stands where it stood
    have hsame : ({ w with system := s } : Worker).inHand = w.inHand := by
      simp only [inHand, hcall]
    refine ⟨?_, hk.own, fun x hx => ?_, fun hs => ?_, fun hs hr => ?_, fun hs => ?_⟩
    · rw [hnone, List.append_nil, hsame]
      exact hk.handed
    · obtain ⟨hmessage, hdue⟩ := hk.due x (hsame ▸ hx)
      exact ⟨hmessage, UInt64.le_trans hdue h.now_le⟩
    · exact hcall ▸ hk.resting hs
    · exact h.disposed hw (hk.told hs (hcall ▸ hr))
    · exact hcall ▸ hk.ended hs
  · -- the call goes on, so the loop waits for its end and has nothing in hand yet
    have htaking : w.stage = .taking := by
      by_contra hs
      obtain ⟨r, hr⟩ := hk.resting hs
      exact hopen r hr
    have hempty : w.inHand = [] := by
      rw [inHand_of_taking htaking]
      unfold Call.taken
      split
      · exact absurd ‹_› (hopen _)
      · rfl
    have hnew : ({ w with system := s } : Worker).inHand = s.call.taken := inHand_of_taking htaking
    refine ⟨?_, hk.own, fun x hx => ?_, fun hs => absurd htaking hs, fun _ => hgone, fun hs => ?_⟩
    · rw [hover, hnew, hk.handed, hempty, List.append_nil]
    · exact hgood x (hnew ▸ hx)
    · rw [htaking] at hs
      cases hs

theorem Keeps.call {s : System} (hk : w.Keeps handed D) (hstage : w.stage = .ready)
    (h : w.system.Step .call s) :
    ({ w with system := s, stage := .taking } : Worker).Keeps handed D := by
  have hempty : w.inHand = [] := inHand_of_ne (by rw [hstage]; exact nofun)
  cases h with
  | call hr =>
    have hnothing : w.system.queue.call.taken = [] := by
      unfold Queue.call
      split <;> rfl
    refine ⟨?_, hk.own, ?_, fun hs => absurd rfl hs, fun _ hnone => ?_, nofun⟩
    · rw [hk.handed, hempty]
      exact congrArg _ hnothing.symm
    · show ∀ x ∈ w.system.queue.call.taken, _
      rw [hnothing]
      simp
    · by_contra hd
      have hcall : w.system.queue.call = .parking .immediate false := if_neg hd
      exact absurd (hcall.symm.trans hnone) nofun

theorem Keeps.taken (hk : w.Keeps handed D) (hstage : w.stage = .taking)
    (hcall : w.system.call = .returned (some x)) :
    w.inHand = [x] ∧ ∃ target, x.target = some target ∧ x.due ≤ w.system.now := by
  have hhand : w.inHand = [x] := by
    rw [inHand_of_taking hstage, hcall]
    rfl
  obtain ⟨hmessage, hdue⟩ := hk.due x (by rw [hhand]; exact List.mem_singleton_self x)
  obtain ⟨target, htarget⟩ := Option.isSome_iff_exists.mp (Option.isNone_eq_false_iff.mp hmessage)
  exact ⟨hhand, target, htarget, hdue⟩

theorem Keeps.receive (hk : w.Keeps handed D) (hstage : w.stage = .taking)
    (hcall : w.system.call = .returned (some x)) :
    (w.accept x).Keeps handed (D ++ w.dispatch .receive (w.accept x)) := by
  obtain ⟨hhand, target, htarget, hdue⟩ := hk.taken hstage hcall
  have hnew : w.dispatch .receive (w.accept x) = [⟨target, x, w.system.now⟩] := by
    simp only [dispatch, accept, htarget]
  simp only [accept, htarget] at hnew ⊢
  rw [hnew]
  refine ⟨?_, fun d hd => ?_, by simp [inHand], fun _ => ⟨some x, hcall⟩, by simp, by simp⟩
  · rw [hk.handed, hhand, List.map_append]
    exact (List.append_nil _).symm
  · rcases List.mem_append.mp hd with hd | hd
    · exact hk.own d hd
    · cases List.mem_singleton.mp hd
      exact ⟨htarget, hdue⟩

theorem Keeps.stop (hk : w.Keeps handed D) (hstage : w.stage = .taking)
    (hcall : w.system.call = .returned none) :
    ({ w with stage := .ended } : Worker).Keeps handed D := by
  have hhand : w.inHand = [] := by
    rw [inHand_of_taking hstage, hcall]
    rfl
  refine ⟨?_, hk.own, by simp [inHand], fun _ => ⟨none, hcall⟩, fun _ => ?_, fun _ => hcall⟩
  · rw [hk.handed, hhand]
    rfl
  · exact hk.told (Or.inl hstage)

theorem Keeps.finish {target : Target} (hk : w.Keeps handed D)
    (hstage : w.stage = .dispatching target x) (l : Loop) :
    ({ w with loop := l, stage := .ready } : Worker).Keeps handed D := by
  have hne : w.stage ≠ .taking := by
    rw [hstage]
    exact nofun
  refine ⟨?_, hk.own, by simp [inHand], fun _ => hk.resting hne, by simp, nofun⟩
  rw [hk.handed, inHand_of_ne hne]
  rfl

/-- **What a loop is handed it dispatches**, whoever makes the next move. -/
theorem Step.keeps (h : w.Step m u) (hk : w.Keeps handed D) (hw : w.system.queue.WellFormed) :
    u.Keeps (handed ++ w.system.queue.handedOver (w.system.turnsOf m.actions))
      (D ++ w.dispatch m u) := by
  cases h with
  | act hne h =>
    rw [Move.actions, System.turnsOf_singleton (System.step?_eq_some.mpr h)]
    show Keeps _ _ (D ++ [])
    rw [List.append_nil]
    exact hk.act hw hne h
  | call hstage h =>
    rw [Move.actions, System.turnsOf_singleton (System.step?_eq_some.mpr h)]
    show Keeps _ (handed ++ []) (D ++ [])
    rw [List.append_nil, List.append_nil]
    exact hk.call hstage h
  | receive hstage hcall =>
    show Keeps _ (handed ++ []) _
    rw [List.append_nil]
    exact hk.receive hstage hcall
  | stop hstage hcall =>
    show Keeps _ (handed ++ []) (D ++ [])
    rw [List.append_nil, List.append_nil]
    exact hk.stop hstage hcall
  | finish elapsed hstage =>
    show Keeps _ (handed ++ []) (D ++ [])
    rw [List.append_nil, List.append_nil]
    exact hk.finish hstage _

/-! ### The counts -/

/-- A loop's counts are those of its dispatches, one of which may still go on. -/
structure Counts (c : Config) (w : Worker) (D : List Dispatch) : Prop where
  threshold : w.loop.slowDelivery = c.slowDelivery
  dispatched : w.loop.stats.dispatched + (match w.stage with | .dispatching .. => 1 | _ => 0) =
    .ofNat D.length
  slow : w.loop.stats.slowDeliveries =
    .ofNat (c.slowDelivery.elim 0 fun threshold => D.countP (Dispatch.isLate threshold))

theorem counts_initial (c : Config) (quittable : Bool) (now : Time) :
    Counts c (initial c quittable now) [] := by
  refine ⟨rfl, rfl, ?_⟩
  cases hc : c.slowDelivery <;> rfl

/-- How late a message is needs no cutting off if the message is due. -/
theorem isSlowDelivery_eq (l : Loop) {now : Time} (target : Target) (h : x.due ≤ now) :
    l.isSlowDelivery now x =
      l.slowDelivery.any fun threshold => Dispatch.isLate threshold ⟨target, x, now⟩ := by
  have hlate (threshold : UInt64) : threshold ≤ Loop.lateness now x ↔
      x.due.toNat + threshold.toNat ≤ now.toNat := by
    have hle := UInt64.le_iff_toNat_le.mp h
    rw [Loop.lateness, if_pos h, UInt64.le_iff_toNat_le, UInt64.toNat_sub_of_le now x.due h]
    omega
  simp only [Loop.isSlowDelivery, Dispatch.isLate, hlate]

theorem deliver_stats (l : Loop) (now : Time) (target : Target) (x : Message) :
    (l.deliver now target x).1 = { l with stats := { l.stats with
      slowDeliveries := l.stats.slowDeliveries + if l.isSlowDelivery now x then 1 else 0 } } := by
  unfold Loop.deliver
  split
  · rfl
  · rw [UInt64.add_zero]

theorem dispatched_stats (l : Loop) (elapsed : Nat) (target : Target) (x : Message) :
    (l.dispatched elapsed target x).1.slowDelivery = l.slowDelivery ∧
    (l.dispatched elapsed target x).1.stats.dispatched = l.stats.dispatched + 1 ∧
    (l.dispatched elapsed target x).1.stats.slowDeliveries = l.stats.slowDeliveries := by
  unfold Loop.dispatched
  simp only
  split <;> exact ⟨rfl, rfl, rfl⟩

theorem Counts.receive (hc : Counts c w D) (hk : w.Keeps handed D) (hstage : w.stage = .taking)
    (hcall : w.system.call = .returned (some x)) :
    Counts c (w.accept x) (D ++ w.dispatch .receive (w.accept x)) := by
  obtain ⟨_, target, htarget, hdue⟩ := hk.taken hstage hcall
  have hidle : w.loop.stats.dispatched = .ofNat D.length := by
    have h := hc.dispatched
    simpa only [hstage, UInt64.add_zero] using h
  simp only [dispatch, accept, htarget, deliver_stats]
  refine ⟨hc.threshold, ?_, ?_⟩
  · simp only [hidle, List.length_append, List.length_singleton, UInt64.ofNat_add]
    rfl
  · rw [isSlowDelivery_eq _ target hdue, hc.slow, hc.threshold]
    cases c.slowDelivery with
    | none => rfl
    | some threshold =>
      simp only [Option.any_some, Option.elim_some, List.countP_append, List.countP_singleton,
        UInt64.ofNat_add]
      split <;> rfl

/-- **A loop counts what it does**, whoever makes the next move. -/
theorem Step.counts (h : w.Step m u) (hc : Counts c w D) (hk : w.Keeps handed D) :
    Counts c u (D ++ w.dispatch m u) := by
  cases h with
  | act hne h =>
    show Counts c _ (D ++ [])
    rw [List.append_nil]
    exact ⟨hc.threshold, hc.dispatched, hc.slow⟩
  | call hstage h =>
    have hd := hc.dispatched
    rw [hstage] at hd
    show Counts c _ (D ++ [])
    rw [List.append_nil]
    exact ⟨hc.threshold, hd, hc.slow⟩
  | receive hstage hcall => exact hc.receive hk hstage hcall
  | stop hstage hcall =>
    have hd := hc.dispatched
    rw [hstage] at hd
    show Counts c _ (D ++ [])
    rw [List.append_nil]
    exact ⟨hc.threshold, hd, hc.slow⟩
  | @finish target x elapsed hstage =>
    obtain ⟨hthreshold, hone, hslow⟩ := dispatched_stats w.loop elapsed target x
    have hd := hc.dispatched
    rw [hstage] at hd
    show Counts c _ (D ++ [])
    rw [List.append_nil]
    refine ⟨hthreshold.trans hc.threshold, ?_, hslow.trans hc.slow⟩
    show (w.loop.dispatched elapsed target x).1.stats.dispatched + 0 = _
    rw [UInt64.add_zero, hone]
    exact hd

/-! ### The course of a loop -/

theorem Leads.keeps_counts {quittable : Bool} {now : Time}
    (h : (initial c quittable now).Leads ms u) :
    let start := initial c quittable now
    u.Keeps (start.system.queue.handedOver (start.system.turnsOf (ms.flatMap Move.actions)))
      (start.dispatches ms) ∧ Counts c u (start.dispatches ms) := by
  intro start
  induction ms using List.reverseRecOn generalizing u with
  | nil =>
    cases h
    exact ⟨keeps_initial c quittable now, counts_initial c quittable now⟩
  | append_singleton ms m ih =>
    obtain ⟨v, hv, hu⟩ := leads_concat.mp h
    obtain ⟨hk, hc⟩ := ih hv
    have hstep := step?_eq_some.mp hu
    have hw : v.system.queue.WellFormed := hv.system.wellFormed (Queue.wellFormed_fresh quittable)
    rw [dispatches_concat hv hu, List.flatMap_append, List.flatMap_singleton,
      System.turnsOf_append hv.system, Queue.handedOver_append, ← hv.system.queue_eq]
    exact ⟨hstep.keeps hk hw, hstep.counts hc hk⟩

/-- **No message is lost in a loop.**  A loop with some configuration runs at a fresh queue, and
while it does so anybody does operations, time goes on, targets and idle handlers do operations of
their own.  If the loop has ended, then

* its queue is gone and nothing is in it;
* the messages that were sent, which an enqueue has answered for, are those that were returned,
  those that were removed and those that were discarded by a quit or in the end, and each of them is
  only one of these;
* the returned messages were dispatched, in order, each to its own target, and none before it was
  due, and the removed messages were counted;
* the loop has counted the dispatches and those that were late.  The counts are words, so they wrap
  around. -/
theorem run_conserves_messages (c : Config) (quittable : Bool) (now : Time) {ms : List Move}
    {w : Worker} (h : (initial c quittable now).Leads ms w) (hend : w.stage = .ended) :
    let start := initial c quittable now
    let L := start.system.ledger (ms.flatMap Move.actions)
    let answers := start.system.answered (ms.flatMap Move.actions)
    let D := start.dispatches ms
    (w.system.queue.disposed = true ∧ w.system.queue.pending = []) ∧
    (L.sent.map Entry.message = answers.filterMap Operation.sent? ∧ L.sent.Nodup ∧
      L.sent.Perm (L.returned ++ (L.gone .removed ++ L.gone .discarded))) ∧
    (L.returned.map Entry.message = D.map Dispatch.message ∧
      (∀ d ∈ D, d.message.target = some d.target ∧ d.message.due ≤ d.reading) ∧
      (L.gone .removed).length = (answers.filterMap Operation.removed?).sum) ∧
    w.loop.stats.dispatched = .ofNat D.length ∧
    w.loop.stats.slowDeliveries =
      .ofNat (c.slowDelivery.elim 0 fun threshold => D.countP (Dispatch.isLate threshold)) := by
  intro start L answers D
  obtain ⟨hk, hc⟩ := h.keeps_counts
  have hcourse : System.Leads (.initial quittable now) (ms.flatMap Move.actions) w.system :=
    h.system
  have hL : L.Tells w.system.queue.pending := hcourse.tells
  have hgone : w.system.queue.disposed = true := hk.told (Or.inr hend) (hk.ended hend)
  have hempty : w.system.queue.pending = [] :=
    (hcourse.wellFormed (Queue.wellFormed_fresh quittable)).empty_of_disposed hgone
  have hline : L.line = [] := List.map_eq_nil_iff.mp (hL.line.trans hempty)
  have hreturned : L.returned.map Entry.message = D.map Dispatch.message := by
    obtain ⟨es, hes, hmessages⟩ :=
      Ledger.tells_empty.returned_noteAll (Queue.wellFormed_fresh quittable)
        (start.system.turnsOf (ms.flatMap Move.actions))
    have hidle : w.inHand = [] := inHand_of_ne (by rw [hend]; exact nofun)
    have hhanded := hk.handed
    rw [hidle, List.append_nil] at hhanded
    show (Ledger.noteAll {} _ _).returned.map Entry.message = _
    exact (congrArg _ hes).trans (hmessages.trans hhanded)
  have hmessage : ∀ e ∈ L.returned, e.message.isBarrier = false := by
    intro e he
    have hmem : e.message ∈ D.map Dispatch.message := hreturned ▸ List.mem_map_of_mem he
    obtain ⟨d, hd, heq⟩ := List.mem_map.mp hmem
    rw [← heq, Message.isBarrier, (hk.own d hd).1]
    rfl
  refine ⟨⟨hgone, hempty⟩, ⟨hcourse.sent, hL.nodup_accepted.filter _, ?_⟩,
    ⟨hreturned, hk.own, hcourse.removed⟩, ?_, hc.slow⟩
  · have hperm := hL.sent_perm
    rw [hline, Ledger.gone_returned hmessage] at hperm
    exact hperm
  · have hcount := hc.dispatched
    rw [hend] at hcount
    simpa only [UInt64.add_zero] using hcount

/-- A loop gets a message late.  Of the others one is removed, and one goes when a target quits. -/
theorem run_conserves_messages_of_three :
    let news : Message := { target := some ⟨0, "news"⟩ }
    let ms : List Move := [.act (.operate (.enqueue news 5)),
      .act (.operate (.enqueue { news with what := 7 } 6)), .act (.operate (.enqueue news 900)),
      .call, .act (.operate (.remove { target := ⟨0, "news"⟩, selector := .what 7 })), .act .wake,
      .act .look, .act (.tick 300), .receive, .act (.operate (.quit true)), .finish 0, .call,
      .act .wake, .act .look, .receive]
    let start := initial {} true 10
    let L := start.system.ledger (ms.flatMap Move.actions)
    let e : Entry := ⟨0, { news with due := 5, inUse := true }⟩
    ∃ w, start.Leads ms w ∧ w.stage = .ended ∧ w.system.queue.pending = [] ∧
      start.dispatches ms = [⟨⟨0, "news"⟩, e.message, 300⟩] ∧ L.returned = [e] ∧
      L.sent.Perm ([e] ++ (L.gone .removed ++ L.gone .discarded)) ∧ (L.gone .removed).length = 1 ∧
      (L.gone .discarded).length = 1 ∧ w.loop.stats.dispatched = 1 ∧
      w.loop.stats.slowDeliveries = 1 := by
  intro news ms start L e
  have hrun : (ms.foldlM step? start).map stage = some .ended := by decide +kernel
  obtain ⟨w, hw, hend⟩ := Option.map_eq_some_iff.mp hrun
  obtain ⟨⟨_, hempty⟩, ⟨_, _, hperm⟩, ⟨_, _, hremoved⟩, hdispatched, hslow⟩ :=
    run_conserves_messages {} true 10 hw hend
  have hD : start.dispatches ms = [⟨⟨0, "news"⟩, e.message, 300⟩] := by decide +kernel
  have hreturned : L.returned = [e] := by decide +kernel
  rw [hD] at hdispatched hslow
  exact ⟨w, hw, hend, hempty, hD, hreturned, hreturned ▸ hperm, hremoved.trans (by decide +kernel),
    by decide +kernel, hdispatched, hslow.trans (by decide +kernel)⟩

end Worker

end Agenda
