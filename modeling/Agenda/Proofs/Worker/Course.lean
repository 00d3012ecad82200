import Agenda.Proofs.System.Quitting
import Agenda.Worker

/-!
# Courses of a loop

The steps of a loop one by one (`Step`), the course of events that they are for its system
(`Leads.system`), and the dispatches in them (`dispatches`).

A loop that drains its queue at one clock reading takes one of these courses (`leads_drain`), so
what holds of them holds of it.
-/

namespace Agenda

/-- One call of a target. -/
structure Dispatch where
  target : Target
  message : Message
  /-- The clock reading before it. -/
  reading : Time
  deriving DecidableEq, Repr

/-- The actions that a move is for the queue and its consumer. -/
def Move.actions : Move → List Action
  | .act a => [a]
  | .call => [.call]
  | .receive | .finish _ => []

namespace Worker

variable {w u v : Worker} {m : Move} {ms : List Move} {x : Message}

/-- The steps of a loop, one by one. -/
inductive Step (w : Worker) : Move → Worker → Prop
  | act {a : Action} {s : System} (hne : a ≠ .call) (h : w.system.Step a s) :
      Step w (.act a) { w with system := s }
  | call {s : System} (hstage : w.stage = .ready) (h : w.system.Step .call s) :
      Step w .call { w with system := s, stage := .taking }
  | receive {x : Message} (hstage : w.stage = .taking)
      (hcall : w.system.call = .returned (some x)) :
      Step w .receive (w.accept x)
  | stop (hstage : w.stage = .taking) (hcall : w.system.call = .returned none) :
      Step w .receive { w with stage := .ended }
  | finish {target : Target} {x : Message} (elapsed : Nat)
      (hstage : w.stage = .dispatching target x) : Step w (.finish elapsed)
        { w with loop := (w.loop.dispatched elapsed target x).1, stage := .ready }

theorem step?_act {a : Action} (h : a ≠ .call) (w : Worker) :
    w.step? (.act a) = (w.system.step? a).map fun s => { w with system := s } := by
  cases a <;> try rfl
  exact absurd rfl h

theorem step?_eq_some : w.step? m = some u ↔ w.Step m u := by
  constructor
  · intro h
    cases m with
    | act a =>
      have hne : a ≠ .call := by
        rintro rfl
        cases h
      rw [step?_act hne] at h
      obtain ⟨s, hs, rfl⟩ := Option.map_eq_some_iff.mp h
      exact .act hne (System.step?_eq_some.mp hs)
    | call =>
      simp only [step?] at h
      split at h
      · obtain ⟨s, hs, rfl⟩ := Option.map_eq_some_iff.mp h
        exact .call ‹_› (System.step?_eq_some.mp hs)
      · cases h
    | receive =>
      simp only [step?] at h
      split at h <;> cases h
      · exact .stop ‹_› ‹_›
      · exact .receive ‹_› ‹_›
    | finish elapsed =>
      simp only [step?] at h
      split at h <;> cases h
      exact .finish elapsed ‹_›
  · intro h
    cases h with
    | act hne h => rw [step?_act hne, System.step?_eq_some.mpr h, Option.map_some]
    | call hstage h => simp only [step?, hstage, System.step?_eq_some.mpr h, Option.map_some]
    | receive hstage hcall => simp only [step?, hstage, hcall]
    | stop hstage hcall => simp only [step?, hstage, hcall]
    | finish elapsed hstage => simp only [step?, hstage]

theorem leads_concat : Leads w (ms ++ [m]) u ↔ ∃ v, Leads w ms v ∧ v.step? m = some u := by
  simp only [Leads, List.foldlM_append, List.foldlM_cons, List.foldlM_nil]
  constructor
  · intro h
    obtain ⟨v, hv, hu⟩ := Option.bind_eq_some_iff.mp h
    exact ⟨v, hv, by simpa using hu⟩
  · rintro ⟨v, hv, hu⟩
    exact Option.bind_eq_some_iff.mpr ⟨v, hv, by simpa using hu⟩

theorem leads_singleton (h : w.step? m = some u) : w.Leads [m] u := by
  rw [Leads, List.foldlM_cons, h]
  rfl

/-! ### The system in it -/

theorem accept_system (w : Worker) (x : Message) : (w.accept x).system = w.system := by
  unfold accept
  split <;> rfl

theorem Step.system (h : w.Step m u) : w.system.Leads m.actions u.system := by
  cases h with
  | act hne h => exact (System.Leads.refl w.system).tail (System.step?_eq_some.mpr h)
  | call hstage h => exact (System.Leads.refl w.system).tail (System.step?_eq_some.mpr h)
  | receive hstage hcall =>
    rw [accept_system]
    exact .refl w.system
  | stop hstage hcall => exact .refl w.system
  | finish elapsed hstage => exact .refl w.system

/-- **What a loop and all others do is a course of events for the system.** -/
theorem Leads.system (h : w.Leads ms u) : w.system.Leads (ms.flatMap Move.actions) u.system := by
  induction ms using List.reverseRecOn generalizing u with
  | nil =>
    cases h
    exact .refl w.system
  | append_singleton ms m ih =>
    obtain ⟨v, hv, hu⟩ := leads_concat.mp h
    rw [List.flatMap_append, List.flatMap_singleton]
    exact (ih hv).append (step?_eq_some.mp hu).system

/-! ### Dispatches -/

/-- The call of a target that begins with a move, if one does. -/
def dispatch (w : Worker) (m : Move) (u : Worker) : List Dispatch :=
  match m, u.stage with
  | .receive, .dispatching target x => [⟨target, x, w.system.now⟩]
  | _, _ => []

/-- The calls of targets in a course, in order. -/
def dispatches (w : Worker) (ms : List Move) : List Dispatch :=
  gather step? dispatch w ms

theorem dispatches_concat (h : w.Leads ms v) (hstep : v.step? m = some u) :
    w.dispatches (ms ++ [m]) = w.dispatches ms ++ v.dispatch m u :=
  gather_concat dispatch h hstep

theorem dispatches_append {ns : List Move} (h : w.Leads ms v) :
    w.dispatches (ms ++ ns) = w.dispatches ms ++ v.dispatches ns :=
  gather_append dispatch h ns

theorem Leads.append {ns : List Move} (h : w.Leads ms v) (h' : v.Leads ns u) :
    w.Leads (ms ++ ns) u := by
  rw [Leads, List.foldlM_append, h]
  exact h'

/-! ### Draining -/

theorem leads_call {r : Option Message} (hstage : w.stage = .ready)
    (hcall : w.system.call = .returned r) :
    ∃ u, w.Leads [.call] u ∧ w.dispatches [.call] = [] ∧ u.loop = w.loop ∧
      u.system.queue = w.system.queue ∧ u.system.call = w.system.queue.call := by
  let called : System := { w.system with call := w.system.queue.call }
  have hstep : w.step? .call = some { w with system := called, stage := .taking } := by
    simp only [step?, System.step?, hstage, hcall, Option.map_some]
    rfl
  refine ⟨{ w with system := called, stage := .taking }, ?_, ?_, rfl, rfl, rfl⟩
  · rw [Leads, List.foldlM_cons, hstep]
    rfl
  · simp only [dispatches, gather, hstep, dispatch, List.append_nil]

theorem leads_look {r : Option Message} (hstage : w.stage = .ready)
    (hcall : w.system.call = .returned r) (hd : w.system.queue.disposed = false) :
    ∃ u, w.Leads [.call, .act .wake, .act .look] u ∧
      w.dispatches [.call, .act .wake, .act .look] = [] ∧
      u.stage = .taking ∧ u.loop = w.loop ∧ u.system.now = w.system.now ∧
      u.system.queue = (w.system.queue.scan w.system.now false).state ∧
      u.system.call = (w.system.queue.scan w.system.now false).value := by
  let reply := w.system.queue.scan w.system.now false
  let looked : System :=
    { { w.system with call := .awake false, notified := false }.settle reply with
      lookedAt := w.system.now }
  refine ⟨{ w with system := looked, stage := .taking }, ?_, ?_, rfl, rfl, rfl, rfl, rfl⟩
  · simp only [Leads, List.foldlM_cons, List.foldlM_nil, step?, System.step?, hstage, hcall,
      Queue.call, hd, Bool.false_eq_true, if_false, Option.map_some, Option.bind_eq_bind,
      Option.bind_some]
    rfl
  · simp [dispatches, gather, dispatch, step?, System.step?, hstage, hcall, Queue.call, hd]

theorem leads_handle {target : Target} (hstage : w.stage = .taking)
    (hcall : w.system.call = .returned (some x)) (htarget : x.target = some target) :
    w.Leads [.receive, .finish 0]
      { w with loop := w.loop.handle w.system.now x, stage := .ready } ∧
    w.dispatches [.receive, .finish 0] = [⟨target, x, w.system.now⟩] := by
  have hreceive : w.step? .receive = some { w with
      loop := (w.loop.deliver w.system.now target x).1, stage := .dispatching target x } := by
    simp only [step?, hstage, hcall, accept, htarget]
  constructor
  · rw [Leads, List.foldlM_cons, hreceive]
    simp only [Loop.handle, htarget]
    rfl
  · simp only [dispatches, gather, hreceive]
    rfl

/-- Draining stops at the first look that finds no message. -/
theorem drain_stop {now : Time} {bound : Nat} {l : Loop} {q : Queue}
    (h : ∀ x, (q.scan now false).value ≠ .returned (some x)) :
    l.drain now (bound + 1) q =
      { loop := l, queue := (q.scan now false).state, call := (q.scan now false).value } := by
  rw [Loop.drain]
  split
  · exact absurd ‹_› (h _)
  · rfl

/-- **A loop that drains its queue at one clock reading is a loop at work**, in a course in which
nobody else does anything and every message is dealt with in no time. -/
theorem leads_drain {r : Option Message} (bound : Nat) (hw : w.system.queue.WellFormed)
    (hstage : w.stage = .ready) (hcall : w.system.call = .returned r) :
    let d := w.loop.drain w.system.now bound w.system.queue
    ∃ ms u, w.Leads ms u ∧ u.loop = d.loop ∧ u.system.queue = d.queue ∧ u.system.call = d.call ∧
      (w.dispatches ms).map Dispatch.message = d.messages := by
  -- each round starts at the worker that the last one has left, with its message as the old answer
  induction bound generalizing w r with
  | zero =>
    obtain ⟨u, hu, hquiet, hloop, hqueue, hucall⟩ := leads_call hstage hcall
    exact ⟨_, u, hu, hloop, hqueue, hucall, by rw [hquiet]; rfl⟩
  | succ bound ih =>
    cases hd : w.system.queue.disposed with
    | true =>
      obtain ⟨u, hu, hquiet, hloop, hqueue, hucall⟩ := leads_call hstage hcall
      have hscan : w.system.queue.scan w.system.now false =
          ⟨w.system.queue, .returned none, false, []⟩ := if_pos hd
      have hnone : w.system.queue.call = .returned none := if_pos hd
      rw [drain_stop (by rw [hscan]; exact nofun), hscan]
      exact ⟨_, u, hu, hloop, hqueue, hucall.trans hnone, by rw [hquiet]; rfl⟩
    | false =>
      obtain ⟨u, hu, hquiet, hustage, huloop, hunow, huqueue, hucall⟩ :=
        leads_look hstage hcall hd
      by_cases hx : ∃ x, (w.system.queue.scan w.system.now false).value = .returned (some x)
      · obtain ⟨x, hv⟩ := hx
        obtain ⟨_, _, ht⟩ := hw.scan_took hv
        obtain ⟨target, htarget⟩ :=
          Option.isSome_iff_exists.mp (Option.isNone_eq_false_iff.mp ht.mayRun.1)
        have hucall' := hucall.trans hv
        obtain ⟨hhandle, hdispatch⟩ := leads_handle hustage hucall' htarget
        rw [huloop, hunow] at hhandle
        have hwu : u.system.queue.WellFormed := by
          rw [huqueue]
          exact Queue.turn_wellFormed hw (.look w.system.now false)
        obtain ⟨ms, v, hms, hloop, hqueue, hvcall, hmessages⟩ :=
          ih (w := { u with loop := w.loop.handle w.system.now x, stage := .ready }) hwu rfl hucall'
        simp only [hunow, huqueue] at hloop hqueue hvcall hmessages
        simp only [Loop.drain, hv]
        refine ⟨_, v, hu.append (hhandle.append hms), hloop, hqueue, hvcall, ?_⟩
        rw [dispatches_append hu, hquiet, dispatches_append hhandle, hdispatch, List.nil_append,
          List.map_append]
        exact congrArg (x :: ·) hmessages
      · rw [drain_stop fun x hv => hx ⟨x, hv⟩]
        exact ⟨_, u, hu, huloop, huqueue, hucall, by rw [hquiet]; rfl⟩

end Worker

end Agenda
