import Agenda.Proofs.Worker.Course
import Agenda.Scenario.Run

/-!
# The loop of a scenario

A scenario runs a loop step by step, with what others do nested in it.  If nobody but the loop calls
for messages, this is a course of a loop at work (`runLoop_leads`), so what holds of these courses
holds of the loops that run.

`Takes pre act post` says that a part of a run, begun where `pre` holds, is a part of such a course
and leaves off where `post` holds.  The parts are put together as the run puts them together
(`Takes.bind`).  `Aside` is said of the parts in which the loop does nothing.
-/

namespace Agenda.Scenario

variable {α β : Type} {pre pre' : Worker → Prop} {post : α → Worker → Prop} {p : Plan}
  {nested : List Step → Run Unit} {l : Loop} {stage : Stage} {c : Call}

/-- A loop at the queue and the clock of a scenario. -/
def Matches (world : World) (w : Worker) : Prop :=
  w.system.queue = world.queue ∧ w.system.now = world.now

/-- A part of a run is a part of the course of a loop. -/
def Takes (pre : Worker → Prop) (act : Run α) (post : α → Worker → Prop) : Prop :=
  ∀ world w, Matches world w → pre w → ∃ ms u, w.Leads ms u ∧
    Matches (act.run world).2 u ∧ post (act.run world).1 u

/-- Where a loop stands. -/
structure At (l : Loop) (stage : Stage) (c : Call) (w : Worker) : Prop where
  loop : w.loop = l
  stage : w.stage = stage
  call : w.system.call = c

/-- A part of a run in which others do something, and the loop nothing. -/
def Aside (act : Run α) : Prop :=
  ∀ l stage c, Takes (At l stage c) act fun _ => At l stage c

namespace Takes

theorem pure {a : α} (h : ∀ w, pre w → post a w) : Takes pre (Pure.pure a) post := by
  intro world w hm hw
  exact ⟨[], w, rfl, hm, h w hw⟩

theorem bind {act : Run β} {k : β → Run α} {mid : β → Worker → Prop} (h : Takes pre act mid)
    (hk : ∀ b, Takes (mid b) (k b) post) : Takes pre (act >>= k) post := by
  intro world w hm hw
  obtain ⟨ms, v, hv, hmv, hmid⟩ := h world w hm hw
  obtain ⟨ns, u, hu, hmu, hpost⟩ := hk _ _ v hmv hmid
  exact ⟨ms ++ ns, u, hv.append hu, hmu, hpost⟩

theorem weaken {post' : α → Worker → Prop} {act : Run α} (h : Takes pre act post)
    (hpost : ∀ a w, post a w → post' a w) : Takes pre act post' := by
  intro world w hm hw
  obtain ⟨ms, u, hu, hmu, hu'⟩ := h world w hm hw
  exact ⟨ms, u, hu, hmu, hpost _ _ hu'⟩

theorem assume {fact : Prop} {act : Run α} (h : fact → Takes pre act post) :
    Takes (fun w => fact ∧ pre w) act post :=
  fun world w hm hw => h hw.1 world w hm hw.2

/-- The loop, or another, moves on. -/
theorem move {act : Run α} (h : Takes pre' act post) (hmove : ∀ w, pre w → ∃ m u,
    w.step? m = some u ∧ u.system.queue = w.system.queue ∧ u.system.now = w.system.now ∧ pre' u) :
    Takes pre act post := by
  intro world w hm hw
  obtain ⟨m, v, hstep, hqueue, hnow, hv⟩ := hmove w hw
  obtain ⟨ms, u, hu, hmu, hpost⟩ := h world v ⟨hqueue.trans hm.1, hnow.trans hm.2⟩ hv
  exact ⟨[m] ++ ms, u, (Worker.leads_singleton hstep).append hu, hmu, hpost⟩

theorem silent {f : World → World} (hqueue : ∀ world, (f world).queue = world.queue)
    (hnow : ∀ world, (f world).now = world.now) : Takes pre (modify f : Run Unit) fun _ => pre := by
  intro world w hm hw
  exact ⟨[], w, rfl, ⟨hm.1.trans (hqueue world).symm, hm.2.trans (hnow world).symm⟩, hw⟩

theorem get : Takes pre (MonadState.get : Run World) fun world w => Matches world w ∧ pre w := by
  intro world w hm hw
  exact ⟨[], w, rfl, hm, hm, hw⟩

theorem emit (e : Event) : Takes pre (emit e) fun _ => pre :=
  silent (fun _ => rfl) fun _ => rfl

theorem note (ns : List Notice) : Takes pre (note ns) fun _ => pre :=
  silent (fun _ => rfl) fun _ => rfl

end Takes

theorem apply_run (operation : Queue → Reply Queue α) (world : World) :
    ((apply operation).run world).1 = (operation world.queue).value ∧
    ((apply operation).run world).2.queue = (operation world.queue).state ∧
    ((apply operation).run world).2.now = world.now := by
  unfold apply
  cases hwakes : (operation world.queue).wakes with
  | false =>
    simp only [note, emit, bind_pure_comp, StateT.run_bind, StateT.run_get, StateT.run_modify,
      pure_bind, hwakes, Bool.false_eq_true, if_false, StateT.run_pure]
    exact ⟨rfl, rfl, rfl⟩
  | true =>
    simp only [note, emit, bind_pure_comp, StateT.run_bind, StateT.run_get, StateT.run_modify,
      pure_bind, hwakes, if_true, StateT.run_map, map_pure]
    exact ⟨rfl, rfl, rfl⟩

namespace Takes

/-- What is done to the queue is a move of the loop or of another. -/
theorem apply {operation : Queue → Reply Queue α} (h : ∀ w, pre w → ∃ m u, w.step? m = some u ∧
    u.system.queue = (operation w.system.queue).state ∧ u.system.now = w.system.now ∧
    post (operation w.system.queue).value u) : Takes pre (apply operation) post := by
  intro world w hm hw
  obtain ⟨m, u, hstep, hqueue, hnow, hpost⟩ := h w hw
  obtain ⟨hvalue, hstate, hclock⟩ := apply_run operation world
  refine ⟨[m], u, Worker.leads_singleton hstep, ⟨?_, ?_⟩, ?_⟩
  · rw [hqueue, hstate, hm.1]
  · rw [hnow, hclock, hm.2]
  · rw [hvalue, ← hm.1]
    exact hpost

theorem map {f : β → α} {act : Run β} (h : Takes pre act fun b => post (f b)) :
    Takes pre (f <$> act) post := by
  intro world w hm hw
  exact h world w hm hw

end Takes

theorem aside_pure (a : α) : Aside (Pure.pure a) :=
  fun _ _ _ => .pure fun _ h => h

theorem aside_emit (e : Event) : Aside (emit e) :=
  fun _ _ _ => .emit e

theorem Aside.bind {act : Run β} {k : β → Run α} (h : Aside act) (hk : ∀ b, Aside (k b)) :
    Aside (act >>= k) :=
  fun l stage c => (h l stage c).bind fun b => hk b l stage c

theorem aside_modify {f : World → World} (hqueue : ∀ world, (f world).queue = world.queue)
    (hnow : ∀ world, (f world).now = world.now) : Aside (modify f : Run Unit) :=
  fun _ _ _ => .silent hqueue hnow

theorem aside_get : Aside (MonadState.get : Run World) := by
  intro l stage c world w hm hw
  exact ⟨[], w, rfl, hm, hw⟩

/-- An operation of a scenario is done by somebody else than its loop. -/
theorem aside_operate (op : Time → Operation) : Aside (operate op) := by
  intro l stage c
  unfold operate
  refine Takes.get.bind fun world => ?_
  have happly : Takes (fun w => Matches world w ∧ At l stage c w)
      (apply fun q => q.perform world.now (op world.now)) fun _ => At l stage c := by
    refine .apply fun w hw => ⟨.act (.operate (op world.now)), _, rfl, ?_, rfl, ?_⟩
    · rw [hw.1.2]
    · exact ⟨hw.2.loop, hw.2.stage, hw.2.call⟩
  exact happly.bind fun r => .pure fun w hw => hw

/-! ### The loop's moves -/

/-- Where a loop stands when its call has ended. -/
def Answered (l : Loop) : Fetched → Worker → Prop
  | .message x => At l .taking (.returned (some x))
  | .over => At l .taking (.returned none)
  | .asleep _ | .unfinished => fun _ => True

theorem Takes.wake {act : Run α} {timeout : Timeout} {settled : Bool}
    (h : Takes (At l .taking (.awake settled)) act post) :
    Takes (At l .taking (.parking timeout settled)) act post := by
  refine h.move fun w hw => ?_
  have hstep : w.step? (.act .wake) =
      some { w with system := { w.system with call := .awake settled, notified := false } } := by
    simp only [Worker.step?, System.step?, hw.call, Option.map_some]
  exact ⟨_, _, hstep, rfl, rfl, hw.loop, hw.stage, rfl⟩

theorem Takes.over {act : Run α} (h : Takes (At l .ended (.returned none)) act post) :
    Takes (Answered l .over) act post := by
  refine h.move fun w hw => ?_
  have hstep : w.step? .receive = some { w with stage := .ended } := by
    simp only [Worker.step?, hw.stage, hw.call]
  exact ⟨_, _, hstep, rfl, rfl, hw.loop, rfl, hw.call⟩

theorem Takes.pass {act : Run α} {x : Message} (htarget : x.target = none)
    (h : Takes (At l .ready (.returned (some x))) act post) :
    Takes (Answered l (.message x)) act post := by
  refine h.move fun w hw => ?_
  have hstep : w.step? .receive = some { w with stage := .ready } := by
    simp only [Worker.step?, hw.stage, hw.call, Worker.accept, htarget]
  exact ⟨_, _, hstep, rfl, rfl, hw.loop, rfl, hw.call⟩

theorem Takes.deliver {act : Run α} {x : Message} {target : Target} {world : World}
    (htarget : x.target = some target)
    (h : Takes (At (l.deliver world.now target x).1 (.dispatching target x) (.returned (some x)))
      act post) : Takes (fun w => Matches world w ∧ Answered l (.message x) w) act post := by
  refine h.move fun w hw => ?_
  obtain ⟨⟨_, hnow⟩, hloop, hstage, hcall⟩ := hw
  have hstep : w.step? .receive = some { w with
      loop := (w.loop.deliver w.system.now target x).1, stage := .dispatching target x } := by
    simp only [Worker.step?, hstage, hcall, Worker.accept, htarget]
  refine ⟨_, _, hstep, rfl, rfl, ?_, rfl, hcall⟩
  rw [hloop, hnow]

theorem Takes.dispatched {act : Run α} {x : Message} {target : Target} {c : Call}
    (h : Takes (At (l.dispatched 0 target x).1 .ready c) act post) :
    Takes (At l (.dispatching target x) c) act post := by
  refine h.move fun w hw => ?_
  have hstep : w.step? (.finish 0) =
      some { w with loop := (w.loop.dispatched 0 target x).1, stage := .ready } := by
    simp only [Worker.step?, hw.stage]
  refine ⟨_, _, hstep, rfl, rfl, ?_, rfl, hw.call⟩
  rw [hw.loop]

/-! ### What targets and idle handlers do -/

/-- All that is nested in a run is done aside. -/
structure Nested (p : Plan) (nested : List Step → Run Unit) (parks : List (List Step)) : Prop where
  actor : ∀ t, Aside (nested (p.actors.getD t {}).body.steps)
  callback : ∀ k, Aside (nested (p.callbacks.getD k {}).steps)
  idle : ∀ i, Aside (nested (p.idleActors.getD i {}).body.steps)
  park : ∀ steps ∈ parks, Aside (nested steps)

theorem Nested.of_subset {parks parks' : List (List Step)} (h : Nested p nested parks)
    (hsub : parks' ⊆ parks) : Nested p nested parks' :=
  { h with park := fun steps hsteps => h.park steps (hsub hsteps) }

theorem aside_perform {b : Body} (h : Aside (nested b.steps)) (before : Nat) :
    Aside (perform nested b before) := by
  unfold perform
  split
  · exact h
  · exact aside_pure ()

section Nested

variable {parks : List (List Step)}

theorem aside_runCallback (h : Nested p nested parks) (k : Callback) :
    Aside (runCallback p nested k) := by
  unfold runCallback
  refine .bind (aside_emit _) fun _ => .bind aside_get fun world => ?_
  exact .bind (aside_modify (fun _ => rfl) fun _ => rfl) fun _ => aside_perform (h.callback k) _

theorem aside_noteMessage (h : Nested p nested parks) (target : Target) (m : Message) :
    Aside (noteMessage p nested target m) := by
  unfold noteMessage
  refine .bind (aside_emit _) fun _ => .bind (aside_modify (fun _ => rfl) fun _ => rfl) fun _ => ?_
  refine .bind aside_get fun world => ?_
  exact .bind (aside_modify (fun _ => rfl) fun _ => rfl) fun _ =>
    aside_perform (h.actor target.id) _

theorem aside_dispatchTo (h : Nested p nested parks) (target : Target) (m : Message) :
    Aside (dispatchTo p nested target m) := by
  unfold dispatchTo
  split
  · exact aside_runCallback h _
  · exact aside_runCallback h _
  · exact aside_pure ()
  · exact aside_noteMessage h target m
  · exact aside_noteMessage h target m

theorem aside_runIdle (h : Nested p nested parks) (i : IdleHandler) :
    Aside (runIdle p nested i) := by
  unfold runIdle
  refine .bind (aside_emit _) fun _ => .bind aside_get fun world => ?_
  refine .bind (aside_modify (fun _ => rfl) fun _ => rfl) fun _ => ?_
  refine .bind (aside_perform (h.idle i) _) fun _ => .bind aside_get fun world' => ?_
  dsimp only
  split
  · exact .bind (aside_modify (fun _ => rfl) fun _ => rfl) fun _ => aside_pure _
  · exact aside_pure _

/-! ### The loop's own call -/

theorem takes_idlePass (h : Nested p nested parks) (batch : List IdleHandler) :
    Takes (At l .taking (.idle batch)) (idlePass p nested batch)
      fun _ => At l .taking (.idle []) := by
  induction batch with
  | nil => exact .pure fun w hw => hw
  | cons i rest ih =>
    unfold idlePass
    refine .bind (aside_runIdle h i _ _ _) fun outcome => ?_
    refine .bind (.map (.apply fun w hw => ?_)) fun _ => ih
    have hstep : w.step? (.act (.idle outcome)) =
        some { w with system := w.system.settle (w.system.queue.afterIdle i rest outcome) } := by
      simp only [Worker.step?, System.step?, hw.call, Option.map_some]
    refine ⟨_, _, hstep, rfl, rfl, hw.loop, hw.stage, ?_⟩
    cases outcome <;> rfl

theorem aside_whileParked {steps : List Step} (h : Aside (nested steps)) (timeout : Timeout) :
    Aside (whileParked nested timeout steps) := by
  unfold whileParked
  refine .bind aside_get fun world => .bind (aside_modify (fun _ => rfl) fun _ => rfl) fun _ => ?_
  exact .bind h fun _ => aside_modify (fun _ => rfl) fun _ => rfl

theorem takes_park (h : Nested p nested parks) (timeout : Timeout) (settled : Bool) :
    Takes (At l .taking (.parking timeout settled)) (park nested timeout parks) fun r w =>
      r.elim True fun parks' => parks' ⊆ parks ∧ At l .taking (.awake settled) w := by
  have hend {parks' : List (List Step)} (hsub : parks' ⊆ parks) :
      Takes (At l .taking (.parking timeout settled))
        (do
          modify fun w => { w with parker := { w.parker with notified := false } }
          return some parks' : Run (Option (List (List Step))))
        fun r w => r.elim True fun parks' => parks' ⊆ parks ∧ At l .taking (.awake settled) w :=
    Takes.wake (Takes.bind (Takes.silent (fun _ => rfl) fun _ => rfl) fun _ =>
      Takes.pure fun w hw => ⟨hsub, hw⟩)
  unfold park
  dsimp only
  split
  · exact .bind (.emit _) fun _ => hend (List.Subset.refl parks)
  · refine .bind (aside_get _ _ _) fun world => ?_
    split
    · exact .bind (.emit _) fun _ => hend (List.Subset.refl parks)
    · cases parks with
      | nil => exact .bind (.emit _) fun _ => .pure fun _ _ => trivial
      | cons steps parks =>
        refine .bind (.emit _) fun _ => ?_
        have haside := aside_whileParked (h.park steps List.mem_cons_self) timeout
        exact .bind (haside _ _ _) fun _ => hend (List.subset_cons_self steps parks)

theorem takes_look (settled : Bool) (world : World) :
    Takes (fun w => Matches world w ∧ At l .taking (.awake settled) w)
      (apply fun q => q.scan world.now settled) fun c => At l .taking c := by
  refine .apply fun w hw => ?_
  have hstep : w.step? (.act .look) = some { w with system :=
      { w.system.settle (w.system.queue.scan w.system.now settled) with
        lookedAt := w.system.now } } := by
    simp only [Worker.step?, System.step?, hw.2.call, Option.map_some]
  rw [← hw.1.2]
  exact ⟨_, _, hstep, rfl, rfl, hw.2.loop, hw.2.stage, rfl⟩

theorem takes_endIdlePass :
    Takes (At l .taking (.idle [])) (apply Queue.endIdlePass) fun c => At l .taking c := by
  refine .apply fun w hw => ?_
  have hstep : w.step? (.act .endPass) =
      some { w with system := w.system.settle w.system.queue.endIdlePass } := by
    simp only [Worker.step?, System.step?, hw.call, Option.map_some]
  exact ⟨_, _, hstep, rfl, rfl, hw.loop, hw.stage, rfl⟩

theorem takes_finish (h : Nested p nested parks) (bound : Nat) (c : Call) :
    Takes (At l .taking c) (finish p nested bound c parks) fun r w =>
      r.2 ⊆ parks ∧ Answered l r.1 w := by
  have hsame : parks ⊆ parks := List.Subset.refl parks
  -- a park uses up what is to be done in it, so `parks` gets smaller from one park to the next
  induction bound generalizing c parks with
  | zero =>
    simp only [finish]
    exact .pure fun _ _ => ⟨hsame, trivial⟩
  | succ bound ih =>
    cases c with
    | returned r =>
      cases r with
      | none =>
        simp only [finish]
        exact .pure fun w hw => ⟨hsame, hw⟩
      | some x =>
        simp only [finish]
        exact .pure fun w hw => ⟨hsame, hw⟩
    | awake settled =>
      simp only [finish]
      exact .bind .get fun world => .bind (takes_look settled world) fun c => ih h c hsame
    | idle batch =>
      simp only [finish]
      exact .bind (takes_idlePass h batch) fun _ => .bind takes_endIdlePass fun c => ih h c hsame
    | parking timeout settled =>
      simp only [finish]
      refine .bind (takes_park h timeout settled) fun r => ?_
      cases r with
      | none => exact .pure fun _ _ => ⟨hsame, trivial⟩
      | some parks' =>
        refine .assume fun hsub => ?_
        refine (ih (h.of_subset hsub) (.awake settled) (List.Subset.refl parks')).weaken ?_
        exact fun r w hr => ⟨List.Subset.trans hr.1 hsub, hr.2⟩

theorem takes_fetch (h : Nested p nested parks) {r : Option Message} :
    Takes (At l .ready (.returned r)) (fetch p nested parks) fun r w =>
      r.2 ⊆ parks ∧ Answered l r.1 w := by
  unfold fetch
  refine .bind .get fun world => (takes_finish h _ world.queue.call).move fun w hw => ?_
  have hstep : w.step? .call = some { w with
      system := { w.system with call := w.system.queue.call }, stage := .taking } := by
    simp only [Worker.step?, System.step?, hw.2.stage, hw.2.call, Option.map_some]
  refine ⟨_, _, hstep, rfl, rfl, hw.2.loop, rfl, ?_⟩
  rw [← hw.1.1]

/-- **The loop of a scenario is a loop at work.**  If its run has come to an end, the worker has
ended with the same counts. -/
theorem takes_runLoop (h : Nested p nested parks) (bound : Nat) {r : Option Message} :
    Takes (At l .ready (.returned r)) (runLoop p nested bound l parks) fun a w =>
      ∀ l', a = .ran l' → At l' .ended (.returned none) w := by
  induction bound generalizing l r parks with
  | zero =>
    simp only [runLoop]
    exact .pure fun _ _ => nofun
  | succ bound ih =>
    simp only [runLoop]
    refine .bind (takes_fetch h) fun answer => ?_
    obtain ⟨fetched, parks'⟩ := answer
    refine .assume fun hsub => ?_
    have h' := h.of_subset hsub
    cases fetched with
    | message x =>
      cases htarget : x.target with
      | none =>
        simp only [htarget]
        exact .pass htarget (ih h')
      | some target =>
        -- the loop notes the dispatch, its target does what it likes, and the loop notes the end
        simp only [htarget]
        refine .bind .get fun world => .deliver htarget (.bind (.note _) fun _ => ?_)
        refine .bind (aside_dispatchTo h' target x _ _ _) fun _ => ?_
        exact .dispatched (.bind (.note _) fun _ => ih h')
    | «over» =>
      refine .over (.bind (.note _) fun _ => .pure fun w hw l' he => ?_)
      cases he
      exact hw
    | asleep timeout => exact .pure fun _ _ => nofun
    | unfinished => exact .pure fun _ _ => nofun

end Nested

/-! ### Scenarios of operations -/

theorem aside_forM {xs : List β} {f : β → Run Unit} (h : ∀ x ∈ xs, Aside (f x)) :
    Aside (xs.forM f) := by
  induction xs with
  | nil => exact aside_pure ()
  | cons x xs ih =>
    refine .bind (h x List.mem_cons_self) fun _ => ?_
    exact ih fun y hy => h y (List.mem_cons_of_mem x hy)

theorem aside_nestedSteps (depth : Nat) {steps : List Step}
    (h : ∀ step ∈ steps, ∃ op, step = .operation op) : Aside (nestedSteps p depth steps) := by
  cases depth with
  | zero => exact aside_forM fun _ _ => aside_emit _
  | succ depth =>
    refine aside_forM fun step hstep => ?_
    obtain ⟨op, rfl⟩ := h step hstep
    exact .bind (aside_operate fun _ => op) fun _ => aside_emit _

/-- **A scenario runs its loop as a loop at work**, at whatever queue and clock reading, if all that
it nests are operations: what targets, callbacks and idle handlers do, and what is done during
parks.  If the run comes to an end, it does so with the loop that the worker has in the end. -/
theorem runLoop_leads {parks : List (List Step)} {w : Worker} {r : Option Message} {world : World}
    (depth bound : Nat)
    (hactor : ∀ t, ∀ step ∈ (p.actors.getD t {}).body.steps, ∃ op, step = .operation op)
    (hcallback : ∀ k, ∀ step ∈ (p.callbacks.getD k {}).steps, ∃ op, step = .operation op)
    (hidle : ∀ i, ∀ step ∈ (p.idleActors.getD i {}).body.steps, ∃ op, step = .operation op)
    (hpark : ∀ steps ∈ parks, ∀ step ∈ steps, ∃ op, step = .operation op)
    (hmatches : Matches world w) (hat : At l .ready (.returned r) w) :
    let result := (runLoop p (nestedSteps p depth) bound l parks).run world
    ∃ ms u, w.Leads ms u ∧ Matches result.2 u ∧
      ∀ l', result.1 = .ran l' → u.stage = .ended ∧ u.loop = l' := by
  have hnested : Nested p (nestedSteps p depth) parks := {
    actor := fun t => aside_nestedSteps depth (hactor t)
    callback := fun k => aside_nestedSteps depth (hcallback k)
    idle := fun i => aside_nestedSteps depth (hidle i)
    park := fun steps hsteps => aside_nestedSteps depth (hpark steps hsteps) }
  obtain ⟨ms, u, hu, hmu, hend⟩ := takes_runLoop hnested bound world w hmatches hat
  exact ⟨ms, u, hu, hmu, fun l' he => ⟨(hend l' he).stage, (hend l' he).loop⟩⟩

end Agenda.Scenario
