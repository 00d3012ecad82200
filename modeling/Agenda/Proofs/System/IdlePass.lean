import Agenda.Proofs.System.Course
import Mathlib.Data.List.Count

/-!
# The idle pass of a call

A call may run the idle handlers once.  `Call.passesLeft` is the number of passes that may still
begin in it; no step but a new call raises it, and a pass uses it up (`Step.passes_le`).

A pass begins with a copy of the registry, at a look that finds nothing due at all
(`WellFormed.scan_idle`): nothing is due at the head, and what stands behind it is due no earlier.
`Passing` says where a pass stands: the handlers that have run and those that are left make up the
copy, whatever happens to the registry meanwhile, and a registry that nobody else edits has lost one
registration for each run that asked for it.
-/

namespace Agenda

/-- The handlers that an idle pass begins with. -/
def Sight.pass? : Sight → Option (List IdleHandler)
  | .passes batch => some batch
  | _ => none

/-- The handler that has run. -/
def Sight.run? : Sight → Option IdleHandler
  | .runs h => some h
  | _ => none

/-- The number of idle passes that may still begin in a call. -/
def Call.passesLeft : Call → Nat
  | .parking _ false | .awake false => 1
  | _ => 0

/-- The registration that the run of a handler gives up, if it does. -/
def IdleOutcome.givesUp (i : IdleHandler) : IdleOutcome → List IdleHandler
  | .drop => [i]
  | .keep | .fault _ => []

/-- Somebody edits the registry of idle handlers, other than by the run of one. -/
def Action.edits : Action → Bool
  | .operate (.addIdle _) | .operate (.removeIdle _) => true
  | _ => false

/-! ### The look that begins a pass -/

namespace Queue

open Arena (Cell)

variable {q : Queue} {now : Time} {settled : Bool} {batch : List IdleHandler} {m : Message}

theorem first?_eq (h : q.arena.Sound) : q.arena.first? = q.pending.head? := by
  obtain ⟨cells, h⟩ := h
  have hp : q.pending = cells.map Prod.snd := h.toList_eq
  rw [Arena.first?, h.head_eq, hp]
  cases cells with
  | nil => rfl
  | cons c cells =>
    simp only [List.head?_cons, Option.map_some, List.map_cons]
    rw [h.get_eq List.mem_cons_self]

theorem WellFormed.lt_due_of_headIdle (h : q.WellFormed) (hi : q.headIdle now = true)
    (hm : m ∈ q.pending) : now < m.due := by
  rw [headIdle, first?_eq h.sound] at hi
  have hordered := h.orderly.ascending
  cases hp : q.pending with
  | nil =>
    rw [hp] at hm
    simp at hm
  | cons head rest =>
    rw [hp] at hi hm hordered
    have hhead : now < head.due := by simpa using hi
    rcases List.mem_cons.mp hm with rfl | hm
    · exact hhead
    · exact UInt64.lt_of_lt_of_le hhead ((List.pairwise_cons.mp hordered).1 m hm)

/-- **A pass begins where nothing is due**, with the handlers that are registered. -/
theorem WellFormed.scan_idle (h : q.WellFormed) (hv : (q.scan now settled).value = .idle batch) :
    q.quitting = false ∧ (∀ m ∈ q.pending, now < m.due) ∧ batch = q.idleHandlers ∧
      (q.scan now settled).state.idleHandlers = q.idleHandlers := by
  rcases scan_cases h.sound h.orderly now settled with
    ⟨_, he⟩ | ⟨_, _, _, _, _, _, _, _, he, _⟩ | ⟨_, _, he⟩
  · rw [he] at hv
    cases hv
  · rw [he] at hv
    cases hv
  · rw [he] at hv ⊢
    rcases sleepOrIdle_cases q now settled (timeoutAt now q.pending) with
      ⟨_, hs⟩ | ⟨hq, _, hi, _, hs⟩ | ⟨_, _, hs⟩
    · rw [hs] at hv
      cases hv
    · rw [hs] at hv ⊢
      cases hv
      exact ⟨hq, fun m hm => h.lt_due_of_headIdle hi hm, rfl, rfl⟩
    · rw [hs] at hv
      cases hv

theorem scan_passes_le (q : Queue) (now : Time) (settled : Bool) :
    ((q.scan now settled).value.sights.filterMap Sight.pass?).length +
      (q.scan now settled).value.passesLeft ≤ (Call.awake settled).passesLeft := by
  have hsleep : ∀ timeout, ((q.sleepOrIdle now settled timeout).value.sights.filterMap
      Sight.pass?).length + (q.sleepOrIdle now settled timeout).value.passesLeft ≤
        (Call.awake settled).passesLeft := by
    intro timeout
    unfold sleepOrIdle
    split
    · exact Nat.zero_le _
    · cases settled with
      | false =>
        cases q.headIdle now with
        | false => exact Nat.le_refl 1
        | true =>
          dsimp only
          split
          · exact Nat.le_refl 1
          · exact Nat.zero_le 1
      | true => exact Nat.le_refl 0
  unfold scan
  split
  · exact Nat.zero_le _
  · split
    · exact hsleep _
    · dsimp only
      split
      · exact hsleep _
      · exact Nat.zero_le _

theorem idleHandlers_perform (q : Queue) (now : Time) {op : Operation}
    (h : (Action.operate op).edits = false) :
    (q.perform now op).state.idleHandlers = q.idleHandlers := by
  cases op with
  | enqueue m due =>
    show (q.enqueue m due).state.idleHandlers = _
    rcases enqueue_cases q m due with ⟨_, hs, _⟩ | ⟨_, _, _, _, hs, _⟩
    · rw [hs]
    · rw [hs, link_idleHandlers]
  | postBarrier due =>
    show (q.postBarrier due).state.idleHandlers = _
    rcases postBarrier_cases q due with ⟨_, _, hs, _⟩ | ⟨_, _, hs, _⟩
    · rw [hs]
    · rw [hs, link_idleHandlers]
  | removeBarrier token =>
    show (q.removeBarrier token).state.idleHandlers = _
    unfold removeBarrier
    split <;> rfl
  | remove f => rfl
  | addIdle i => cases h
  | removeIdle i => cases h
  | quit safe =>
    show (q.quit now safe).state.idleHandlers = _
    unfold quit
    split
    · rfl
    · split <;> rfl

/-- The run of a handler takes from the registry what it gives up, and goes on to the rest. -/
theorem afterIdle_spec (q : Queue) (i : IdleHandler) (rest : List IdleHandler)
    (outcome : IdleOutcome) : (q.afterIdle i rest outcome).value = .idle rest ∧
      (q.afterIdle i rest outcome).state.idleHandlers =
        q.idleHandlers.diff (outcome.givesUp i) := by
  cases outcome with
  | keep => exact ⟨rfl, (List.diff_nil _).symm⟩
  | drop => exact ⟨rfl, by rw [IdleOutcome.givesUp, List.diff_cons, List.diff_nil]; rfl⟩
  | fault cause => exact ⟨rfl, (List.diff_nil _).symm⟩

end Queue

theorem IdleOutcome.givesUp_sublist (i : IdleHandler) (outcome : IdleOutcome) :
    (outcome.givesUp i).Sublist [i] := by
  cases outcome with
  | keep => exact List.nil_sublist _
  | drop => exact List.Sublist.refl _
  | fault cause => exact List.nil_sublist _

namespace System

variable {s t u v w x y : System} {a : Action} {as : List Action} {batch : List IdleHandler}

/-- The idle passes among what is seen. -/
def passesIn (xs : List Sight) : List (List IdleHandler) :=
  xs.filterMap Sight.pass?

/-- The runs of idle handlers among what is seen. -/
def runsIn (xs : List Sight) : List IdleHandler :=
  xs.filterMap Sight.run?

theorem passesIn_append (xs ys : List Sight) : passesIn (xs ++ ys) = passesIn xs ++ passesIn ys :=
  List.filterMap_append

theorem runsIn_append (xs ys : List Sight) : runsIn (xs ++ ys) = runsIn xs ++ runsIn ys :=
  List.filterMap_append

/-! ### Once in a call -/

theorem Step.passes_le (h : s.Step a t) (hne : a ≠ .call) :
    (passesIn (s.sights a t)).length + t.call.passesLeft ≤ s.call.passesLeft := by
  cases h with
  | operate op => exact Nat.le_of_eq (Nat.zero_add _)
  | tick h => exact Nat.le_of_eq (Nat.zero_add _)
  | call h => exact absurd rfl hne
  | @wake timeout settled h =>
    rw [h]
    cases settled <;> exact Nat.le_refl _
  | @look settled h =>
    rw [h]
    simp only [sights]
    exact Queue.scan_passes_le s.queue s.now settled
  | idle outcome h =>
    simp only [sights, h]
    cases outcome <;> exact Nat.le_refl 0
  | endPass h =>
    simp only [sights]
    exact Nat.zero_le _

theorem Leads.passes_le (h : Leads s as t) (hno : .call ∉ as) :
    (passesIn (s.seen as)).length + t.call.passesLeft ≤ s.call.passesLeft := by
  induction h with
  | refl => simp [seen, gather, passesIn]
  | @tail u t as a prior hstep ih =>
    simp only [List.mem_append, List.mem_singleton, not_or] at hno
    have hbefore := ih hno.1
    have hlast := (step?_eq_some.mp hstep).passes_le fun he => hno.2 he.symm
    rw [seen_tail prior hstep, passesIn_append, List.length_append]
    omega

theorem passes_le_one (hcall : s.step? .call = some t) (h : Leads t as u) (hno : .call ∉ as) :
    (passesIn (s.seen (.call :: as))).length ≤ 1 := by
  have hstart : passesIn (s.sights .call t) = [] ∧ t.call.passesLeft ≤ 1 := by
    cases step?_eq_some.mp hcall with
    | call hc =>
      simp only [sights, Queue.call]
      split <;> exact ⟨rfl, by decide⟩
  have hsplit : s.seen (.call :: as) = s.sights .call t ++ t.seen as := by
    simp only [seen, gather, hcall]
  have hrest := h.passes_le hno
  rw [hsplit, passesIn_append, hstart.1, List.nil_append]
  omega

/-! ### What runs in a pass -/

/-- The registration that is given up at a step, if one is. -/
def givenUp (s : System) (a : Action) (_ : System) : List IdleHandler :=
  match a, s.call with
  | .idle outcome, .idle (i :: _) => outcome.givesUp i
  | _, _ => []

/-- The handlers whose runs have given up a registration, in order. -/
def dropped (s : System) (as : List Action) : List IdleHandler :=
  gather step? givenUp s as

theorem dropped_tail (h : Leads s as t) (hstep : t.step? a = some u) :
    s.dropped (as ++ [a]) = s.dropped as ++ t.givenUp a u :=
  gather_concat givenUp (leads_iff.mp h) hstep

/-- Where a pass stands that began with `batch` in `w` and has come to `x`. -/
structure Passing (w : System) (during : List Action) (batch left : List IdleHandler)
    (x : System) : Prop where
  call : x.call = .idle left
  batch : runsIn (w.seen during) ++ left = batch
  dropped : (w.dropped during).Sublist (runsIn (w.seen during))
  registry : (∀ a ∈ during, a.edits = false) →
    x.queue.idleHandlers = w.queue.idleHandlers.diff (w.dropped during)

namespace Passing

variable {during : List Action} {left : List IdleHandler}

theorem of_quiet (h : Passing w during batch left x) (hl : Leads w during x)
    (hstep : x.step? a = some y) (hcall : y.call = x.call) (hsights : x.sights a y = [])
    (hgiven : x.givenUp a y = [])
    (hregistry : a.edits = false → y.queue.idleHandlers = x.queue.idleHandlers) :
    Passing w (during ++ [a]) batch left y := by
  have hseen := seen_tail hl hstep
  have hdropped := dropped_tail hl hstep
  rw [hsights, List.append_nil] at hseen
  rw [hgiven, List.append_nil] at hdropped
  refine ⟨hcall.trans h.call, by rw [hseen, h.batch], by rw [hseen, hdropped]; exact h.dropped,
    fun hquiet => ?_⟩
  rw [hdropped, ← h.registry fun b hb => hquiet b (List.mem_append_left _ hb)]
  exact hregistry (hquiet a (by simp))

theorem idle {i : IdleHandler} {rest : List IdleHandler} (h : Passing w during batch (i :: rest) x)
    (hl : Leads w during x) (outcome : IdleOutcome) :
    Passing w (during ++ [.idle outcome]) batch rest
      (x.settle (x.queue.afterIdle i rest outcome)) := by
  have hstep := step?_eq_some.mpr (Step.idle outcome h.call)
  obtain ⟨hvalue, hregistry⟩ := x.queue.afterIdle_spec i rest outcome
  have hrun : runsIn (w.seen (during ++ [.idle outcome])) = runsIn (w.seen during) ++ [i] := by
    rw [seen_tail hl hstep, runsIn_append]
    simp only [sights, h.call]
    rfl
  have hdropped : w.dropped (during ++ [.idle outcome]) =
      w.dropped during ++ outcome.givesUp i := by
    rw [dropped_tail hl hstep]
    simp only [givenUp, h.call]
  refine ⟨hvalue, ?_, ?_, fun hquiet => ?_⟩
  · rw [hrun, List.append_assoc]
    exact h.batch
  · rw [hrun, hdropped]
    exact h.dropped.append (outcome.givesUp_sublist i)
  · rw [hdropped, List.diff_append,
      ← h.registry fun b hb => hquiet b (List.mem_append_left _ hb)]
    exact hregistry

/-- **A step that does not end a pass** leaves it where it is or runs the next handler. -/
theorem step (h : Passing w during batch left x) (hl : Leads w during x) (hs : x.Step a y)
    (hne : a ≠ .endPass) : ∃ left', Passing w (during ++ [a]) batch left' y := by
  have hstep := step?_eq_some.mpr hs
  cases hs with
  | operate op =>
    exact ⟨left, h.of_quiet hl hstep rfl rfl rfl (Queue.idleHandlers_perform x.queue x.now)⟩
  | tick hle => exact ⟨left, h.of_quiet hl hstep rfl rfl rfl fun _ => rfl⟩
  | call hc =>
    rw [h.call] at hc
    cases hc
  | wake hc =>
    rw [h.call] at hc
    cases hc
  | look hc =>
    rw [h.call] at hc
    cases hc
  | @idle i rest outcome hc =>
    obtain rfl : left = i :: rest := Call.idle.inj (h.call.symm.trans hc)
    exact ⟨rest, h.idle hl outcome⟩
  | endPass hc => exact absurd rfl hne

end Passing

/-- **Until it ends, a pass runs its handlers one after the other**, whatever else is done. -/
theorem Leads.passing {during : List Action} (h : Leads w during x) (hw : w.call = .idle batch)
    (hend : .endPass ∉ during) : ∃ left, Passing w during batch left x := by
  induction h with
  | refl => exact ⟨batch, hw, rfl, List.Sublist.refl _, fun _ => (List.diff_nil _).symm⟩
  | @tail x y during a prior hstep ih =>
    simp only [List.mem_append, List.mem_singleton, not_or] at hend
    obtain ⟨left, hpassing⟩ := ih hend.1
    exact hpassing.step prior (step?_eq_some.mp hstep) fun he => hend.2 he.symm

/-! ### What a pass leaves of the registry -/

theorem filter_diff {p : IdleHandler → Bool} {hs ds : List IdleHandler}
    (h : ∀ d ∈ ds, p d = false) : (hs.diff ds).filter p = hs.filter p := by
  induction ds generalizing hs with
  | nil => rw [List.diff_nil]
  | cons d ds ih =>
    have hd : d ∉ hs.filter p := by
      intro hmem
      have hp := (List.mem_filter.mp hmem).2
      rw [h d List.mem_cons_self] at hp
      cases hp
    rw [List.diff_cons, ih fun e he => h e (List.mem_cons_of_mem d he), ← List.erase_filter,
      List.erase_of_not_mem hd]

/-- A registry that began with the copy has every registration that is given up. -/
theorem Passing.count {during : List Action} {left : List IdleHandler}
    (h : Passing w during w.queue.idleHandlers left x) (hquiet : ∀ a ∈ during, a.edits = false)
    (i : IdleHandler) : x.queue.idleHandlers.count i + (w.dropped during).count i =
      w.queue.idleHandlers.count i := by
  have hle : (w.dropped during).count i ≤ w.queue.idleHandlers.count i := by
    have hruns := h.dropped.count_le i
    have hall := congrArg (List.count i) h.batch
    rw [List.count_append] at hall
    omega
  rw [h.registry hquiet, List.count_diff]
  omega

/-- **Only a look begins a pass**, and only where nothing is due. -/
theorem Step.begins (h : v.Step a w) (hw : v.queue.WellFormed) (hx : .passes batch ∈ v.sights a w) :
    a = .look ∧ w.call = .idle batch ∧ w.queue.idleHandlers = v.queue.idleHandlers ∧
      v.queue.quitting = false ∧ (∀ m ∈ v.queue.pending, v.now < m.due) ∧
      batch = v.queue.idleHandlers := by
  rcases h.sights_cases hx with
    ⟨_, hx⟩ | ⟨_, _, ⟨_, hx⟩ | hx⟩ | ⟨settled, rfl, rfl, hx⟩ | ⟨_, _, hx⟩
  · cases hx
  · cases hx
  · cases hx
  · have hv := Call.passes_mem_sights.mp hx
    obtain ⟨hq, hdue, hbatch, hsame⟩ := hw.scan_idle hv
    exact ⟨rfl, hv, hsame, hq, hdue, hbatch⟩
  · cases hx

/-- **The idle pass of a call.**  Whatever is done meanwhile, at most one pass begins in a call.
One that begins does so while the queue is not quitting and nothing that is pending is due, with a
copy of the registry.  From then on until it ends, the handlers that have run, in order, and those
that are left make up the copy, and it ends when none is left.  If nobody else edits the registry,
each handler has then lost one registration for each of its runs that gave it up, and the
registrations of the handlers that gave up none are in their old order. -/
theorem idle_pass_runs_each_once (h : s.Reachable) (hcall : s.step? .call = some t)
    (hl : Leads t as u) (hno : .call ∉ as) :
    (passesIn (s.seen (.call :: as))).length ≤ 1 ∧
    ∀ before a after v w batch, as = before ++ a :: after → Leads t before v →
      v.step? a = some w → .passes batch ∈ v.sights a w →
        (a = .look ∧ v.queue.quitting = false ∧ (∀ m ∈ v.queue.pending, v.now < m.due) ∧
          batch = v.queue.idleHandlers) ∧
        ∀ during rest x, after = during ++ rest → Leads w during x → .endPass ∉ during →
          (∃ left, x.call = .idle left ∧ runsIn (w.seen during) ++ left = batch ∧
            ∀ y, x.step? .endPass = some y →
              left = [] ∧ y.queue.idleHandlers = x.queue.idleHandlers) ∧
          ((∀ b ∈ during, b.edits = false) →
            (∀ i, x.queue.idleHandlers.count i + (w.dropped during).count i =
              v.queue.idleHandlers.count i) ∧
            x.queue.idleHandlers.filter (· ∉ w.dropped during) =
              v.queue.idleHandlers.filter (· ∉ w.dropped during)) := by
  refine ⟨passes_le_one hcall hl hno, fun before a after v w batch _ hv hstep hx => ?_⟩
  have hw : v.queue.WellFormed :=
    hv.wellFormed (((Leads.refl s).tail hcall).wellFormed h.queue.wellFormed)
  obtain ⟨rfl, hidle, hsame, hq, hdue, rfl⟩ := (step?_eq_some.mp hstep).begins hw hx
  refine ⟨⟨rfl, hq, hdue, rfl⟩, fun during rest x _ hduring hend => ?_⟩
  obtain ⟨left, hpassing⟩ := hduring.passing hidle hend
  rw [← hsame] at hpassing ⊢
  refine ⟨⟨left, hpassing.call, hpassing.batch, fun y hy => ?_⟩, fun hquiet => ⟨?_, ?_⟩⟩
  · cases step?_eq_some.mp hy with
    | endPass hc => exact ⟨Call.idle.inj (hpassing.call.symm.trans hc), rfl⟩
  · exact hpassing.count hquiet
  · rw [hpassing.registry hquiet]
    exact filter_diff fun d hd => by simpa using hd

/-- Of three handlers, one that is registered twice gives up both registrations, and one faults; a
message and a barrier are pending, and a handler sends another message. -/
theorem idle_pass_runs_each_once_of_four :
    let news : Message := { target := some ⟨0, "news"⟩ }
    let sets : List Action := [.operate (.addIdle 1), .operate (.addIdle 2), .operate (.addIdle 1),
      .operate (.addIdle 3), .operate (.postBarrier 15), .operate (.enqueue news 20)]
    let during : List Action := [.idle .drop, .operate (.enqueue news 0),
      .idle (.fault (.text "lost")), .tick 18, .idle .drop, .idle .keep]
    let as : List Action := [.wake, .look] ++ during ++ [.endPass, .wake, .look]
    ∃ s t v w x u, Leads (initial true 10) sets s ∧ s.step? .call = some t ∧ Leads t [.wake] v ∧
      v.step? .look = some w ∧ Leads w during x ∧ Leads t as u ∧
      (passesIn (s.seen (.call :: as))).length ≤ 1 ∧
      (v.queue.quitting = false ∧ ∀ m ∈ v.queue.pending, v.now < m.due) ∧
      x.call = .idle [] ∧ runsIn (w.seen during) = [1, 2, 1, 3] ∧ w.dropped during = [1, 1] ∧
      x.queue.idleHandlers.count 1 + 2 = 2 ∧ x.queue.idleHandlers.count 2 = 1 ∧
      x.queue.idleHandlers.filter (· ∉ [1, 1]) = [2, 3] := by
  intro news sets during as
  obtain ⟨s, t, v, w, x, u, hs, ht, hv, hw, hx, hu, hbegins, hdropped, hend⟩ :
      ∃ s t v w x u : System, sets.foldlM step? (initial true 10) = some s ∧
        s.step? .call = some t ∧ [Action.wake].foldlM step? t = some v ∧
        v.step? .look = some w ∧ during.foldlM step? w = some x ∧ as.foldlM step? t = some u ∧
        .passes [1, 2, 1, 3] ∈ v.sights .look w ∧ w.dropped during = [1, 1] ∧
        x.call = .idle [] := by
    let s : System := (sets.foldlM step? (initial true 10)).getD {}
    let t : System := (s.step? .call).getD {}
    let v : System := (t.step? .wake).getD {}
    let w : System := (v.step? .look).getD {}
    refine ⟨s, t, v, w, (during.foldlM step? w).getD {}, (as.foldlM step? t).getD {}, ?_⟩
    decide +kernel
  rw [← leads_iff] at hs hv hx hu
  obtain ⟨hone, hpass⟩ := idle_pass_runs_each_once ⟨true, 10, sets, hs⟩ ht hu (by simp [as, during])
  obtain ⟨⟨_, hq, hdue, hbatch⟩, hcourse⟩ :=
    hpass [.wake] .look (during ++ [.endPass, .wake, .look]) v w _ rfl hv hw hbegins
  obtain ⟨⟨left, hcall, hruns, _⟩, hregistry⟩ :=
    hcourse during [.endPass, .wake, .look] x rfl hx (by simp [during])
  obtain ⟨hcount, horder⟩ := hregistry (by simp [during, Action.edits])
  rw [hdropped] at hcount horder
  rw [← hbatch] at hcount horder
  obtain rfl : [] = left := Call.idle.inj (hend.symm.trans hcall)
  rw [List.append_nil] at hruns
  exact ⟨s, t, v, w, x, u, hs, ht, hv, hw, hx, hu, hone, ⟨hq, hdue⟩, hend, hruns, hdropped,
    hcount 1, hcount 2, horder⟩

end System

end Agenda
