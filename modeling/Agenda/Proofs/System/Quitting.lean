import Agenda.Proofs.Queue.Quitting
import Agenda.Proofs.System.Course

/-!
# How a system winds down

What a quit that is allowed means for all that comes after it, whoever does what.  `WindsDown` lists
it: the queue takes nothing in, every look ends its call, so no park is long and no idle pass
begins, and the consumer gets no more messages than were pending, and then none.  Each part has a
lemma for a single step (`Step.prompt`, `Step.answers_cases`) and follows for a course of events by
induction.

`Over` is the state in which the consumer has been told that there are no more messages.  Nothing
leaves it (`Leads.over`), and only a quit leads to it (`Leads.exists_quit`).
-/

namespace Agenda.System

variable {s t u : System} {a : Action} {as bs : List Action} {xs : List Sight} {m : Message}

/-! ### The flags of the queue -/

theorem Step.wellFormed (h : s.Step a t) (hw : s.queue.WellFormed) : t.queue.WellFormed := by
  rw [h.queue_eq]
  exact Queue.turns_wellFormed hw _

theorem Step.quitting (h : s.Step a t) (hw : s.queue.WellFormed) (hq : s.queue.quitting = true) :
    t.queue.quitting = true := by
  rw [h.queue_eq]
  exact Queue.quitting_turns hw hq _

theorem Step.disposed (h : s.Step a t) (hw : s.queue.WellFormed) (hd : s.queue.disposed = true) :
    t.queue.disposed = true := by
  rw [h.queue_eq]
  exact Queue.disposed_turns hw hd _

theorem Step.shrinks (h : s.Step a t) (hw : s.queue.WellFormed) (hq : s.queue.quitting = true) :
    t.queue.pending.Sublist s.queue.pending := by
  rw [h.queue_eq]
  exact Queue.pending_turns_sublist hw hq _

theorem Leads.quittable (h : Leads s as t) (hw : s.queue.WellFormed) :
    t.queue.quittable = s.queue.quittable := by
  rw [h.queue_eq]
  exact Queue.quittable_turns hw _

theorem Leads.quitting (h : Leads s as t) (hw : s.queue.WellFormed) (hq : s.queue.quitting = true) :
    t.queue.quitting = true := by
  rw [h.queue_eq]
  exact Queue.quitting_turns hw hq _

theorem Step.quits (h : s.Step a t) (hw : s.queue.WellFormed) (hs : s.queue.quitting = false)
    (ht : t.queue.quitting = true) : ∃ safe, a = .operate (.quit safe) ∧
      (s.queue.quit s.now safe).value = .ok () ∧ s.queue.quittable = true ∧
      ∀ m ∈ t.queue.pending, m.due ≤ s.now := by
  have hsame : s.queue.quitting ≠ true := by
    rw [hs]
    exact Bool.false_ne_true
  cases h with
  | operate op =>
    obtain ⟨now, safe, he, hv, hquittable, hdue⟩ := (hw.onward (.operate s.now op)).quits hs ht
    cases he
    exact ⟨safe, rfl, hv, hquittable, hdue⟩
  | tick h => exact absurd ht hsame
  | call h => exact absurd ht hsame
  | wake h => exact absurd ht hsame
  | look h =>
    obtain ⟨_, _, he, _⟩ := (hw.onward (.look s.now _)).quits hs ht
    cases he
  | idle outcome h => cases outcome <;> exact absurd ht hsame
  | endPass h => exact absurd ht hsame

theorem Step.disposes (h : s.Step a t) (hw : s.queue.WellFormed) (hs : s.queue.disposed = false)
    (ht : t.queue.disposed = true) : a = .look ∧ t.call = .returned none := by
  have hsame : s.queue.disposed ≠ true := by
    rw [hs]
    exact Bool.false_ne_true
  cases h with
  | operate op =>
    obtain ⟨_, _, he, _⟩ := (hw.onward (.operate s.now op)).disposes hs ht
    cases he
  | tick h => exact absurd ht hsame
  | call h => exact absurd ht hsame
  | wake h => exact absurd ht hsame
  | look h =>
    obtain ⟨now, settled, he, hv⟩ := (hw.onward (.look s.now _)).disposes hs ht
    cases he
    exact ⟨rfl, hv⟩
  | idle outcome h => cases outcome <;> exact absurd ht hsame
  | endPass h => exact absurd ht hsame

/-- **A queue that is quitting was told to.** -/
theorem Leads.exists_quit (h : Leads s as t) (hw : s.queue.WellFormed)
    (hs : s.queue.quitting = false) (ht : t.queue.quitting = true) :
    ∃ before safe after u, as = before ++ .operate (.quit safe) :: after ∧ Leads s before u ∧
      (u.queue.quit u.now safe).value = .ok () ∧ u.queue.quittable = true := by
  induction h with
  | refl =>
    rw [hs] at ht
    cases ht
  | @tail v t as a prior hstep ih =>
    cases hv : v.queue.quitting with
    | true =>
      obtain ⟨before, safe, after, u, rfl, hu, hok, hquittable⟩ := ih hv
      exact ⟨before, safe, after ++ [a], u, by simp, hu, hok, hquittable⟩
    | false =>
      obtain ⟨safe, rfl, hok, hquittable, _⟩ :=
        (step?_eq_some.mp hstep).quits (prior.wellFormed hw) hv ht
      exact ⟨as, safe, [], v, rfl, prior, hok, hquittable⟩

/-- **What is pending while a queue is quitting is due.** -/
theorem Reachable.due_of_quitting (h : s.Reachable) (hq : s.queue.quitting = true)
    (hm : m ∈ s.queue.pending) : m.due ≤ s.now := by
  obtain ⟨quittable, now, as, h⟩ := h
  induction h with
  | refl => cases hq
  | @tail u t as a prior hstep ih =>
    have hw := prior.wellFormed (Queue.wellFormed_fresh quittable)
    have hs := step?_eq_some.mp hstep
    cases hu : u.queue.quitting with
    | true => exact UInt64.le_trans (ih hu ((hs.shrinks hw hu).subset hm)) hs.now_le
    | false =>
      obtain ⟨_, _, _, _, hdue⟩ := hs.quits hw hu hq
      exact UInt64.le_trans (hdue m hm) hs.now_le

/-! ### After the last message -/

/-- The consumer has been told that there are no more messages. -/
def Over (s : System) : Prop :=
  s.queue.disposed = true ∧ s.call = .returned none

theorem Step.over (h : s.Step a t) (hw : s.queue.WellFormed) (hs : s.Over) :
    t.Over ∧ ∀ x ∈ s.sights a t, x = .answers none := by
  obtain ⟨hd, hc⟩ := hs
  cases h with
  | operate op => exact ⟨⟨(Step.operate op).disposed hw hd, hc⟩, by simp [sights]⟩
  | tick h => exact ⟨⟨hd, hc⟩, by simp [sights]⟩
  | call h =>
    have hcall : s.queue.call = .returned none := if_pos hd
    exact ⟨⟨hd, hcall⟩, by simp [sights, hcall, Call.sights]⟩
  | wake h =>
    rw [hc] at h
    cases h
  | look h =>
    rw [hc] at h
    cases h
  | idle outcome h =>
    rw [hc] at h
    cases h
  | endPass h =>
    rw [hc] at h
    cases h

theorem Step.over_of_answer (h : s.Step a t) (hw : s.queue.WellFormed)
    (hx : .answers none ∈ s.sights a t) : t.Over := by
  rcases h.sights_cases hx with ⟨_, hx⟩ | ⟨rfl, rfl, ⟨hd, _⟩ | hx⟩ | ⟨settled, rfl, rfl, hx⟩ |
    ⟨_, _, hx⟩
  · cases hx
  · exact ⟨hd, if_pos hd⟩
  · cases hx
  · have hv := Call.answers_mem_sights.mp hx
    exact ⟨hw.disposed_of_scan hv, hv⟩
  · cases hx

theorem Step.quitting_of_answer (h : s.Step a t) (hw : s.queue.WellFormed)
    (hx : .answers none ∈ s.sights a t) : s.queue.quitting = true := by
  have hover := h.over_of_answer hw hx
  by_contra hq
  obtain ⟨safe, rfl, _⟩ :=
    h.quits hw (by simpa using hq) ((h.wellFormed hw).quitting_of_disposed hover.1)
  simp [sights] at hx

theorem Leads.over (h : Leads s as t) (hw : s.queue.WellFormed) (hs : s.Over) :
    t.Over ∧ ∀ x ∈ s.seen as, x = .answers none := by
  induction h with
  | refl => exact ⟨hs, by simp [seen, gather]⟩
  | @tail v t as a prior hstep ih =>
    obtain ⟨hover, hseen⟩ := ih
    obtain ⟨hover', hsights⟩ := (step?_eq_some.mp hstep).over (prior.wellFormed hw) hover
    refine ⟨hover', fun x hx => ?_⟩
    rw [seen_tail prior hstep] at hx
    rcases List.mem_append.mp hx with hx | hx
    · exact hseen x hx
    · exact hsights x hx

theorem Leads.over_of_answer (h : Leads s as t) (hw : s.queue.WellFormed)
    (hx : .answers none ∈ s.seen as) : t.Over := by
  induction h with
  | refl => simp [seen, gather] at hx
  | @tail v t as a prior hstep ih =>
    have hs := step?_eq_some.mp hstep
    have hwv := prior.wellFormed hw
    rw [seen_tail prior hstep] at hx
    rcases List.mem_append.mp hx with hx | hx
    · exact (hs.over hwv (ih hx)).1
    · exact hs.over_of_answer hwv hx

/-! ### Calls -/

/-- What is seen of a call after so many steps of the consumer in it, and where it stands, if it
returns after one immediate park or none. -/
inductive Prompt : Nat → List Sight → Call → Prop
  | refused : Prompt 0 [.answers none] (.returned none)
  | parked : Prompt 0 [.parks .immediate] (.parking .immediate false)
  | woken : Prompt 1 [.parks .immediate] (.awake false)
  | over (m : Option Message) : Prompt 2 [.parks .immediate, .answers m] (.returned m)

theorem Step.prompt {n : Nat} (h : s.Step a t) (hw : s.queue.WellFormed)
    (hq : s.queue.quitting = true) (hne : a ≠ .call) (hp : Prompt n xs s.call) :
    Prompt (n + [a].countP Action.isConsumer) (xs ++ s.sights a t) t.call := by
  cases h with
  | operate op => simpa [sights, Action.isConsumer] using hp
  | tick h => simpa [sights, Action.isConsumer] using hp
  | call h => exact absurd rfl hne
  | wake h =>
    rw [h] at hp
    cases hp
    exact .woken
  | look h =>
    rw [h] at hp
    cases hp
    obtain ⟨r, hr, _⟩ := Queue.scan_returns hw hq s.now false
    simp only [sights, settle, hr]
    exact .over r
  | idle outcome h =>
    rw [h] at hp
    cases hp
  | endPass h =>
    rw [h] at hp
    cases hp

theorem Leads.prompt {n : Nat} (h : Leads s as t) (hw : s.queue.WellFormed)
    (hq : s.queue.quitting = true) (hno : .call ∉ as) (hp : Prompt n xs s.call) :
    Prompt (n + as.countP Action.isConsumer) (xs ++ s.seen as) t.call := by
  induction h with
  | refl => simpa [seen, gather] using hp
  | @tail u t as a prior hstep ih =>
    simp only [List.mem_append, List.mem_singleton, not_or] at hno
    rw [seen_tail prior hstep, ← List.append_assoc, List.countP_append, ← Nat.add_assoc]
    exact (step?_eq_some.mp hstep).prompt (prior.wellFormed hw) (prior.quitting hw hq)
      (fun he => hno.2 he.symm) (ih hno.1)

/-- **A call of a queue that is quitting is prompt**, whatever is done meanwhile. -/
theorem prompt_of_call (hw : s.queue.WellFormed) (hq : s.queue.quitting = true)
    (hcall : s.step? .call = some t) (h : Leads t as u) (hno : .call ∉ as) :
    Prompt (as.countP Action.isConsumer) (s.seen (.call :: as)) u.call := by
  have hs := step?_eq_some.mp hcall
  have hstart : Prompt 0 (s.sights .call t) t.call := by
    cases hs with
    | call hc =>
      simp only [sights, Queue.call]
      split
      · exact .refused
      · exact .parked
  have hsplit : s.seen (.call :: as) = s.sights .call t ++ t.seen as := by
    simp only [seen, gather, hcall]
  rw [hsplit, ← Nat.zero_add (as.countP _)]
  exact h.prompt (hs.wellFormed hw) (hs.quitting hw hq) hno hstart

/-! ### Answers -/

/-- What a step answers while a queue is quitting: nothing, that there are no more messages, or a
message, which leaves the queue. -/
theorem Step.answers_cases (h : s.Step a t) (hw : s.queue.WellFormed)
    (hq : s.queue.quitting = true) :
    answersIn (s.sights a t) = [] ∨ (answersIn (s.sights a t) = [none] ∧ t.Over) ∨
      ∃ m, answersIn (s.sights a t) = [some m] ∧
        t.queue.pending.length + 1 = s.queue.pending.length := by
  cases h with
  | operate op => exact Or.inl rfl
  | tick h => exact Or.inl rfl
  | call h =>
    simp only [sights, Over, Queue.call]
    split
    · exact Or.inr (Or.inl ⟨rfl, ‹_›, rfl⟩)
    · exact Or.inl rfl
  | wake h => exact Or.inl rfl
  | @look settled h =>
    obtain ⟨r, hr, hd⟩ := Queue.scan_returns hw hq s.now settled
    simp only [sights, Over, settle, hr]
    cases r with
    | none => exact Or.inr (Or.inl ⟨rfl, hd rfl, rfl⟩)
    | some m =>
      obtain ⟨ahead, rest, ht⟩ := hw.scan_took hr
      refine Or.inr (Or.inr ⟨m, rfl, ?_⟩)
      rw [ht.left, ht.pending]
      simp only [List.length_append, List.length_cons]
      omega
  | idle outcome h =>
    simp only [sights, h]
    exact Or.inl rfl
  | endPass h =>
    simp only [sights]
    exact Or.inl rfl

/-- **The answers of a queue that is quitting** are messages, no more than were pending, and then
nothing but the end. -/
theorem Leads.answers (h : Leads s as t) (hw : s.queue.WellFormed) (hq : s.queue.quitting = true) :
    ∃ (ms : List Message) (k : Nat), answersIn (s.seen as) = ms.map some ++ List.replicate k none ∧
      ms.length + t.queue.pending.length ≤ s.queue.pending.length ∧ (k ≠ 0 → t.Over) := by
  induction h with
  | refl => exact ⟨[], 0, rfl, by simp, fun h => absurd rfl h⟩
  | @tail u t as a prior hstep ih =>
    obtain ⟨ms, k, he, hlen, hover⟩ := ih
    have hs := step?_eq_some.mp hstep
    have hwu := prior.wellFormed hw
    have hqu := prior.quitting hw hq
    have hshrinks := (hs.shrinks hwu hqu).length_le
    rw [seen_tail prior hstep, answersIn_append, he]
    rcases hs.answers_cases hwu hqu with hnone | ⟨hend, hover'⟩ | ⟨m, hm, hone⟩
    · refine ⟨ms, k, by rw [hnone, List.append_nil], by omega, fun hk => ?_⟩
      exact (hs.over hwu (hover hk)).1
    · refine ⟨ms, k + 1, ?_, by omega, fun _ => hover'⟩
      rw [hend, List.append_assoc, List.replicate_succ']
    · -- a message is answered only before the end
      have hk : k = 0 := by
        by_contra hk
        have hx := (hs.over hwu (hover hk)).2
        have hmem : Sight.answers (some m) ∈ u.sights a t := mem_answersIn.mp (by rw [hm]; simp)
        cases hx _ hmem
      refine ⟨ms ++ [m], 0, ?_, ?_, fun h => absurd rfl h⟩
      · rw [hm, hk]
        simp
      · rw [List.length_append, List.length_singleton]
        omega

/-! ### The end comes -/

/-- The number of the consumer's own steps until its call is over, at a queue that is quitting. -/
def stepsLeft : Call → Nat
  | .returned _ => 3
  | .parking .. => 2
  | .awake _ => 1
  | .idle batch => batch.length + 3

/-- A bound for the number of steps that the consumer of a quitting queue takes until it is told
that there are no more messages: a call takes three, and each but the last takes a message. -/
def patience (s : System) : Nat :=
  3 * s.queue.pending.length + stepsLeft s.call

theorem exists_consumer_step (s : System) :
    ∃ a t, a.isConsumer = true ∧ s.step? a = some t := by
  cases hc : s.call with
  | parking timeout settled => exact ⟨.wake, _, rfl, step?_eq_some.mpr (.wake hc)⟩
  | awake settled => exact ⟨.look, _, rfl, step?_eq_some.mpr (.look hc)⟩
  | idle batch =>
    cases batch with
    | nil => exact ⟨.endPass, _, rfl, step?_eq_some.mpr (.endPass hc)⟩
    | cons i rest => exact ⟨.idle .keep, _, rfl, step?_eq_some.mpr (.idle .keep hc)⟩
  | returned m => exact ⟨.call, _, rfl, step?_eq_some.mpr (.call hc)⟩

theorem Step.patience_le (h : s.Step a t) (hw : s.queue.WellFormed) (hq : s.queue.quitting = true) :
    .answers none ∈ s.sights a t ∨ t.patience + (if a.isConsumer then 1 else 0) ≤ s.patience := by
  have hlen := (h.shrinks hw hq).length_le
  have hanswers := h.answers_cases hw hq
  unfold patience
  cases h with
  | operate op => exact Or.inr (Nat.add_le_add_right (Nat.mul_le_mul_left 3 hlen) _)
  | tick h => exact Or.inr (Nat.le_refl _)
  | call h =>
    simp only [sights, Queue.call, h]
    split
    · exact Or.inl List.mem_cons_self
    · exact Or.inr (Nat.le_refl _)
  | wake h =>
    rw [h]
    exact Or.inr (Nat.le_refl _)
  | @look settled h =>
    obtain ⟨r, hr, _⟩ := Queue.scan_returns hw hq s.now settled
    simp only [sights, settle, hr, h] at hlen hanswers ⊢
    cases r with
    | none => exact Or.inl List.mem_cons_self
    | some m =>
      rcases hanswers with hnil | ⟨hend, _⟩ | ⟨_, _, hone⟩
      · cases hnil
      · cases hend
      · refine Or.inr ?_
        simp only [stepsLeft, Action.isConsumer, if_true]
        omega
  | @idle i rest outcome h =>
    have hcall : (s.queue.afterIdle i rest outcome).value = .idle rest := by
      cases outcome <;> rfl
    simp only [settle, hcall, h] at hlen ⊢
    refine Or.inr ?_
    simp only [stepsLeft, Action.isConsumer, if_true, List.length_cons]
    omega
  | endPass h =>
    rw [h]
    exact Or.inr (Nat.le_refl _)

/-- **The end comes**: a consumer that goes on long enough is told that there are no more
messages. -/
theorem Leads.answers_none (h : Leads s as t) (hw : s.queue.WellFormed)
    (hq : s.queue.quitting = true) :
    .answers none ∈ s.seen as ∨ t.patience + as.countP Action.isConsumer ≤ s.patience := by
  induction h with
  | refl => exact Or.inr (Nat.le_refl _)
  | @tail u t as a prior hstep ih =>
    rw [seen_tail prior hstep]
    rcases ih with hx | hle
    · exact Or.inl (List.mem_append_left _ hx)
    · rcases (step?_eq_some.mp hstep).patience_le (prior.wellFormed hw) (prior.quitting hw hq) with
        hx | hle'
      · exact Or.inl (List.mem_append_right _ hx)
      · refine Or.inr ?_
        rw [List.countP_append, List.countP_singleton]
        omega

/-! ### The whole of it -/

/-- What holds of all that can happen from now on, whoever does what. -/
structure WindsDown (s : System) : Prop where
  /-- The queue takes nothing in. -/
  shrinks : ∀ as t a u, Leads s as t → t.step? a = some u →
    u.queue.pending.Sublist t.queue.pending
  /-- A look ends the call: it leads neither to a park nor to an idle pass. -/
  looks : ∀ as t u, Leads s as t → t.step? .look = some u → ∃ m, u.call = .returned m
  /-- All that is seen of a call is its answer, or one immediate park and then its answer, which it
  has after two steps. -/
  calls : ∀ as t u bs v, Leads s as t → t.step? .call = some u → Leads u bs v → .call ∉ bs →
    Prompt (bs.countP Action.isConsumer) (t.seen (.call :: bs)) v.call
  /-- The consumer gets no more messages than were pending, and then none. -/
  answers : ∀ as t, Leads s as t → ∃ (ms : List Message) (k : Nat),
    answersIn (s.seen as) = ms.map some ++ List.replicate k none ∧
      ms.length ≤ s.queue.pending.length
  /-- The consumer is told so if it goes on, and it always can. -/
  ends : ∀ as t, Leads s as t → (∃ a u, a.isConsumer = true ∧ t.step? a = some u) ∧
    (s.patience < as.countP Action.isConsumer → .answers none ∈ s.seen as)

theorem windsDown (hw : s.queue.WellFormed) (hq : s.queue.quitting = true) : s.WindsDown where
  shrinks _ _ _ _ h hstep :=
    (step?_eq_some.mp hstep).shrinks (h.wellFormed hw) (h.quitting hw hq)
  looks _ t _ h hstep := by
    cases step?_eq_some.mp hstep with
    | look _ =>
      obtain ⟨m, hm, _⟩ := Queue.scan_returns (h.wellFormed hw) (h.quitting hw hq) t.now _
      exact ⟨m, hm⟩
  calls _ _ _ _ _ h hstep h' hno :=
    prompt_of_call (h.wellFormed hw) (h.quitting hw hq) hstep h' hno
  answers _ _ h := by
    obtain ⟨ms, k, he, hlen, _⟩ := h.answers hw hq
    exact ⟨ms, k, he, by omega⟩
  ends as t h := by
    refine ⟨exists_consumer_step t, fun hlt => ?_⟩
    rcases h.answers_none hw hq with hx | hle
    · exact hx
    · omega

/-- **Quitting is for good.**  In every course of events from a fresh system:

* the consumer is told that there are no more messages only after a quit that was allowed, hence
  never if the queue does not allow it, and then no message comes too late either;
* once it is told, it sees nothing but this again, without a park or an idle pass;
* after a quit that was allowed, safe or not, the system winds down. -/
theorem quit_is_for_good (quittable : Bool) (now : Time) {as : List Action} {s : System}
    (h : Leads (initial quittable now) as s) :
    (∀ a t, s.step? a = some t → .answers none ∈ s.sights a t →
      ∃ before safe after u, as = before ++ .operate (.quit safe) :: after ∧
        Leads (initial quittable now) before u ∧ (u.queue.quit u.now safe).value = .ok ()) ∧
    (quittable = false → .answers none ∉ (initial quittable now).seen as ∧
      ∀ m due, (s.queue.enqueue m due).value ≠ .ok false) ∧
    (.answers none ∈ (initial quittable now).seen as → ∀ bs t, Leads s bs t →
      ∀ x ∈ s.seen bs, x = .answers none) ∧
    (∀ safe t, s.step? (.operate (.quit safe)) = some t →
      (s.queue.quit s.now safe).value = .ok () → t.WindsDown) := by
  have hfresh := Queue.wellFormed_fresh quittable
  have hw := h.wellFormed hfresh
  have hnever : quittable = false → s.queue.quitting = false := by
    intro hno
    by_contra hq
    obtain ⟨_, _, _, u, _, hu, _, hquittable⟩ := h.exists_quit hfresh rfl (by simpa using hq)
    have hsame : u.queue.quittable = quittable := hu.quittable hfresh
    rw [hquittable, hno] at hsame
    cases hsame
  refine ⟨fun a t hstep hx => ?_, fun hno => ⟨fun hx => ?_, fun m due hv => ?_⟩,
    fun hx bs t hbs => ?_, fun safe t hstep hok => ?_⟩
  · have hs := step?_eq_some.mp hstep
    obtain ⟨before, safe, after, u, he, hu, hok, _⟩ :=
      h.exists_quit hfresh rfl (hs.quitting_of_answer hw hx)
    exact ⟨before, safe, after, u, he, hu, hok⟩
  · have hover := h.over_of_answer hfresh hx
    have hq := hw.quitting_of_disposed hover.1
    rw [hnever hno] at hq
    cases hq
  · have hq := Queue.quitting_of_enqueue hv
    rw [hnever hno] at hq
    cases hq
  · exact (hbs.over hw (h.over_of_answer hfresh hx)).2
  · have hs := step?_eq_some.mp hstep
    refine windsDown (hs.wellFormed hw) ?_
    cases hs
    exact Queue.quitting_of_quit hw.sound hok

/-- A queue quits while its consumer is parked, and one message is due. -/
theorem quit_is_for_good_while_parked :
    let news : Message := { target := some ⟨0, "news"⟩ }
    let start := initial true 10
    let before : List Action := [.operate (.enqueue news 5), .call]
    let quit : Action := .operate (.quit true)
    let after : List Action := [.wake, .look, .call, .wake, .look]
    ∃ s t u, Leads start before s ∧ s.step? quit = some t ∧ t.WindsDown ∧
      Leads start (before ++ quit :: after) u ∧ t.seen after =
        [.answers (some { news with due := 5, inUse := true }), .parks .immediate, .answers none] ∧
      ∀ bs v, Leads u bs v → ∀ x ∈ u.seen bs, x = .answers none := by
  intro news start before quit after
  let s : System :=
    { start with
      queue := ({} : Queue).turns [.operate 10 (.enqueue news 5)]
      call := .parking .immediate false }
  have hs : Leads start before s := leads_iff.mpr rfl
  obtain ⟨t, ht⟩ : ∃ t, s.step? quit = some t := ⟨_, rfl⟩
  obtain ⟨_, _, _, hdown⟩ := quit_is_for_good true 10 hs
  have hseen : start.seen (before ++ quit :: after) = [.parks .immediate,
      .answers (some { news with due := 5, inUse := true }), .parks .immediate, .answers none] := by
    decide +kernel
  have hrun : ((before ++ quit :: after).foldlM step? start).isSome := by decide +kernel
  obtain ⟨u, hu⟩ := Option.isSome_iff_exists.mp hrun
  have hu' := leads_iff.mpr hu
  obtain ⟨_, _, hend, _⟩ := quit_is_for_good true 10 hu'
  refine ⟨s, t, u, hs, ht, hdown true t ht rfl, hu', ?_, hend (by rw [hseen]; decide)⟩
  cases ht
  decide +kernel

end Agenda.System
