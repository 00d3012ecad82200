import Agenda.Proofs.Queue.Ledger
import Mathlib.Data.List.ReduceOption

/-!
# Courses of events

What may be read off a course of events.  `Step` is `step?` as a relation, with one case for each
action.  `gather` collects what is noted at single steps: the turns that a queue takes (`turnsOf`,
which lead to the queue of the last system by `Leads.queue_eq`) and what is seen of the consumer
(`seen`): the parks that it begins, its idle passes, the handlers that it runs, and its answers.
What its answers hold is what the queue has handed over (`Leads.handedOver`).
-/

namespace Agenda

/-- Something that the consumer is seen to do. -/
inductive Sight where
  /-- It begins a park. -/
  | parks (timeout : Timeout)
  /-- It begins an idle pass. -/
  | passes (batch : List IdleHandler)
  /-- An idle handler has run. -/
  | runs (h : IdleHandler)
  /-- Its call ends, with a message unless the queue has quit. -/
  | answers (message : Option Message)
  deriving DecidableEq, Repr

/-- What the start of a call's next stage looks like. -/
def Call.sights : Call → List Sight
  | .parking timeout _ => [.parks timeout]
  | .awake _ => []
  | .idle batch => [.passes batch]
  | .returned message => [.answers message]

theorem Call.parks_mem_sights {c : Call} {timeout : Timeout} :
    .parks timeout ∈ c.sights ↔ ∃ settled, c = .parking timeout settled := by
  cases c <;> simp [sights, eq_comm]

theorem Call.passes_mem_sights {c : Call} {batch : List IdleHandler} :
    .passes batch ∈ c.sights ↔ c = .idle batch := by
  cases c <;> simp [sights, eq_comm]

theorem Call.answers_mem_sights {c : Call} {m : Option Message} :
    .answers m ∈ c.sights ↔ c = .returned m := by
  cases c <;> simp [sights, eq_comm]

/-- The answer that is seen, if one is. -/
def Sight.answer? : Sight → Option (Option Message)
  | .answers message => some message
  | _ => none

/-- The consumer does it, rather than some other thread or the clock. -/
def Action.isConsumer : Action → Bool
  | .operate _ | .tick _ => false
  | _ => true

section Gather

variable {α σ ε : Type} {step : σ → ε → Option σ} {s t : σ} {x : ε} {xs : List ε}

/-- What is noted at the steps of a machine, in order. -/
def gather (step : σ → ε → Option σ) (note : σ → ε → σ → List α) (s : σ) : List ε → List α
  | [] => []
  | x :: xs =>
    match step s x with
    | some t => note s x t ++ gather step note t xs
    | none => []

theorem gather_append (note : σ → ε → σ → List α) (h : xs.foldlM step s = some t) (ys : List ε) :
    gather step note s (xs ++ ys) = gather step note s xs ++ gather step note t ys := by
  induction xs generalizing s with
  | nil =>
    cases h
    rfl
  | cons x xs ih =>
    rw [List.foldlM_cons] at h
    obtain ⟨u, hstep, hrest⟩ := Option.bind_eq_some_iff.mp h
    simp only [List.cons_append, gather, hstep, ih hrest, List.append_assoc]

theorem gather_concat (note : σ → ε → σ → List α) {u : σ} (h : xs.foldlM step s = some t)
    (hstep : step t x = some u) :
    gather step note s (xs ++ [x]) = gather step note s xs ++ note t x u := by
  rw [gather_append note h]
  simp only [gather, hstep, List.append_nil]

end Gather

namespace System

variable {s t u : System} {a : Action} {as bs : List Action}

/-- The steps of a system, one by one. -/
inductive Step (s : System) : Action → System → Prop
  | operate (op : Operation) : Step s (.operate op)
      { s with
        queue := (s.queue.perform s.now op).state
        notified := s.notified || (s.queue.perform s.now op).wakes }
  | tick {now : Time} (h : s.now ≤ now) : Step s (.tick now) { s with now }
  | call {m : Option Message} (h : s.call = .returned m) :
      Step s .call { s with call := s.queue.call }
  | wake {timeout : Timeout} {settled : Bool} (h : s.call = .parking timeout settled) :
      Step s .wake { s with call := .awake settled, notified := false }
  | look {settled : Bool} (h : s.call = .awake settled) :
      Step s .look { s.settle (s.queue.scan s.now settled) with lookedAt := s.now }
  | idle {i : IdleHandler} {rest : List IdleHandler} (outcome : IdleOutcome)
      (h : s.call = .idle (i :: rest)) :
      Step s (.idle outcome) (s.settle (s.queue.afterIdle i rest outcome))
  | endPass (h : s.call = .idle []) : Step s .endPass (s.settle s.queue.endIdlePass)

theorem step?_eq_some : s.step? a = some t ↔ s.Step a t := by
  constructor
  · intro h
    cases a with
    | operate op =>
      cases h
      exact .operate op
    | tick now =>
      simp only [step?, Option.ite_none_right_eq_some, Option.some.injEq] at h
      obtain ⟨hle, rfl⟩ := h
      exact .tick hle
    | call =>
      simp only [step?] at h
      split at h <;> cases h
      exact .call ‹_›
    | wake =>
      simp only [step?] at h
      split at h <;> cases h
      exact .wake ‹_›
    | look =>
      simp only [step?] at h
      split at h <;> cases h
      exact .look ‹_›
    | idle outcome =>
      simp only [step?] at h
      split at h <;> cases h
      exact .idle outcome ‹_›
    | endPass =>
      simp only [step?] at h
      split at h <;> cases h
      exact .endPass ‹_›
  · intro h
    cases h with
    | operate op => rfl
    | tick h => exact if_pos h
    | call h => simp only [step?, h]
    | wake h => simp only [step?, h]
    | look h => simp only [step?, h]
    | idle outcome h => simp only [step?, h]
    | endPass h => simp only [step?, h]

theorem Leads.append (h : Leads s as t) (h' : Leads t bs u) : Leads s (as ++ bs) u := by
  rw [leads_iff, List.foldlM_append, leads_iff.mp h]
  exact leads_iff.mp h'

/-! ### The turns of the queue -/

/-- The turn that the queue takes in an action, if it takes one. -/
def turnOf (s : System) (a : Action) (_ : System) : List Turn :=
  match a, s.call with
  | .operate op, _ => [.operate s.now op]
  | .look, .awake settled => [.look s.now settled]
  | .idle outcome, .idle (i :: _) => [.idle i outcome]
  | .endPass, .idle [] => [.endPass]
  | _, _ => []

/-- The turns that the queue takes in a course of events. -/
def turnsOf (s : System) (as : List Action) : List Turn :=
  gather step? turnOf s as

theorem turnsOf_append (h : Leads s as t) (bs : List Action) :
    s.turnsOf (as ++ bs) = s.turnsOf as ++ t.turnsOf bs :=
  gather_append turnOf (leads_iff.mp h) bs

theorem turnsOf_tail (h : Leads s as t) (hstep : t.step? a = some u) :
    s.turnsOf (as ++ [a]) = s.turnsOf as ++ t.turnOf a u :=
  gather_concat turnOf (leads_iff.mp h) hstep

theorem turnsOf_singleton (hstep : s.step? a = some t) : s.turnsOf [a] = s.turnOf a t :=
  turnsOf_tail (.refl s) hstep

theorem Step.queue_eq (h : s.Step a t) : t.queue = s.queue.turns (s.turnOf a t) := by
  cases h with
  | operate op => rfl
  | tick h => rfl
  | call h => simp only [turnOf]; rfl
  | wake h => simp only [turnOf]; rfl
  | look h => simp only [turnOf, h]; rfl
  | idle outcome h =>
    simp only [turnOf, h]
    cases outcome <;> rfl
  | endPass h => simp only [turnOf, h]; rfl

/-- **A course of events takes the queue through its turns.** -/
theorem Leads.queue_eq (h : Leads s as t) : t.queue = s.queue.turns (s.turnsOf as) := by
  induction h with
  | refl => rfl
  | tail prior h ih =>
    rw [turnsOf_tail prior h, Queue.turns_append, ← ih]
    exact (step?_eq_some.mp h).queue_eq

theorem Leads.wellFormed (h : Leads s as t) (hw : s.queue.WellFormed) : t.queue.WellFormed := by
  rw [h.queue_eq]
  exact Queue.turns_wellFormed hw _

theorem Step.now_le (h : s.Step a t) : s.now ≤ t.now := by
  cases h with
  | tick h => exact h
  | _ => exact UInt64.le_refl _

/-- The ledger of a course of events, which notes what was asked of the queue and what came of
it. -/
def ledger (s : System) (as : List Action) : Ledger :=
  Ledger.noteAll {} s.queue (s.turnsOf as)

theorem ledger_append (h : Leads s as t) (bs : List Action) :
    s.ledger (as ++ bs) = (s.ledger as).noteAll t.queue (t.turnsOf bs) := by
  rw [ledger, turnsOf_append h, Ledger.noteAll_append, h.queue_eq]
  rfl

theorem ledger_tail (h : Leads s as t) (hstep : t.step? a = some u) :
    s.ledger (as ++ [a]) = (s.ledger as).noteAll t.queue (t.turnOf a u) := by
  rw [ledger, turnsOf_tail h hstep, Ledger.noteAll_append, h.queue_eq]
  rfl

theorem Leads.tells {quittable : Bool} {now : Time} (h : Leads (initial quittable now) as t) :
    ((initial quittable now).ledger as).Tells t.queue.pending := by
  rw [h.queue_eq]
  exact Ledger.tells_empty.noteAll (Queue.wellFormed_fresh quittable) _

/-! ### What is seen of the consumer -/

/-- What is seen at a step. -/
def sights (s : System) (a : Action) (t : System) : List Sight :=
  match a, s.call with
  | .call, _ | .look, _ | .endPass, _ => t.call.sights
  | .idle _, .idle (i :: _) => [.runs i]
  | _, _ => []

/-- **What is seen at a step**: that an idle handler has run, or the stage that the call comes to,
which a call, a look and the end of a pass show. -/
theorem Step.sights_cases {x : Sight} (h : s.Step a t) (hx : x ∈ s.sights a t) :
    (∃ i, x = .runs i) ∨
    (a = .call ∧ t = { s with call := s.queue.call } ∧ ((s.queue.disposed = true ∧
      x = .answers none) ∨ x = .parks .immediate)) ∨
    (∃ settled, a = .look ∧ t = { s.settle (s.queue.scan s.now settled) with lookedAt := s.now } ∧
      x ∈ (s.queue.scan s.now settled).value.sights) ∨
    (a = .endPass ∧ s.call = .idle [] ∧ x = .parks .immediate) := by
  cases h with
  | operate op => cases hx
  | tick h => cases hx
  | call h =>
    refine Or.inr (Or.inl ⟨rfl, rfl, ?_⟩)
    simp only [sights, Queue.call] at hx
    split at hx
    · exact Or.inl ⟨‹_›, List.mem_singleton.mp hx⟩
    · exact Or.inr (List.mem_singleton.mp hx)
  | wake h => cases hx
  | @look settled h => exact Or.inr (Or.inr (Or.inl ⟨settled, rfl, rfl, hx⟩))
  | idle outcome h =>
    simp only [sights, h] at hx
    exact Or.inl ⟨_, List.mem_singleton.mp hx⟩
  | endPass h => exact Or.inr (Or.inr (Or.inr ⟨rfl, h, List.mem_singleton.mp hx⟩))

/-- What is seen in a course of events. -/
def seen (s : System) (as : List Action) : List Sight :=
  gather step? sights s as

theorem seen_tail (h : Leads s as t) (hstep : t.step? a = some u) :
    s.seen (as ++ [a]) = s.seen as ++ t.sights a u :=
  gather_concat sights (leads_iff.mp h) hstep

/-- The answers among what is seen. -/
def answersIn (xs : List Sight) : List (Option Message) :=
  xs.filterMap Sight.answer?

theorem answersIn_append (xs ys : List Sight) :
    answersIn (xs ++ ys) = answersIn xs ++ answersIn ys :=
  List.filterMap_append

theorem mem_answersIn {xs : List Sight} {m : Option Message} :
    m ∈ answersIn xs ↔ .answers m ∈ xs := by
  rw [answersIn, List.mem_filterMap]
  constructor
  · rintro ⟨x, hx, hm⟩
    cases x <;> cases hm
    exact hx
  · intro h
    exact ⟨_, h, rfl⟩

/-- **The messages in the answers are what the queue has handed over.** -/
theorem Step.handedOver (h : s.Step a t) :
    (answersIn (s.sights a t)).reduceOption = s.queue.handedOver (s.turnOf a t) := by
  cases h with
  | operate op => rfl
  | tick h => rfl
  | call h =>
    simp only [sights, turnOf, Queue.call]
    split <;> rfl
  | wake h => rfl
  | look h =>
    simp only [sights, turnOf, h, settle, Queue.handedOver, Queue.handed]
    cases (s.queue.scan s.now _).value with
    | returned m => cases m <;> rfl
    | parking timeout settled => rfl
    | awake settled => rfl
    | idle batch => rfl
  | idle outcome h =>
    simp only [sights, turnOf, h]
    rfl
  | endPass h =>
    simp only [sights, turnOf, h]
    rfl

theorem Leads.handedOver (h : Leads s as t) :
    (answersIn (s.seen as)).reduceOption = s.queue.handedOver (s.turnsOf as) := by
  induction h with
  | refl => rfl
  | @tail u t as a prior hstep ih =>
    rw [seen_tail prior hstep, answersIn_append, List.reduceOption_append, ih,
      (step?_eq_some.mp hstep).handedOver, turnsOf_tail prior hstep, Queue.handedOver_append,
      ← prior.queue_eq]

theorem Leads.returned {L : Ledger} (h : Leads s as t) (hw : s.queue.WellFormed)
    (hL : L.Tells s.queue.pending) :
    ∃ es, (L.noteAll s.queue (s.turnsOf as)).returned = L.returned ++ es ∧
      es.map Entry.message = (answersIn (s.seen as)).reduceOption := by
  rw [h.handedOver]
  exact hL.returned_noteAll hw _

end System

end Agenda
