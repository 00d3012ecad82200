import Agenda.Errand
import Agenda.Proofs.Queue.Runs

/-!
# Isolation of targets

What a target notices of a queue is what is pending for it and whether the queue is quitting: two
queues are `Alike` to it when these are the same.  The errands of others and all work on barriers
leave a queue alike to what it was (`serve_foreign`), and the target's own errands get the same
answers from queues that are alike, and leave them alike (`serve_own`).  By induction over the
errands a target is served as if it were alone (`served_as_if_alone`).

All but insertion is a matter of one message at a time.  Insertion looks for a place among the
messages of all targets; `Timeline.filter_insert` says that on an ascending list this is the place
among the target's own.
-/

namespace Agenda

/-! ### Whose a message is -/

section Owning

variable {g h : Target} {o : Option Target} {f : Filter} {m : Message}

theorem Target.owns_some : g.owns (some h) = true ↔ h.id = g.id := by
  rw [owns, Option.any_some, beq_iff_eq]

theorem Target.owns_of_id_eq (he : h.id = g.id) (ho : h.owns o = true) : g.owns o = true := by
  rwa [owns, ← he]

theorem Target.id_eq_of_owns (hg : g.owns o = true) (hh : h.owns o = true) : g.id = h.id := by
  cases o with
  | none => cases hg
  | some t => exact (owns_some.mp hg).symm.trans (owns_some.mp hh)

/-- A filter takes nothing but what is its target's own. -/
theorem Filter.owns_of_accepts (ha : f.accepts m = true) : f.target.owns m.target = true := by
  simp only [accepts, Bool.and_eq_true] at ha
  exact ha.1.1

theorem Message.not_owns_of_isBarrier (g : Target) (hm : m.isBarrier = true) :
    g.owns m.target = false := by
  have ht : m.target = none := by simpa [isBarrier] using hm
  rw [ht]
  rfl

end Owning

namespace Queue

variable {q p : Queue} {g : Target} {m : Message} {f : Filter} {e : Errand}

/-! ### What is pending for a target -/

theorem pendingFor_link (h : q.WellFormed) (g : Target) (m : Message) : (q.link m).1.pendingFor g =
    if g.owns m.target then Timeline.insert m (q.pendingFor g) else q.pendingFor g :=
  filter_link h.sound h.orderly.ascending (g.owns ·.target) m

theorem pendingFor_remove (h : q.WellFormed) (g : Target) (f : Filter) :
    (q.remove f).state.pendingFor g = (q.pendingFor g).filter (!f.accepts ·) :=
  filter_remove h.sound f (g.owns ·.target)

/-- What a target's filter says of a queue it says of the target's own messages. -/
theorem filter_pendingFor (hf : g.owns (some f.target) = true) (q : Queue) :
    (q.pendingFor g).filter f.accepts = q.pending.filter f.accepts := by
  rw [pendingFor, List.filter_filter]
  refine List.filter_congr fun m _ => ?_
  cases ha : f.accepts m with
  | false => rfl
  | true =>
    rw [Bool.true_and]
    exact Target.owns_of_id_eq (Target.owns_some.mp hf) (Filter.owns_of_accepts ha)

/-- Two queues are the same to a target. -/
structure Alike (g : Target) (q p : Queue) : Prop where
  quitting : q.quitting = p.quitting
  pending : q.pendingFor g = p.pendingFor g

namespace Alike

theorem refl (g : Target) (q : Queue) : Alike g q q :=
  ⟨rfl, rfl⟩

theorem trans {r : Queue} (h : Alike g q p) (h' : Alike g p r) : Alike g q r :=
  ⟨h.quitting.trans h'.quitting, h.pending.trans h'.pending⟩

end Alike

/-! ### The errands of others -/

theorem alike_link (h : q.WellFormed) (hm : g.owns m.target = false) : Alike g (q.link m).1 q := by
  refine ⟨link_quitting q m, ?_⟩
  rw [pendingFor_link h, if_neg (by simp [hm])]

theorem alike_enqueue (h : q.WellFormed) (hm : g.owns m.target = false) (t : Time) :
    Alike g (q.enqueue m t).state q := by
  rcases enqueue_cases q m t with ⟨_, hs, _⟩ | ⟨_, _, _, _, hs, _⟩
  · rw [hs]
    exact .refl g q
  · rw [hs]
    exact alike_link h hm

theorem alike_remove (h : q.WellFormed) (hf : g.owns (some f.target) = false) :
    Alike g (q.remove f).state q := by
  refine ⟨rfl, ?_⟩
  rw [pendingFor_remove h, List.filter_eq_self]
  intro m hm
  rw [Bool.not_eq_true', ← Bool.not_eq_true]
  intro ha
  have hid := Target.id_eq_of_owns (Filter.owns_of_accepts ha) (List.mem_filter.mp hm).2
  rw [Target.owns_some.mpr hid] at hf
  cases hf

theorem alike_postBarrier (h : q.WellFormed) (g : Target) (t : Time) :
    Alike g (q.postBarrier t).state q := by
  rcases postBarrier_cases q t with ⟨_, _, hs, _⟩ | ⟨_, _, hs, _⟩
  · rw [hs]
    exact .refl g q
  · have h' : ({ q with nextToken := q.nextToken + 1 } : Queue).WellFormed := { h with }
    have hl : Alike g _ _ :=
      alike_link h' (Message.not_owns_of_isBarrier g (m := .barrier q.nextToken t) rfl)
    rw [hs]
    exact ⟨hl.quitting, hl.pending⟩

theorem alike_removeBarrier (h : q.WellFormed) (g : Target) (token : Token) :
    Alike g (q.removeBarrier token).state q := by
  refine ⟨?_, filter_removeBarrier h.sound token fun m hm => Message.not_owns_of_isBarrier g hm⟩
  unfold removeBarrier
  split <;> rfl

/-! ### One errand in two queues -/

theorem enqueue_value (h : q.quitting = p.quitting) (m : Message) (t : Time) :
    (q.enqueue m t).value = (p.enqueue m t).value := by
  unfold enqueue
  cases m.target with
  | none => rfl
  | some target =>
    simp only [h]
    split
    · rfl
    · split <;> rfl

/-- A message is linked in both queues or in neither. -/
theorem enqueue_both (h : q.quitting = p.quitting) (m : Message) (t : Time) :
    ((q.enqueue m t).state = q ∧ (p.enqueue m t).state = p) ∨
    (m.isBarrier = false ∧ (q.enqueue m t).state = (q.link { m with inUse := true, due := t }).1 ∧
      (p.enqueue m t).state = (p.link { m with inUse := true, due := t }).1) := by
  have hv := enqueue_value h m t
  rcases enqueue_cases q m t with ⟨hno, hs, _⟩ | ⟨hyes, hm, _, _, hs, _⟩
  · rcases enqueue_cases p m t with ⟨_, hs', _⟩ | ⟨hyes', _⟩
    · exact Or.inl ⟨hs, hs'⟩
    · exact absurd (hv.trans hyes') hno
  · rcases enqueue_cases p m t with ⟨hno', _⟩ | ⟨_, _, _, _, hs', _⟩
    · exact absurd (hv.symm.trans hyes) hno'
    · exact Or.inr ⟨hm, hs, hs'⟩

/-- A filter that finds the same in both queues counts the same. -/
theorem remove_value_congr (hq : q.arena.Sound) (hp : p.arena.Sound)
    (h : q.pending.filter f.accepts = p.pending.filter f.accepts) :
    (q.remove f).value = (p.remove f).value := by
  rw [remove_value hq, remove_value hp, List.countP_eq_length_filter,
    List.countP_eq_length_filter, h]

theorem has_congr (h : q.pending.filter f.accepts = p.pending.filter f.accepts) :
    q.has f = p.has f := by
  have hany : ∀ r : Queue, r.has f = (r.pending.filter f.accepts).any f.accepts := fun r => by
    simp only [Queue.has, List.any_filter, Bool.and_self]
  rw [hany, hany, h]

/-! ### The errands of the target -/

theorem Alike.enqueue (ha : Alike g q p) (hq : q.WellFormed) (hp : p.WellFormed) (m : Message)
    (t : Time) : Alike g (q.enqueue m t).state (p.enqueue m t).state := by
  rcases enqueue_both ha.quitting m t with ⟨hs, hs'⟩ | ⟨_, hs, hs'⟩
  · rw [hs, hs']
    exact ha
  · rw [hs, hs']
    refine ⟨?_, ?_⟩
    · rw [link_quitting, link_quitting, ha.quitting]
    · rw [pendingFor_link hq, pendingFor_link hp, ha.pending]

theorem Alike.remove (ha : Alike g q p) (hq : q.WellFormed) (hp : p.WellFormed) (f : Filter) :
    Alike g (q.remove f).state (p.remove f).state := by
  refine ⟨ha.quitting, ?_⟩
  rw [pendingFor_remove hq, pendingFor_remove hp, ha.pending]

theorem Alike.accepted (ha : Alike g q p) (hf : g.owns (some f.target) = true) :
    q.pending.filter f.accepts = p.pending.filter f.accepts := by
  rw [← filter_pendingFor hf, ← filter_pendingFor hf, ha.pending]

/-! ### Errands -/

/-- An errand sends a message, or it is about a filter or a barrier. -/
theorem serve_cases (now : Time) (e : Errand) :
    (∃ m t, e.target? = m.target ∧ ∀ q : Queue, q.serve now e = q.carryOut now (.enqueue m t)) ∨
      (∃ f, e = .remove f) ∨ (∃ f, e = .has f) ∨ (∃ t, e = .postBarrier t) ∨
      ∃ token, e = .removeBarrier token := by
  cases e with
  | enqueue m t => exact Or.inl ⟨m, t, rfl, fun _ => rfl⟩
  | send h m moment =>
    refine Or.inl ⟨h.adopt m, ?_⟩
    cases moment <;> exact ⟨_, rfl, fun _ => rfl⟩
  | sendCode h what => exact Or.inl ⟨h.adopt (.coded h.target what), _, rfl, fun _ => rfl⟩
  | post h c moment =>
    refine Or.inl ⟨h.adopt (.running h.target c), ?_⟩
    cases moment <;> exact ⟨_, rfl, fun _ => rfl⟩
  | remove f => exact Or.inr (Or.inl ⟨f, rfl⟩)
  | has f => exact Or.inr (Or.inr (Or.inl ⟨f, rfl⟩))
  | postBarrier t => exact Or.inr (Or.inr (Or.inr (Or.inl ⟨t, rfl⟩)))
  | removeBarrier token => exact Or.inr (Or.inr (Or.inr (Or.inr ⟨token, rfl⟩)))

theorem WellFormed.serve (h : q.WellFormed) (now : Time) (e : Errand) :
    (q.serve now e).2.WellFormed := by
  rcases serve_cases now e with ⟨m, t, -, he⟩ | ⟨f, rfl⟩ | ⟨f, rfl⟩ | ⟨t, rfl⟩ | ⟨token, rfl⟩
  · rw [he]
    exact h.enqueue m t
  · exact h.remove f
  · exact h
  · exact h.postBarrier t
  · exact h.removeBarrier token

/-- **The errands of others do not show.** -/
theorem serve_foreign (h : q.WellFormed) (now : Time) (hg : g.owns e.target? = false) :
    Alike g (q.serve now e).2 q := by
  rcases serve_cases now e with ⟨m, t, hm, he⟩ | ⟨f, rfl⟩ | ⟨f, rfl⟩ | ⟨t, rfl⟩ | ⟨token, rfl⟩
  · rw [he]
    exact alike_enqueue h (hm ▸ hg) t
  · exact alike_remove h hg
  · exact .refl g q
  · exact alike_postBarrier h g t
  · exact alike_removeBarrier h g token

/-- **An errand of the target has one answer in all queues that are alike**, and keeps them so. -/
theorem serve_own (ha : Alike g q p) (hq : q.WellFormed) (hp : p.WellFormed) (now : Time)
    (hg : g.owns e.target? = true) :
    (q.serve now e).1 = (p.serve now e).1 ∧ Alike g (q.serve now e).2 (p.serve now e).2 := by
  rcases serve_cases now e with ⟨m, t, -, he⟩ | ⟨f, rfl⟩ | ⟨f, rfl⟩ | ⟨t, rfl⟩ | ⟨token, rfl⟩
  · rw [he, he]
    have hv := enqueue_value ha.quitting m t
    exact ⟨congrArg (fun v => Errand.Answer.result (.sent v)) hv, ha.enqueue hq hp m t⟩
  · have hv := remove_value_congr hq.sound hp.sound (ha.accepted hg)
    exact ⟨congrArg (fun n => Errand.Answer.result (.removed n)) hv, ha.remove hq hp f⟩
  · exact ⟨congrArg Errand.Answer.found (has_congr (ha.accepted hg)), ha⟩
  · cases hg
  · cases hg

theorem serveAll_cons (q : Queue) (now : Time) (e : Errand) (es : List (Time × Errand)) :
    q.serveAll ((now, e) :: es) = ((e, (q.serve now e).1) :: ((q.serve now e).2.serveAll es).1,
      ((q.serve now e).2.serveAll es).2) :=
  rfl

/-- A target is served from two queues that are alike to it, with the errands of others and
without. -/
theorem Alike.serveAll (ha : Alike g q p) (hq : q.WellFormed) (hp : p.WellFormed)
    (es : List (Time × Errand)) :
    (q.serveAll es).1.filter (fun a => g.owns a.1.target?) =
        (p.serveAll (es.filter fun e => g.owns e.2.target?)).1 ∧
      Alike g (q.serveAll es).2 (p.serveAll (es.filter fun e => g.owns e.2.target?)).2 := by
  -- the first errand of another target sets the two queues apart, so both are general
  induction es generalizing q p with
  | nil => exact ⟨rfl, ha⟩
  | cons head es ih =>
    obtain ⟨now, e⟩ := head
    rw [serveAll_cons]
    simp only [List.filter_cons]
    cases hg : g.owns e.target? with
    | true =>
      obtain ⟨hanswer, ha'⟩ := serve_own ha hq hp now hg
      obtain ⟨hanswers, hend⟩ := ih ha' (hq.serve now e) (hp.serve now e)
      rw [if_pos rfl, if_pos rfl, serveAll_cons, hanswer, hanswers]
      exact ⟨rfl, hend⟩
    | false =>
      -- only the queue that serves everybody moves on
      have ha' := (serve_foreign hq now hg).trans ha
      rw [if_neg Bool.false_ne_true, if_neg Bool.false_ne_true]
      exact ih ha' (hq.serve now e) hp

/-- **A target is served as if it were alone.**  Whatever errands are run on a queue, with those of
all other targets and all work on barriers left out, and the target's own ones run at the same clock
readings, the same messages are pending for the target and its errands get the same answers. -/
theorem served_as_if_alone (hq : q.Reachable) (g : Target) (es : List (Time × Errand)) :
    let own := es.filter fun e => g.owns e.2.target?
    (q.serveAll es).2.pendingFor g = (q.serveAll own).2.pendingFor g ∧
      (q.serveAll es).1.filter (fun a => g.owns a.1.target?) = (q.serveAll own).1 := by
  obtain ⟨hanswers, hend⟩ := (Alike.refl g q).serveAll hq.wellFormed hq.wellFormed es
  exact ⟨hend.pending, hanswers⟩

/-- Two targets send for the same due-times, to the front and behind barriers, and remove and ask
for their messages; one of them sends asynchronously, and both codes are in use by both. -/
theorem served_as_if_alone_of_two :
    let g : Target := ⟨0, "news"⟩
    let plain : Handler := { target := g }
    let other : Handler := { target := ⟨1, "sport"⟩, async := true }
    let ts : List Turn := [.operate 3 (.enqueue (.coded other.target 1) 5),
      .operate 3 (.postBarrier 5), .operate 3 (.enqueue (.coded g 1) 5)]
    let es : List (Time × Errand) := [(10, .send plain (.coded g 2) (.exactly 5)),
      (10, .send other (.coded g 2) (.exactly 5)), (10, .postBarrier 5),
      (11, .post plain 7 .front), (11, .sendCode other 1), (12, .sendCode plain 1),
      (12, .send plain (.coded g 2) (.exactly 11)), (12, .removeBarrier 0),
      (13, .remove (other.everything none)), (13, .has (plain.posts 7)),
      (13, .enqueue (.coded g 3) 5), (14, .remove (plain.coded 1)), (14, .has (plain.coded 1))]
    let own := es.filter fun e => g.owns e.2.target?
    ∃ q : Queue, q = ({} : Queue).turns ts ∧ own.length = 8 ∧
      (q.serveAll es).2.pendingFor g = (q.serveAll own).2.pendingFor g ∧
      (q.serveAll es).1.filter (fun a => g.owns a.1.target?) = (q.serveAll own).1 ∧
      ((q.serveAll es).2.pendingFor g).map (fun m => (m.callback, m.what, m.due)) =
        [(some 7, 0, 0), (none, 2, 5), (none, 3, 5), (none, 2, 11)] := by
  intro g plain other ts es own
  obtain ⟨q, hq, hlength, hpending⟩ : ∃ q : Queue, q = ({} : Queue).turns ts ∧ own.length = 8 ∧
      ((q.serveAll es).2.pendingFor g).map (fun m => (m.callback, m.what, m.due)) =
        [(some 7, 0, 0), (none, 2, 5), (none, 3, 5), (none, 2, 11)] := by
    refine ⟨_, rfl, ?_⟩
    decide +kernel
  obtain ⟨halone, hanswers⟩ := served_as_if_alone ⟨true, ts, hq⟩ g es
  exact ⟨q, hq, hlength, halone, hanswers, hpending⟩

end Queue

end Agenda
