import Agenda.Proofs.Queue.Ledger

/-!
# What a barrier holds back

A barrier is looked at only when it has come to the head, so that it holds must follow from where
things stand.  `Guarded b L q` is the invariant: the barrier `b` is in line, or the queue is
quitting and nothing is in line that stands behind `b`.  It is kept by every turn that does not
remove the barrier by its token (`Guarded.note`), and while it holds no synchronous entry behind `b`
is handed to the consumer (`Guarded.not_before`).  `barrier_holds_back` says which entries stand
behind `b`.
-/

namespace Agenda.Queue

open Timeline (MayRun)

variable {q : Queue} {L : Ledger} {b : Entry} {token : Token}

/-- Some turn of the run removes a barrier by this token. -/
def Releases (q : Queue) (token : Token) (ts : List Turn) : Prop :=
  ∃ before now after, ts = before ++ .operate now (.removeBarrier token) :: after ∧
    ((q.turns before).removeBarrier token).value = .ok ()

theorem not_releases_cons {t : Turn} {ts : List Turn} (h : ¬ q.Releases token (t :: ts)) :
    (∀ now, t = .operate now (.removeBarrier token) → (q.removeBarrier token).value ≠ .ok ()) ∧
      ¬ (q.turn t).Releases token ts := by
  constructor
  · rintro now rfl hv
    exact h ⟨[], now, ts, rfl, hv⟩
  · rintro ⟨before, now, after, rfl, hv⟩
    exact h ⟨t :: before, now, after, rfl, hv⟩

/-- The barrier `b` is in line, or it has gone with all that stood behind it, for good. -/
def Guarded (b : Entry) (L : Ledger) (q : Queue) : Prop :=
  b ∈ L.line ∨ q.quitting = true ∧ ∀ e ∈ L.line, ¬ b.Before e

namespace Guarded

theorem of_subset {L' : Ledger} {q' : Queue} (h : Guarded b L q) (hsub : L'.line ⊆ L.line)
    (hquit : q.quitting = true → q'.quitting = true)
    (hb : b ∈ L.line → Guarded b L' q') : Guarded b L' q' := by
  rcases h with h | ⟨hq, h⟩
  · exact hb h
  · exact Or.inr ⟨hquit hq, fun e he => h e (hsub he)⟩

theorem accept {q' : Queue} (h : Guarded b L q) (hq : q.quitting = false) (m : Message) :
    Guarded b (L.accept m) q' := by
  rcases h with h | ⟨hq', _⟩
  · exact Or.inl ((List.mem_orderedInsert _).mpr (Or.inr h))
  · rw [hq] at hq'
    cases hq'

theorem leaveFirst {q' : Queue} (h : Guarded b L q) (why : Departure) {pass : Message → Bool}
    (hquit : q'.quitting = q.quitting) (hb : pass b.message = false) :
    Guarded b (L.leaveFirst why pass) q' := by
  refine h.of_subset List.eraseP_subset (fun hq => hquit ▸ hq) fun hmem => Or.inl ?_
  exact (List.mem_eraseP_of_neg (by simp [hb])).mpr hmem

theorem enqueue (h : Guarded b L q) (now : Time) (m : Message) (due : Time) :
    Guarded b (L.noteOperation q now (.enqueue m due)) (q.enqueue m due).state := by
  rcases enqueue_cases q m due with ⟨hv, hs, _⟩ | ⟨hv, _, _, hq, _⟩
  · rw [Ledger.noteOperation_enqueue_of_ne now hv, hs]
    exact h
  · simp only [Ledger.noteOperation, hv]
    exact h.accept hq _

theorem postBarrier (h : Guarded b L q) (now due : Time) :
    Guarded b (L.noteOperation q now (.postBarrier due)) (q.postBarrier due).state := by
  rcases postBarrier_cases q due with ⟨hv, _, hs, _⟩ | ⟨hv, hq, _⟩
  · simp only [Ledger.noteOperation, hv, hs]
    exact h
  · simp only [Ledger.noteOperation, hv]
    exact h.accept hq _

theorem removeBarrier {token' : Token} (h : Guarded b L q) (hw : q.WellFormed)
    (hb : b.message.token? = some token) (now : Time)
    (hne : token' = token → (q.removeBarrier token).value ≠ .ok ()) :
    Guarded b (L.noteOperation q now (.removeBarrier token')) (q.removeBarrier token').state := by
  rcases removeBarrier_cases hw.sound token' with ⟨hv, hs, _⟩ | ⟨hv, _, _, _, arena, _, _, _, hs, _⟩
  · rw [Ledger.noteOperation_removeBarrier_of_ne now hv, hs]
    exact h
  · have hother : token' ≠ token := by
      rintro rfl
      exact hne rfl hv
    have hquit : (q.removeBarrier token').state.quitting = q.quitting := by rw [hs]
    simp only [Ledger.noteOperation, hv]
    refine h.leaveFirst .removed hquit ?_
    rw [hb, decide_eq_false_iff_not, Option.some.injEq]
    exact hother.symm

theorem remove (h : Guarded b L q) (hb : b.message.isBarrier = true) (f : Filter) :
    Guarded b (L.leaveAll .removed f.accepts) (q.remove f).state := by
  refine h.of_subset List.filter_sublist.subset (fun hq => hq) fun hmem => Or.inl ?_
  refine List.mem_filter.mpr ⟨hmem, ?_⟩
  rw [accepts_of_isBarrier f hb]
  rfl

/-- A safe quit cuts the barrier off only where it cuts off everything behind it. -/
theorem quit (h : Guarded b L q) (hw : q.WellFormed) (now : Time) (safe : Bool) :
    Guarded b (L.noteOperation q now (.quit safe)) (q.quit now safe).state := by
  rcases quit_cases hw.sound now safe with
    ⟨hs, _, ⟨_, hv⟩ | ⟨hq, hv⟩⟩ | ⟨hv, _, hq, _, arena, hs, _⟩
  · rw [Ledger.noteOperation_quit_of_ne hv, hs]
    exact h
  · simp only [Ledger.noteOperation, hv, hq, if_true, hs]
    exact h
  · have hquit : (q.quit now safe).state.quitting = true := by rw [hs]
    simp only [Ledger.noteOperation, hv, hq, Bool.false_eq_true, if_false]
    refine h.of_subset List.filter_sublist.subset (fun _ => hquit) fun hmem => ?_
    by_cases hkeep : (safe && decide (b.message.due ≤ now)) = true
    · exact Or.inl (List.mem_filter.mpr ⟨hmem, by simpa using hkeep⟩)
    · refine Or.inr ⟨hquit, fun e he hbe => hkeep ?_⟩
      have hkept := (List.mem_filter.mp he).2
      simp only [Bool.not_not, Bool.and_eq_true, decide_eq_true_eq] at hkept ⊢
      exact ⟨hkept.1, UInt64.le_trans hbe.due_le hkept.2⟩

theorem operate (h : Guarded b L q) (hw : q.WellFormed) (hb : b.message.token? = some token)
    (now : Time) (op : Operation)
    (ht : op = .removeBarrier token → (q.removeBarrier token).value ≠ .ok ()) :
    Guarded b (L.noteOperation q now op) (q.perform now op).state := by
  cases op with
  | enqueue m due => exact h.enqueue now m due
  | postBarrier due => exact h.postBarrier now due
  | removeBarrier token' => exact h.removeBarrier hw hb now fun he => ht (by rw [he])
  | remove f => exact h.remove (isBarrier_of_token? hb) f
  | addIdle i => exact h
  | removeIdle i => exact h
  | quit safe => exact h.quit hw now safe

theorem look (h : Guarded b L q) (hw : q.WellFormed) (hb : b.message.isBarrier = true) (now : Time)
    (settled : Bool) :
    Guarded b (L.noteLook (q.scan now settled).value) (q.scan now settled).state := by
  have hend : ∀ q' : Queue, q'.quitting = true →
      Guarded b (L.leaveAll .discarded fun _ => true) q' := by
    intro q' hq
    refine Or.inr ⟨hq, fun e he => ?_⟩
    have hfalse := (List.mem_filter.mp he).2
    simp at hfalse
  rcases scan_cases hw.sound hw.orderly now settled with
    ⟨hd, he⟩ | ⟨_, _, m, _, arena, _, hrun, _, he, _⟩ | ⟨_, _, he⟩
  · rw [he]
    exact hend q (hw.quitting_of_disposed hd)
  · rw [he]
    refine h.leaveFirst .returned rfl ?_
    rw [decide_eq_false_iff_not]
    rintro rfl
    rw [hrun.1] at hb
    cases hb
  · rw [he]
    rcases sleepOrIdle_cases q now settled (timeoutAt now q.pending) with
      ⟨hq, hs⟩ | ⟨_, _, _, _, hs⟩ | ⟨_, _, hs⟩
    · rw [hs]
      refine hend q.dispose ?_
      rcases dispose_cases q with ⟨_, hd⟩ | ⟨_, hd⟩ <;> rw [hd] <;> exact hq
    · rw [hs]
      exact h
    · rw [hs]
      exact h

/-- **A barrier stays on guard** in every turn that does not remove it by its token. -/
theorem note (h : Guarded b L q) (hw : q.WellFormed) (hb : b.message.token? = some token) (t : Turn)
    (ht : ∀ now, t = .operate now (.removeBarrier token) → (q.removeBarrier token).value ≠ .ok ()) :
    Guarded b (L.note q t) (q.turn t) := by
  cases t with
  | operate now op => exact h.operate hw hb now op fun he => ht now (by rw [he])
  | look now settled =>
    exact h.look hw (isBarrier_of_token? hb) now settled
  | idle i outcome => cases outcome <;> exact h
  | endPass => exact h

/-- **Nothing synchronous is taken from behind a barrier on guard.** -/
theorem not_before {e : Entry} {before after : List Entry} (h : Guarded b L q)
    (hL : L.Tells q.pending) (hb : b.message.isBarrier = true) (hl : L.line = before ++ e :: after)
    (hrun : MayRun (before.map Entry.message) e.message) (hsync : e.message.async = false) :
    ¬ b.Before e := by
  have hnil : before = [] := by
    rcases hrun.2 with hn | ⟨_, ha, _⟩
    · exact List.map_eq_nil_iff.mp hn
    · rw [hsync] at ha
      cases ha
  subst hnil
  rcases h with h | ⟨_, h⟩
  · rw [hl, List.nil_append, List.mem_cons] at h
    have hne : b ≠ e := by
      rintro rfl
      rw [hrun.1] at hb
      cases hb
    have hordered := hL.ordered
    rw [hl, List.nil_append, List.pairwise_cons] at hordered
    exact (hordered.1 b (h.resolve_left hne)).asymm
  · -- the barrier has gone, and nothing that stood behind it is left
    exact h e (by rw [hl]; simp)

theorem noteAll (h : Guarded b L q) (hL : L.Tells q.pending) (hw : q.WellFormed)
    (hb : b.message.token? = some token) {ts : List Turn} (hts : ¬ q.Releases token ts) :
    ∃ es, (L.noteAll q ts).returned = L.returned ++ es ∧ es.map Entry.message = q.handedOver ts ∧
      ∀ e ∈ es, e.message.async = false → ¬ b.Before e := by
  have hbarrier := isBarrier_of_token? hb
  induction ts generalizing L q with
  | nil => exact ⟨[], (List.append_nil _).symm, rfl, by simp⟩
  | cons t ts ih =>
    obtain ⟨ht, hrest⟩ := not_releases_cons hts
    obtain ⟨es, hes, hm, hplace⟩ := hL.returned_note hw t
    obtain ⟨fs, hfs, hn, hheld⟩ :=
      ih (h.note hw hb t ht) (hL.note hw t) (turn_wellFormed hw t) hrest
    refine ⟨es ++ fs, ?_, ?_, fun e he hsync => ?_⟩
    · rw [Ledger.noteAll, hfs, hes, List.append_assoc]
    · rw [List.map_append, hm, hn, handedOver]
    · rcases List.mem_append.mp he with he | he
      · obtain ⟨before, after, hl, hrun⟩ := hplace e he
        exact h.not_before hL hbarrier hl hrun hsync
      · exact hheld e he hsync

end Guarded

/-- **A barrier holds for its whole life.**  A barrier is posted with due-time `w` after any run,
and any turns follow in which no removal by its token succeeds.  What the consumer is handed
meanwhile is, entry by entry, asynchronous, or else neither was it pending at the posting with a
later due-time (with any, if `w` is 0) nor was it taken after the posting with a due-time from `w`
on that is not 0. -/
theorem barrier_holds_back {quittable : Bool} {ts us : List Turn} {now w : Time} {token : Token}
    (hpost : ((({ quittable } : Queue).turns ts).postBarrier w).value = some token)
    (hheld : ¬ ((({ quittable } : Queue).turns ts).turn (.operate now (.postBarrier w))).Releases
      token us) :
    let q₀ := ({ quittable } : Queue).turns ts
    let L₀ := Ledger.noteAll {} { quittable } ts
    let q₁ := q₀.turn (.operate now (.postBarrier w))
    let L₁ := L₀.note q₀ (.operate now (.postBarrier w))
    ∃ es, (L₁.noteAll q₁ us).returned = L₁.returned ++ es ∧
      es.map Entry.message = q₁.handedOver us ∧ ∀ e ∈ es, e.message.async = false →
        ¬ (e ∈ L₀.line ∧ (w = 0 ∨ w < e.message.due)) ∧
        ¬ (e ∉ L₁.accepted ∧ e.message.due ≠ 0 ∧ w ≤ e.message.due) := by
  intro q₀ L₀ q₁ L₁
  have hw₀ : q₀.WellFormed := turns_wellFormed (wellFormed_fresh quittable) ts
  have hL₀ : L₀.Tells q₀.pending := Ledger.tells_empty.noteAll (wellFormed_fresh quittable) ts
  have hw₁ : q₁.WellFormed := turn_wellFormed hw₀ _
  have hL₁ : L₁.Tells q₁.pending := hL₀.note hw₀ _
  have hnote : L₁ = L₀.accept (.barrier token w) := by
    show L₀.noteOperation q₀ now (.postBarrier w) = _
    simp only [Ledger.noteOperation]
    rw [hpost]
  let b : Entry := ⟨L₀.accepted.length, .barrier token w⟩
  have hguard : Guarded b L₁ q₁ := by
    refine Or.inl ?_
    rw [hnote]
    exact (List.mem_orderedInsert _).mpr (Or.inl rfl)
  obtain ⟨es, hes, hm, hsync⟩ := hguard.noteAll hL₁ hw₁ rfl hheld
  refine ⟨es, hes, hm, fun e he ha => ⟨?_, ?_⟩⟩
  · rintro ⟨hmem, hdue⟩
    exact hsync e he ha (Entry.before_of_earlier (hL₀.serial_lt (hL₀.mem_accepted hmem)) hdue)
  · rintro ⟨hnew, hz, hle⟩
    obtain ⟨new, haccepted⟩ := Ledger.accepted_noteAll L₁ q₁ us
    have hL₂ := hL₁.noteAll hw₁ us
    have hmem : e ∈ (L₁.noteAll q₁ us).accepted :=
      hL₂.mem_accepted_of_returned (by rw [hes]; exact List.mem_append_right _ he)
    have hlen := hL₁.length_le_serial hL₂ haccepted hmem hnew
    rw [hnote, Ledger.accept, List.length_append, List.length_singleton] at hlen
    exact hsync e he ha (Entry.before_of_later hlen hz hle)

/-- The barrier comes between two messages that are pending, and more come on both sides of it. -/
theorem barrier_holds_back_between :
    let news : Message := { target := some ⟨0, "news"⟩ }
    let late : Message := { news with async := true }
    let ts : List Turn := [.operate 0 (.enqueue news 5), .operate 0 (.enqueue news 7)]
    let us : List Turn := [.operate 1 (.enqueue news 5), .operate 1 (.enqueue late 6),
      .operate 1 (.enqueue news 4), .operate 1 (.removeBarrier 3), .look 9 true, .look 9 true,
      .look 9 true, .operate 9 (.quit true), .look 9 true]
    let q₀ := ({} : Queue).turns ts
    let L₀ := Ledger.noteAll {} {} ts
    let q₁ := q₀.turn (.operate 0 (.postBarrier 5))
    let L₁ := L₀.note q₀ (.operate 0 (.postBarrier 5))
    (q₀.postBarrier 5).value = some 0 ∧ ¬ q₁.Releases 0 us ∧
      ∃ es, (L₁.noteAll q₁ us).returned = L₁.returned ++ es ∧
        es.map Entry.message = [{ news with due := 4, inUse := true },
          { news with due := 5, inUse := true }, { late with due := 6, inUse := true }] ∧
        ∀ e ∈ es, e.message.async = false → ¬ (e ∈ L₀.line ∧ ((5 : Time) = 0 ∨ 5 < e.message.due)) ∧
          ¬ (e ∉ L₁.accepted ∧ e.message.due ≠ 0 ∧ 5 ≤ e.message.due) := by
  intro news late ts us q₀ L₀ q₁ L₁
  have hpost : (q₀.postBarrier 5).value = some 0 := by decide +kernel
  have hheld : ¬ q₁.Releases 0 us := by
    rintro ⟨before, now, after, hus, _⟩
    have hmem : Turn.operate now (.removeBarrier 0) ∈ us := by
      rw [hus]
      simp
    simp [us] at hmem
  obtain ⟨es, hes, hm, hheldBack⟩ := @barrier_holds_back true ts us 0 5 0 hpost hheld
  have hhanded : q₁.handedOver us = [{ news with due := 4, inUse := true },
      { news with due := 5, inUse := true }, { late with due := 6, inUse := true }] := by
    decide +kernel
  exact ⟨hpost, hheld, es, hes, hm.trans hhanded, hheldBack⟩

end Agenda.Queue
