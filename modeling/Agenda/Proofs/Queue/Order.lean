import Agenda.Proofs.Queue.Ledger

/-!
# The order of dispatch

Entries are handed to the consumer in the order of the line, whatever is done to the queue
meanwhile, with one exception: a barrier holds back the synchronous messages behind it, and an
asynchronous one may be taken past them.

`TakenFrom` names the look that hands over an entry, and `Taking` collects what is known of the
ledger before it and of the ledger at the end of the run.  There, either an entry has been returned
already, and then it comes first for good (`Taking.sublist_iff`), or it is still in line and is
overtaken (`Taking.overtaken`).  A queue without barriers is drained front to back
(`Tells.noteAll_drain`), and its line is a stable sort (`Tells.line_eq_mergeSort`).
-/

namespace Agenda

namespace Ledger

open Timeline (MayRun)

variable {L M N : Ledger} {q : Queue} {ms ns : List Message} {ts : List Turn} {a b e : Entry}

theorem not_sublist_swap {es : List Entry} (h : es.Nodup) (hab : [a, b].Sublist es) :
    ¬ [b, a].Sublist es := by
  intro hba
  obtain ⟨xs, ys, he, ha, hb⟩ := List.cons_sublist_iff.mp hab
  obtain ⟨zs, ws, he', hb', ha'⟩ := List.cons_sublist_iff.mp hba
  rw [List.singleton_sublist] at hb ha'
  have hxy := List.disjoint_of_nodup_append (he ▸ h)
  have hzw := List.disjoint_of_nodup_append (he' ▸ h)
  rcases List.append_eq_append_iff.mp (he.symm.trans he') with ⟨vs, rfl, rfl⟩ | ⟨vs, rfl, rfl⟩
  · exact hzw (List.mem_append_left vs ha) ha'
  · exact hxy (List.mem_append_left vs hb') hb

theorem sublist_or_swap {es : List Entry} (ha : a ∈ es) (hb : b ∈ es) (hne : a ≠ b) :
    [a, b].Sublist es ∨ [b, a].Sublist es := by
  obtain ⟨xs, ys, rfl⟩ := List.append_of_mem ha
  rcases List.mem_append.mp hb with hb | hb
  · have ha' : a ∈ a :: ys := List.mem_cons_self
    exact Or.inr ((List.singleton_sublist.mpr hb).append (List.singleton_sublist.mpr ha'))
  · have hb' := (List.mem_cons.mp hb).resolve_left hne.symm
    exact Or.inl (((List.singleton_sublist.mpr hb').cons_cons a).trans
      (List.sublist_append_right xs (a :: ys)))

/-! ### The look that hands over an entry -/

/-- A look in the run `ts` of `q` hands `e` to the consumer, and `M` is the ledger before it. -/
def TakenFrom (L : Ledger) (q : Queue) (ts : List Turn) (e : Entry) (M : Ledger) : Prop :=
  ∃ us now settled vs, ts = us ++ .look now settled :: vs ∧ M = L.noteAll q us ∧
    (M.note (q.turns us) (.look now settled)).returned = M.returned ++ [e]

theorem Tells.exists_look (h : L.Tells q.pending) (hw : q.WellFormed) {t : Turn}
    (he : e ∈ (L.note q t).returned) (hne : e ∉ L.returned) :
    ∃ now settled, t = .look now settled ∧ (L.note q t).returned = L.returned ++ [e] := by
  obtain ⟨es, hes, hm, _⟩ := h.returned_note hw t
  have hmem : e ∈ es := by
    rw [hes] at he
    exact (List.mem_append.mp he).resolve_left hne
  cases t with
  | look now settled =>
    have hlen : es.length ≤ 1 := by
      rw [← List.length_map Entry.message, hm, Queue.handed]
      split <;> simp
    obtain ⟨f, rfl⟩ : ∃ f, es = [f] := by
      cases es with
      | nil => simp at hmem
      | cons f fs =>
        simp only [List.length_cons] at hlen
        exact ⟨f, by rw [List.eq_nil_of_length_eq_zero (by omega : fs.length = 0)]⟩
    rw [List.mem_singleton.mp hmem]
    exact ⟨now, settled, rfl, hes⟩
  | operate now op =>
    rw [List.map_eq_nil_iff.mp hm] at hmem
    simp at hmem
  | idle i outcome =>
    rw [List.map_eq_nil_iff.mp hm] at hmem
    simp at hmem
  | endPass =>
    rw [List.map_eq_nil_iff.mp hm] at hmem
    simp at hmem

theorem Tells.exists_takenFrom (h : L.Tells q.pending) (hw : q.WellFormed)
    (he : e ∈ (L.noteAll q ts).returned) (hne : e ∉ L.returned) : ∃ M, L.TakenFrom q ts e M := by
  induction ts generalizing L q with
  | nil => exact absurd he hne
  | cons t ts ih =>
    by_cases hnow : e ∈ (L.note q t).returned
    · obtain ⟨now, settled, rfl, hr⟩ := h.exists_look hw hnow hne
      exact ⟨L, [], now, settled, ts, rfl, rfl, hr⟩
    · obtain ⟨M, us, now, settled, vs, rfl, hM, hr⟩ :=
        ih (h.note hw t) (Queue.turn_wellFormed hw t) he hnow
      exact ⟨M, t :: us, now, settled, vs, rfl, hM, hr⟩

/-- What is known of the ledger `M` from which `e` is taken in a run that ends with `N`. -/
structure Taking (M N : Ledger) (e : Entry) : Prop where
  tells : ∃ ms, M.Tells ms
  accepted : ∃ new, N.accepted = M.accepted ++ new
  departed : ∃ gone, N.departed = M.departed ++ gone
  returned : ∃ later, N.returned = M.returned ++ e :: later
  place : ∃ before after, M.line = before ++ e :: after ∧
    MayRun (before.map Entry.message) e.message

theorem TakenFrom.taking (ht : L.TakenFrom q ts e M) (h : L.Tells q.pending) (hw : q.WellFormed) :
    M.Taking (L.noteAll q ts) e := by
  obtain ⟨us, now, settled, vs, rfl, rfl, hr⟩ := ht
  have hM := h.noteAll hw us
  have hwM := Queue.turns_wellFormed hw us
  obtain ⟨es, hes, hm, hplace⟩ := hM.returned_note hwM (.look now settled)
  obtain rfl : es = [e] := List.append_cancel_left (hes.symm.trans hr)
  obtain ⟨later, hl, _⟩ := (hM.note hwM (.look now settled)).returned_noteAll
    (Queue.turn_wellFormed hwM _) vs
  rw [noteAll_append]
  refine ⟨⟨_, hM⟩, accepted_noteAll _ _ _, departed_noteAll _ _ _, ⟨later, ?_⟩,
    hplace e (List.mem_singleton_self e)⟩
  rw [noteAll, hl, hr, List.append_assoc, List.singleton_append]

theorem mem_line_or_departed (h : L.Tells ms) (he : e ∈ L.accepted) :
    e ∈ L.line ∨ ∃ why, (why, e) ∈ L.departed := by
  rcases List.mem_append.mp (h.balance.mem_iff.mp he) with hl | hd
  · exact Or.inl hl
  · obtain ⟨⟨why, f⟩, hf, rfl⟩ := List.mem_map.mp hd
    exact Or.inr ⟨why, hf⟩

namespace Taking

theorem returned_or_line (ht : M.Taking N b) (hN : N.Tells ns) (ha : a ∈ M.accepted)
    (hr : a ∈ N.returned) : a ∈ M.returned ∨ a ∈ M.line := by
  obtain ⟨_, hM⟩ := ht.tells
  obtain ⟨gone, hgone⟩ := ht.departed
  rcases mem_line_or_departed hM ha with hl | ⟨why, hd⟩
  · exact Or.inr hl
  · have hwhy : why = .returned := by
      refine hN.departed_once ?_ (mem_returned.mp hr)
      rw [hgone]
      exact List.mem_append_left _ hd
    rw [hwhy] at hd
    exact Or.inl (mem_returned.mpr hd)

/-- **What comes before an entry** is what was returned when the entry was taken. -/
theorem sublist_iff (ht : M.Taking N b) (hN : N.Tells ns) :
    [a, b].Sublist N.returned ↔ a ∈ M.returned := by
  obtain ⟨later, hl⟩ := ht.returned
  have hnodup := hN.nodup_returned
  rw [hl] at hnodup ⊢
  constructor
  · intro hsub
    obtain ⟨xs, ys, he, hxs, hys⟩ := List.cons_sublist_iff.mp hsub
    rw [List.singleton_sublist] at hys
    rcases List.append_eq_append_iff.mp he with ⟨zs, rfl, hzs⟩ | ⟨zs, hzs, rfl⟩
    · cases zs with
      | nil => simpa using hxs
      | cons z zs =>
        obtain ⟨rfl, rfl⟩ := List.cons.inj hzs
        -- then `b` would be returned twice
        have hdouble := (List.nodup_cons.mp (List.nodup_append.mp hnodup).2.1).1
        exact absurd (List.mem_append_right zs hys) hdouble
    · rw [hzs]
      exact List.mem_append_left _ hxs
  · intro ha
    exact (List.singleton_sublist.mpr ha).append
      (List.singleton_sublist.mpr (List.mem_cons_self : b ∈ b :: later))

/-- **What is passed over in line is held back by a barrier**, and what passes it is not. -/
theorem overtaken (ht : M.Taking N b) (ha : a ∈ M.line) (hab : a.Before b)
    (hmessage : a.message.isBarrier = false) : a.message.async = false ∧ b.message.async = true ∧
      ∃ ahead rest, M.line = ahead ++ a :: rest ∧ ∃ c ∈ ahead, c.message.isBarrier = true := by
  obtain ⟨_, hM⟩ := ht.tells
  obtain ⟨before, after, hl, hrun⟩ := ht.place
  have hordered := hM.ordered
  rw [hl] at ha hordered
  have hbefore : a ∈ before := by
    rcases List.mem_append.mp ha with ha | ha
    · exact ha
    · rcases List.mem_cons.mp ha with rfl | ha
      · exact absurd hab hab.asymm
      · have hba := (List.pairwise_cons.mp (List.pairwise_append.mp hordered).2.1).1 a ha
        exact absurd hba hab.asymm
  obtain ⟨ahead, rest, rfl⟩ := List.append_of_mem hbefore
  rcases hrun.2 with hnil | ⟨⟨head, hhead, hbarrier⟩, hasync, hall⟩
  · simp at hnil
  · have hsync : a.message.async = false := by
      refine (hall a.message (by simp)).resolve_left ?_
      rw [hmessage]
      exact Bool.false_ne_true
    refine ⟨hsync, hasync, ahead, rest ++ b :: after, by rw [hl]; simp, ?_⟩
    cases ahead with
    | nil =>
      -- the head is `a`, which is no barrier
      obtain rfl : a.message = head := by simpa using hhead
      rw [hmessage] at hbarrier
      cases hbarrier
    | cons c ahead =>
      obtain rfl : c.message = head := by simpa using hhead
      exact ⟨c, List.mem_cons_self, hbarrier⟩

end Taking

/-- In the run `ts` of `q` the asynchronous message `b` is taken past the synchronous message `a`,
which stands behind a barrier. -/
def Overtakes (L : Ledger) (q : Queue) (ts : List Turn) (b a : Entry) : Prop :=
  a.message.async = false ∧ b.message.async = true ∧ ∃ M ahead rest, L.TakenFrom q ts b M ∧
    M.line = ahead ++ a :: rest ∧ ∃ c ∈ ahead, c.message.isBarrier = true

theorem mem_accepted_of_takenFrom (ht : L.TakenFrom q ts b M) (ha : a ∈ L.accepted) :
    a ∈ M.accepted := by
  obtain ⟨us, _, _, _, _, rfl, _⟩ := ht
  obtain ⟨new, hn⟩ := accepted_noteAll L q us
  rw [hn]
  exact List.mem_append_left _ ha

theorem Tells.isBarrier_of_returned (h : L.Tells q.pending) (hw : q.WellFormed)
    (he : e ∈ (L.noteAll q ts).returned) (hne : e ∉ L.returned) : e.message.isBarrier = false := by
  obtain ⟨M, ht⟩ := h.exists_takenFrom hw he hne
  obtain ⟨_, _, _, hrun⟩ := (ht.taking h hw).place
  exact hrun.1

/-- **Two entries in line are returned in the order of the line**, but for overtaking. -/
theorem Tells.sublist_returned_iff (h : L.Tells q.pending) (hw : q.WellFormed) (ha : a ∈ L.line)
    (hb : b ∈ L.line) (hab : a.Before b) (har : a ∈ (L.noteAll q ts).returned)
    (hbr : b ∈ (L.noteAll q ts).returned) :
    [a, b].Sublist (L.noteAll q ts).returned ↔ ¬ L.Overtakes q ts b a := by
  have hN := h.noteAll hw ts
  have hnew : ∀ f ∈ L.line, f ∉ L.returned :=
    fun f hf hr => h.notMem_departed hf .returned (mem_returned.mp hr)
  constructor
  · rintro hsub ⟨_, _, M, ahead, rest, ht, hl, _⟩
    have htaking := ht.taking h hw
    obtain ⟨_, hM⟩ := htaking.tells
    refine hM.notMem_departed ?_ .returned (mem_returned.mp ((htaking.sublist_iff hN).mp hsub))
    rw [hl]
    simp
  · intro hno
    obtain ⟨M, ht⟩ := h.exists_takenFrom hw hbr (hnew b hb)
    have htaking := ht.taking h hw
    rw [htaking.sublist_iff hN]
    refine (htaking.returned_or_line hN (mem_accepted_of_takenFrom ht (h.mem_accepted ha))
      har).resolve_right fun hline => hno ?_
    have hmessage := h.isBarrier_of_returned hw har (hnew a ha)
    obtain ⟨hsync, hasync, ahead, rest, hl, hc⟩ := htaking.overtaken hline hab hmessage
    exact ⟨hsync, hasync, M, ahead, rest, ht, hl, hc⟩

theorem serial_lt_of_sublist_returned {quittable : Bool} (hne : a.message.due ≠ 0)
    (hdue : b.message.due = a.message.due) (hkind : b.message.async = a.message.async)
    (hab : [a, b].Sublist (Ledger.noteAll {} { quittable } ts).returned) : a.serial < b.serial := by
  have hw := Queue.wellFormed_fresh quittable
  have hN := tells_empty.noteAll hw ts
  have har : a ∈ (Ledger.noteAll {} { quittable } ts).returned := hab.subset (by simp)
  have hbr : b ∈ (Ledger.noteAll {} { quittable } ts).returned := hab.subset (by simp)
  by_contra hle
  have hdistinct : b ≠ a := by
    rintro rfl
    simpa using hab.nodup hN.nodup_returned
  have hserial : b.serial ≠ a.serial := fun hs => hdistinct
    (hN.eq_of_serial (hN.mem_accepted_of_returned hbr) (hN.mem_accepted_of_returned har) hs)
  have hlt : b.serial < a.serial := by omega
  obtain ⟨M, ht⟩ := tells_empty.exists_takenFrom hw har (by simp [returned])
  have htaking := ht.taking tells_empty hw
  obtain ⟨_, hM⟩ := htaking.tells
  obtain ⟨new, hnew⟩ := htaking.accepted
  obtain ⟨before, after, hl, _⟩ := htaking.place
  have haM : a ∈ M.accepted := hM.mem_accepted (by rw [hl]; simp)
  have hbM : b ∈ M.accepted := by
    by_contra hnot
    have hlen := hM.length_le_serial hN hnew (hN.mem_accepted_of_returned hbr) hnot
    have := hM.serial_lt haM
    omega
  rcases htaking.returned_or_line hN hbM hbr with hr | hline
  · -- `b` comes first, so `a` does not
    have hba := (htaking.sublist_iff hN).mpr hr
    exact not_sublist_swap hN.nodup_returned hab hba
  · have hbefore : b.Before a := Entry.before_of_later hlt hne (UInt64.le_of_eq hdue)
    obtain ⟨hsync, hasync, _⟩ := htaking.overtaken hline hbefore
      (tells_empty.isBarrier_of_returned hw hbr (by simp [returned]))
    rw [hkind, hasync] at hsync
    cases hsync

/-! ### Draining a queue without barriers -/

theorem Tells.note_look_cons {es : List Entry} {now : Time} (h : L.Tells q.pending)
    (hw : q.WellFormed) (hl : L.line = e :: es) (hmessage : e.message.isBarrier = false)
    (hdue : e.message.due ≤ now) (settled : Bool) :
    L.note q (.look now settled) = L.leave .returned es [e] := by
  have hp : q.pending = [] ++ e.message :: es.map Entry.message := by
    rw [← h.line, hl]
    rfl
  have htakes := hw.scan_takes hp (Timeline.mayRun_nil.mpr hmessage) hdue settled
  have herase : (e :: es).eraseP (fun f => decide (f.message = e.message)) = es :=
    List.eraseP_cons_of_pos (by simp)
  have hfind : (e :: es).find? (fun f => decide (f.message = e.message)) = some e :=
    List.find?_cons_of_pos (by simp)
  rw [Ledger.note, htakes.value, noteLook, Ledger.leaveFirst, hl, herase, hfind, Option.toList_some]

/-- **As many looks as there are messages empty a queue without barriers**, front to back. -/
theorem Tells.noteAll_drain (h : L.Tells q.pending) (hw : q.WellFormed) {looks : List (Time × Bool)}
    (hlen : looks.length = L.line.length) (hmessage : ∀ e ∈ L.line, e.message.isBarrier = false)
    (hdue : ∀ l ∈ looks, ∀ e ∈ L.line, e.message.due ≤ l.1) :
    (L.noteAll q (looks.map fun l => .look l.1 l.2)).line = [] ∧
      (L.noteAll q (looks.map fun l => .look l.1 l.2)).returned = L.returned ++ L.line := by
  induction looks generalizing L q with
  | nil =>
    have hnil := List.eq_nil_of_length_eq_zero hlen.symm
    exact ⟨hnil, by rw [hnil, List.append_nil]; rfl⟩
  | cons l looks ih =>
    obtain ⟨now, settled⟩ := l
    cases hl : L.line with
    | nil =>
      rw [hl] at hlen
      simp at hlen
    | cons e es =>
      rw [hl] at hmessage hdue
      have hnote := h.note_look_cons hw hl (hmessage e List.mem_cons_self)
        (hdue _ List.mem_cons_self e List.mem_cons_self) settled
      have hline : (L.note q (.look now settled)).line = es := by
        rw [hnote]
        rfl
      have hrest : looks.length = (L.note q (.look now settled)).line.length := by
        rw [hl] at hlen
        rw [hline]
        simpa using hlen
      obtain ⟨hempty, hr⟩ := ih (h.note hw (.look now settled)) (Queue.turn_wellFormed hw _) hrest
        (fun f hf => hmessage f (List.mem_cons_of_mem e (hline ▸ hf)))
        fun l hmem f hf =>
          hdue l (List.mem_cons_of_mem _ hmem) f (List.mem_cons_of_mem e (hline ▸ hf))
      refine ⟨hempty, ?_⟩
      rw [hline] at hr
      rw [List.map_cons, Ledger.noteAll, hr, hnote, returned_leave, if_pos rfl, List.append_assoc,
        List.singleton_append]

theorem pairwise_before_mergeSort {es : List Entry}
    (hserials : es.Pairwise fun e f => e.serial < f.serial) (hne : ∀ e ∈ es, e.message.due ≠ 0) :
    (es.mergeSort fun e f => e.message.due ≤ f.message.due).Pairwise Entry.Before := by
  have htrans : ∀ e f g : Entry, decide (e.message.due ≤ f.message.due) = true →
      decide (f.message.due ≤ g.message.due) = true →
      decide (e.message.due ≤ g.message.due) = true := by
    intro e f g hef hfg
    simp only [decide_eq_true_eq] at hef hfg ⊢
    exact UInt64.le_trans hef hfg
  have htotal : ∀ e f : Entry, (decide (e.message.due ≤ f.message.due) ||
      decide (f.message.due ≤ e.message.due)) = true := by
    intro e f
    simpa using UInt64.le_total e.message.due f.message.due
  have hsort := List.mergeSort_perm es fun e f => decide (e.message.due ≤ f.message.due)
  have hnodup := hsort.nodup_iff.mpr (hserials.imp fun hlt heq => by simp [heq] at hlt)
  refine List.pairwise_iff_forall_sublist.mpr fun {e f} hef => ?_
  have hle : e.message.due ≤ f.message.due := by
    simpa using List.pairwise_iff_forall_sublist.mp (List.pairwise_mergeSort htrans htotal es) hef
  have he : e ∈ es := hsort.mem_iff.mp (hef.subset (by simp))
  have hf : f ∈ es := hsort.mem_iff.mp (hef.subset (by simp))
  have hdistinct : e ≠ f := by
    rintro rfl
    simpa using hef.nodup hnodup
  rcases sublist_or_swap he hf hdistinct with hkeep | hswap
  · have hlt := List.pairwise_iff_forall_sublist.mp hserials hkeep
    exact Entry.before_of_later hlt (hne f hf) hle
  · -- what was accepted later and comes first is due earlier
    refine Or.inl (UInt64.lt_of_le_of_ne hle fun heq => ?_)
    have hback := List.pair_sublist_mergeSort htrans htotal
      (by simpa using UInt64.le_of_eq heq.symm) hswap
    exact not_sublist_swap hnodup hef hback

theorem Tells.line_eq_mergeSort (h : L.Tells ms) (hne : ∀ e ∈ L.line, e.message.due ≠ 0) :
    L.line = (L.accepted.filter (· ∈ L.line)).mergeSort
      fun e f => e.message.due ≤ f.message.due := by
  have hserials : (L.accepted.filter (· ∈ L.line)).Pairwise fun e f => e.serial < f.serial := by
    refine List.Pairwise.filter _ (List.pairwise_map.mp ?_)
    rw [h.serials]
    exact List.pairwise_lt_range
  have hmem : ∀ e, e ∈ L.accepted.filter (· ∈ L.line) ↔ e ∈ L.line := by
    intro e
    simp only [List.mem_filter, decide_eq_true_eq]
    exact ⟨fun he => he.2, fun he => ⟨h.mem_accepted he, he⟩⟩
  have hperm : L.line.Perm (L.accepted.filter (· ∈ L.line)) :=
    (List.perm_ext_iff_of_nodup (List.nodup_append.mp h.nodup).1
      (h.nodup_accepted.filter _)).mpr fun e => (hmem e).symm
  refine (hperm.trans (List.mergeSort_perm _ _).symm).eq_of_pairwise
    (fun e f _ _ hef hfe => absurd hfe hef.asymm) h.ordered ?_
  exact pairwise_before_mergeSort hserials fun e he => hne e ((hmem e).mp he)

end Ledger

namespace Queue

/-- **Messages are dispatched in order.**  A queue has come of a run, and some more turns follow,
any number of producers and one consumer taking them in any order.

* Two messages that are pending and come to be returned are returned in the order of their
  due-times, and of acceptance where these are equal, unless the second, an asynchronous message, is
  taken past the first, a synchronous one behind a barrier.
* What one producer sends for one time, all of it synchronous or all of it asynchronous, is returned
  in the order in which it was sent.  `sender` says who sent the entry with a serial number.
* If no barrier is pending and nothing is for the front of the queue, as many looks as there are
  messages, at readings at which all are due, return the stable sort of the messages by due-time,
  and nothing stays. -/
theorem dispatch_in_order (quittable : Bool) (ts us : List Turn) :
    let q := ({ quittable } : Queue).turns ts
    let L := Ledger.noteAll {} { quittable } ts
    let R := (L.noteAll q us).returned
    (∀ a ∈ L.line, ∀ b ∈ L.line, a ∈ R → b ∈ R → a.message.due ≠ 0 → b.message.due ≠ 0 →
      (a.message.due < b.message.due ∨ a.message.due = b.message.due ∧ a.serial < b.serial) →
      ([a, b].Sublist R ↔ ¬ L.Overtakes q us b a)) ∧
    (∀ (sender : Nat → Nat) (producer : Nat) (due : Time) (async : Bool), due ≠ 0 →
      (R.filter fun e => sender e.serial = producer ∧ e.message.due = due ∧
        e.message.async = async).Pairwise fun e f => e.serial < f.serial) ∧
    ((∀ m ∈ q.pending, m.isBarrier = false ∧ m.due ≠ 0) → ∀ looks : List (Time × Bool),
      looks.length = q.pending.length → (∀ l ∈ looks, ∀ m ∈ q.pending, m.due ≤ l.1) →
      let drain := looks.map fun l => Turn.look l.1 l.2
      q.handedOver drain = ((L.accepted.filter (· ∈ L.line)).map Entry.message).mergeSort
        (fun m n => m.due ≤ n.due) ∧ (q.turns drain).pending = []) := by
  intro q L R
  have hfresh := wellFormed_fresh quittable
  have hw : q.WellFormed := turns_wellFormed hfresh ts
  have hL : L.Tells q.pending := Ledger.tells_empty.noteAll hfresh ts
  refine ⟨?_, ?_, ?_⟩
  · intro a ha b hb har hbr hza hzb hab
    refine hL.sublist_returned_iff hw ha hb ?_ har hbr
    rcases hab with hlt | ⟨heq, hserial⟩
    · exact Or.inl hlt
    · exact Entry.before_of_later hserial hzb (UInt64.le_of_eq heq)
  · intro sender producer due async hz
    refine List.pairwise_iff_forall_sublist.mpr fun {e f} hef => ?_
    have he := hef.subset (by simp : e ∈ [e, f])
    have hf := hef.subset (by simp : f ∈ [e, f])
    simp only [List.mem_filter, decide_eq_true_eq] at he hf
    obtain ⟨_, _, hedue, hekind⟩ := he
    obtain ⟨_, _, hfdue, hfkind⟩ := hf
    have hsub : [e, f].Sublist (Ledger.noteAll {} { quittable } (ts ++ us)).returned := by
      rw [Ledger.noteAll_append]
      exact hef.trans List.filter_sublist
    exact Ledger.serial_lt_of_sublist_returned (by rwa [hedue]) (hfdue.trans hedue.symm)
      (hfkind.trans hekind.symm) hsub
  · intro hall looks hlen hdue drain
    have hmessages : ∀ e ∈ L.line, e.message ∈ q.pending := by
      intro e he
      rw [← hL.line]
      exact List.mem_map_of_mem he
    have hlen' : looks.length = L.line.length := by
      rw [hlen, ← hL.line, List.length_map]
    obtain ⟨hempty, hr⟩ := hL.noteAll_drain hw hlen' (fun e he => (hall _ (hmessages e he)).1)
      fun l hl e he => hdue l hl _ (hmessages e he)
    obtain ⟨es, hes, hhanded⟩ := hL.returned_noteAll hw drain
    obtain rfl : es = L.line := List.append_cancel_left (hes.symm.trans hr)
    refine ⟨?_, ?_⟩
    · have hsort := hL.line_eq_mergeSort fun e he => (hall _ (hmessages e he)).2
      rw [← hhanded]
      conv_lhs => rw [hsort]
      exact List.map_mergeSort fun _ _ _ _ => rfl
    · rw [← (hL.noteAll hw drain).line, hempty]
      rfl

/-- An asynchronous message overtakes a synchronous one, and a queue without barriers is drained. -/
theorem dispatch_in_order_past_barrier :
    let news : Message := { target := some ⟨0, "news"⟩ }
    let late : Message := { news with async := true }
    let ts : List Turn := [.operate 0 (.enqueue news 7), .operate 0 (.enqueue late 7),
      .operate 0 (.enqueue news 6)]
    let us : List Turn := [.operate 1 (.postBarrier 5), .look 9 true, .operate 9 (.removeBarrier 0),
      .look 9 true, .look 9 true]
    let q := ({} : Queue).turns ts
    let L := Ledger.noteAll {} {} ts
    let first : Entry := ⟨0, { news with due := 7, inUse := true }⟩
    let second : Entry := ⟨1, { late with due := 7, inUse := true }⟩
    let third : Entry := ⟨2, { news with due := 6, inUse := true }⟩
    (L.noteAll q us).returned = [second, third, first] ∧ L.Overtakes q us second first ∧
      [third, first].Sublist (L.noteAll q us).returned ∧ ¬ L.Overtakes q us first third ∧
      q.handedOver [.look 8 false, .look 8 true, .look 9 false] =
        [first.message, second.message, third.message].mergeSort fun m n => m.due ≤ n.due := by
  intro news late ts us q L first second third
  obtain ⟨hpairs, _, hdrain⟩ := dispatch_in_order true ts us
  have hR : (L.noteAll q us).returned = [second, third, first] := by decide +kernel
  have hline : L.line = [third, first, second] := by decide +kernel
  have hpending : q.pending = [third.message, first.message, second.message] := by decide +kernel
  have hovertakes : L.Overtakes q us second first := by
    by_contra hno
    have hsub := (hpairs first (by rw [hline]; decide) second (by rw [hline]; decide)
      (by rw [hR]; decide) (by rw [hR]; decide) (by decide) (by decide) (by decide)).mpr hno
    rw [hR] at hsub
    exact absurd hsub (by decide)
  have hsub : [third, first].Sublist (L.noteAll q us).returned := by
    rw [hR]
    decide
  have hno := (hpairs third (by rw [hline]; decide) first (by rw [hline]; decide)
    (by rw [hR]; decide) (by rw [hR]; decide) (by decide) (by decide) (by decide)).mp hsub
  have hdue : ∀ l ∈ [((8 : Time), false), (8, true), (9, false)], ∀ m ∈ q.pending, m.due ≤ l.1 := by
    simp only [hpending, List.mem_cons, forall_eq_or_imp, List.not_mem_nil, IsEmpty.forall_iff,
      implies_true]
    decide
  have hall := hdrain (by rw [hpending]; decide) _ (by rw [hpending]; rfl) hdue
  have haccepted : (L.accepted.filter (· ∈ L.line)).map Entry.message =
      [first.message, second.message, third.message] := by
    decide +kernel
  rw [haccepted] at hall
  exact ⟨hR, hovertakes, hsub, hno, hall.1⟩

end Queue

end Agenda
