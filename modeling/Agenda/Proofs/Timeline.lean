import Agenda.Timeline
import Mathlib.Data.List.TakeWhile

/-!
# The order of a list of messages

What the rules of `Timeline` do to plain lists, without slots.  `Orderly` is what every pending list
is: due-times ascend, no barrier is asynchronous, and everything is marked as taken.  It passes to
sublists (`Orderly.sublist`), so every removal keeps it, and insertion keeps it (`Orderly.insert`).
On an ascending list insertion commutes with filters (`filter_insert`).

`MayRun ahead m` says what lets `m` be taken from behind `ahead`.  `eligible?_eq_some` reads the
choice of the next message as the one split of the list with that property (`MayRun.unique`), and
`exists_eligible_le` bounds its due-time: nothing that could run is due before what may run next.
-/

namespace Agenda.Timeline

variable {m d : Message} {ms xs ys ahead rest : List Message}

/-! ### Orderly lists -/

/-- What holds of the messages of a queue in the order in which they are pending. -/
structure Orderly (ms : List Message) : Prop where
  ascending : Ascending ms
  barrierSync : ∀ m ∈ ms, m.isBarrier = true → m.async = false
  inUse : ∀ m ∈ ms, m.inUse = true

theorem orderly_nil : Orderly [] :=
  ⟨List.Pairwise.nil, by simp, by simp⟩

theorem Orderly.sublist (h : Orderly ms) (hs : xs.Sublist ms) : Orderly xs :=
  ⟨h.ascending.sublist hs, fun m hm => h.barrierSync m (hs.subset hm),
    fun m hm => h.inUse m (hs.subset hm)⟩

theorem takeWhile_eq_due (h : Ascending ms) (t : Time) : ms.takeWhile (·.due ≤ t) = due t ms := by
  induction ms with
  | nil => rfl
  | cons x ms ih =>
    obtain ⟨hx, hms⟩ := List.pairwise_cons.mp h
    by_cases hd : x.due ≤ t
    · rw [List.takeWhile_cons_of_pos (by simpa using hd), ih hms, due, due,
        List.filter_cons_of_pos (by simpa using hd)]
    · rw [List.takeWhile_cons_of_neg (by simpa using hd), due, eq_comm, List.filter_eq_nil_iff]
      intro y hy
      have hle : x.due ≤ y.due := by
        rcases List.mem_cons.mp hy with rfl | hy
        · exact UInt64.le_refl _
        · exact hx y hy
      simpa using UInt64.lt_of_lt_of_le (UInt64.not_le.mp hd) hle

theorem lt_of_mem_dropWhile (h : Ascending ms) (t : Time) :
    ∀ x ∈ ms.dropWhile (·.due ≤ t), t < x.due := by
  intro x hx
  induction ms with
  | nil => simp at hx
  | cons y ms ih =>
    obtain ⟨hy, hms⟩ := List.pairwise_cons.mp h
    by_cases hd : y.due ≤ t
    · rw [List.dropWhile_cons_of_pos (by simpa using hd)] at hx
      exact ih hms hx
    · rw [List.dropWhile_cons_of_neg (by simpa using hd)] at hx
      rcases List.mem_cons.mp hx with rfl | hx
      · exact UInt64.not_le.mp hd
      · exact UInt64.lt_of_lt_of_le (UInt64.not_le.mp hd) (hy x hx)

/-! ### Insertion -/

/-- What a message is put behind. -/
def before (m : Message) (ms : List Message) : List Message :=
  if m.due = 0 then [] else ms.takeWhile (·.due ≤ m.due)

/-- What a message is put in front of. -/
def behind (m : Message) (ms : List Message) : List Message :=
  if m.due = 0 then ms else ms.dropWhile (·.due ≤ m.due)

theorem before_append_behind (m : Message) (ms : List Message) :
    before m ms ++ behind m ms = ms := by
  unfold before behind
  split
  · rfl
  · exact List.takeWhile_append_dropWhile

theorem insert_eq (m : Message) (ms : List Message) :
    insert m ms = before m ms ++ m :: behind m ms := by
  unfold insert before behind
  split <;> rfl

theorem insert_cons (m x : Message) (ms : List Message) : insert m (x :: ms) =
    if m.due ≠ 0 ∧ x.due ≤ m.due then x :: insert m ms else m :: x :: ms := by
  unfold insert
  by_cases hz : m.due = 0
  · rw [if_pos hz, if_neg fun h => h.1 hz]
  · by_cases hx : x.due ≤ m.due
    · rw [if_neg hz, if_neg hz, if_pos ⟨hz, hx⟩, List.takeWhile_cons_of_pos (by simpa using hx),
        List.dropWhile_cons_of_pos (by simpa using hx), List.cons_append]
    · rw [if_neg hz, if_neg fun h => hx h.2, List.takeWhile_cons_of_neg (by simpa using hx),
        List.dropWhile_cons_of_neg (by simpa using hx), List.nil_append]

theorem insert_perm (m : Message) (ms : List Message) : (insert m ms).Perm (m :: ms) := by
  have hperm : (before m ms ++ m :: behind m ms).Perm (m :: (before m ms ++ behind m ms)) :=
    List.perm_middle
  rwa [← insert_eq, before_append_behind] at hperm

theorem mem_insert : d ∈ insert m ms ↔ d = m ∨ d ∈ ms := by
  rw [(insert_perm m ms).mem_iff, List.mem_cons]

theorem le_of_mem_before (h : d ∈ before m ms) : d.due ≤ m.due := by
  unfold before at h
  split at h
  · simp at h
  · simpa using List.mem_takeWhile_imp h

/-- Nothing but what is for the front is put in front of what is due at the same time. -/
theorem lt_of_mem_behind (h : Ascending ms) (hz : m.due ≠ 0) (hd : d ∈ behind m ms) :
    m.due < d.due := by
  rw [behind, if_neg hz] at hd
  exact lt_of_mem_dropWhile h m.due d hd

theorem le_of_mem_behind (h : Ascending ms) (hd : d ∈ behind m ms) : m.due ≤ d.due := by
  by_cases hz : m.due = 0
  · rw [hz]
    exact UInt64.zero_le
  · exact UInt64.le_of_lt (lt_of_mem_behind h hz hd)

theorem Ascending.insert (h : Ascending ms) (m : Message) : Ascending (insert m ms) := by
  have hms := h
  rw [← before_append_behind m ms, Ascending, List.pairwise_append] at hms
  obtain ⟨hb, ha, _⟩ := hms
  rw [insert_eq, Ascending, List.pairwise_append, List.pairwise_cons]
  refine ⟨hb, ⟨fun x hx => le_of_mem_behind h hx, ha⟩, fun x hx y hy => ?_⟩
  have hxm := le_of_mem_before hx
  rcases List.mem_cons.mp hy with rfl | hy
  · exact hxm
  · exact UInt64.le_trans hxm (le_of_mem_behind h hy)

theorem Orderly.insert (h : Orderly ms) (hsync : m.isBarrier = true → m.async = false)
    (huse : m.inUse = true) : Orderly (insert m ms) := by
  refine ⟨h.ascending.insert m, fun d hd => ?_, fun d hd => ?_⟩
  · rcases mem_insert.mp hd with rfl | hd
    · exact hsync
    · exact h.barrierSync d hd
  · rcases mem_insert.mp hd with rfl | hd
    · exact huse
    · exact h.inUse d hd

theorem insert_eq_cons (h : m.due ≠ 0 → ∀ x ∈ ms, m.due < x.due) : insert m ms = m :: ms := by
  cases ms with
  | nil =>
    unfold insert
    split <;> rfl
  | cons x ms =>
    rw [insert_cons, if_neg]
    rintro ⟨hz, hx⟩
    exact UInt64.not_le.mpr (h hz x List.mem_cons_self) hx

/-- **Insertion commutes with a choice among the messages.** -/
theorem filter_insert (h : Ascending ms) (p : Message → Bool) (m : Message) :
    (insert m ms).filter p = if p m then insert m (ms.filter p) else ms.filter p := by
  induction ms with
  | nil =>
    rw [insert_eq_cons (by simp), List.filter_cons, List.filter_nil, insert_eq_cons (by simp)]
  | cons x ms ih =>
    obtain ⟨hx, hms⟩ := List.pairwise_cons.mp h
    rw [insert_cons]
    by_cases hpass : m.due ≠ 0 ∧ x.due ≤ m.due
    · rw [if_pos hpass, List.filter_cons, ih hms, List.filter_cons]
      by_cases hpx : p x
      · rw [if_pos hpx, if_pos hpx, insert_cons, if_pos hpass]
        split <;> rfl
      · rw [if_neg hpx, if_neg hpx]
    · -- the place is in front of `x`, and so of whatever is chosen of the list
      have hlater : m.due ≠ 0 → ∀ y ∈ (x :: ms).filter p, m.due < y.due := by
        intro hz y hy
        have hmx : m.due < x.due := UInt64.not_le.mp fun hle => hpass ⟨hz, hle⟩
        rcases List.mem_cons.mp (List.mem_filter.mp hy).1 with rfl | hy
        · exact hmx
        · exact UInt64.lt_of_lt_of_le hmx (hx y hy)
      rw [if_neg hpass, List.filter_cons, insert_eq_cons hlater]

/-! ### The next message -/

/-- The consumer may take `m` from behind `ahead`: it is a message and stands first, or a barrier
does and `m` is asynchronous, and barriers and synchronous messages are all that it overtakes. -/
def MayRun (ahead : List Message) (m : Message) : Prop :=
  m.isBarrier = false ∧
    (ahead = [] ∨ (∃ head ∈ ahead.head?, head.isBarrier = true) ∧ m.async = true ∧
      ∀ x ∈ ahead, x.isBarrier = true ∨ x.async = false)

theorem mayRun_nil : MayRun [] m ↔ m.isBarrier = false := by
  simp [MayRun]

theorem mayRun_cons {x : Message} : MayRun (x :: xs) m ↔ m.isBarrier = false ∧
    x.isBarrier = true ∧ m.async = true ∧ ∀ y ∈ xs, y.isBarrier = true ∨ y.async = false := by
  simp only [MayRun, List.head?_cons, Option.mem_some_iff, exists_eq_left', reduceCtorEq, false_or,
    List.forall_mem_cons]
  constructor
  · rintro ⟨hm, hx, ha, _, hall⟩
    exact ⟨hm, hx, ha, hall⟩
  · rintro ⟨hm, hx, ha, hall⟩
    exact ⟨hm, hx, ha, Or.inl hx, hall⟩

theorem not_mayRun_of_mayRun (h : MayRun ahead m) (ys : List Message) :
    ¬ MayRun (ahead ++ m :: ys) d := by
  intro hd
  cases ahead with
  | nil =>
    have hm := (mayRun_cons.mp hd).2.1
    rw [mayRun_nil.mp h] at hm
    cases hm
  | cons x ahead =>
    obtain ⟨hm, _, hasync, _⟩ := mayRun_cons.mp h
    obtain ⟨_, _, _, hall⟩ := mayRun_cons.mp hd
    rcases hall m (by simp) with hb | hs
    · rw [hm] at hb
      cases hb
    · rw [hasync] at hs
      cases hs

/-- **At most one entry of a list may run.** -/
theorem MayRun.unique {ahead' rest' : List Message} (h : MayRun ahead m) (h' : MayRun ahead' d)
    (he : ahead ++ m :: rest = ahead' ++ d :: rest') : ahead = ahead' ∧ m = d ∧ rest = rest' := by
  rcases List.append_eq_append_iff.mp he with ⟨zs, rfl, hzs⟩ | ⟨zs, rfl, hzs⟩
  · cases zs with
    | nil =>
      obtain ⟨rfl, rfl⟩ := List.cons.inj hzs
      exact ⟨(List.append_nil _).symm, rfl, rfl⟩
    | cons z zs =>
      obtain ⟨rfl, _⟩ := List.cons.inj hzs
      exact absurd h' (not_mayRun_of_mayRun h zs)
  · cases zs with
    | nil =>
      obtain ⟨rfl, rfl⟩ := List.cons.inj hzs
      exact ⟨List.append_nil _, rfl, rfl⟩
    | cons z zs =>
      obtain ⟨rfl, _⟩ := List.cons.inj hzs
      exact absurd h (not_mayRun_of_mayRun h' zs)

/-- **The next message is the entry that may run.** -/
theorem eligible?_eq_some (h : Orderly ms) :
    eligible? ms = some m ↔ ∃ ahead rest, ms = ahead ++ m :: rest ∧ MayRun ahead m := by
  cases ms with
  | nil => simp [eligible?]
  | cons x ms =>
    by_cases hx : x.isBarrier
    · rw [eligible?, if_pos hx, List.find?_eq_some_iff_append]
      constructor
      · rintro ⟨hm, ahead, rest, rfl, hall⟩
        have hmb : m.isBarrier = false := by
          by_contra hb
          have := h.barrierSync m (by simp) (by simpa using hb)
          rw [hm] at this
          cases this
        refine ⟨x :: ahead, rest, rfl, mayRun_cons.mpr ⟨hmb, hx, hm, fun y hy => Or.inr ?_⟩⟩
        simpa using hall y hy
      · rintro ⟨ahead, rest, he, hrun⟩
        cases ahead with
        | nil =>
          obtain ⟨rfl, _⟩ := List.cons.inj he
          rw [mayRun_nil.mp hrun] at hx
          cases hx
        | cons y ahead =>
          obtain ⟨rfl, rfl⟩ := List.cons.inj he
          obtain ⟨_, _, hm, hall⟩ := mayRun_cons.mp hrun
          refine ⟨hm, ahead, rest, rfl, fun y hy => ?_⟩
          rcases hall y hy with hb | hs
          · rw [h.barrierSync y (by simp [hy]) hb]
            rfl
          · rw [hs]
            rfl
    · have hxf : x.isBarrier = false := by simpa using hx
      rw [eligible?, if_neg hx, Option.some.injEq]
      constructor
      · rintro rfl
        exact ⟨[], ms, rfl, mayRun_nil.mpr hxf⟩
      · rintro ⟨ahead, rest, he, hrun⟩
        have hx' : MayRun [] x := mayRun_nil.mpr hxf
        exact (hx'.unique hrun he).2.1

/-- An entry could be next on the list: it is asynchronous, or no barrier stalls the list. -/
def Contends (ms : List Message) (d : Message) : Prop :=
  d ∈ ms ∧ d.isBarrier = false ∧ (d.async = true ∨ ∃ head ∈ ms.head?, head.isBarrier = false)

/-- **What may run next is due no later than anything that could.** -/
theorem exists_eligible_le (h : Orderly ms) (hd : Contends ms d) :
    ∃ e, eligible? ms = some e ∧ e.due ≤ d.due := by
  obtain ⟨hmem, hdb, hrun⟩ := hd
  cases ms with
  | nil => simp at hmem
  | cons x ms =>
    obtain ⟨hx, hms⟩ := List.pairwise_cons.mp h.ascending
    by_cases hb : x.isBarrier
    · have hne : d ≠ x := by
        rintro rfl
        rw [hdb] at hb
        cases hb
      have hdm : d ∈ ms := (List.mem_cons.mp hmem).resolve_left hne
      have hasync : d.async = true := by
        refine hrun.resolve_right ?_
        rintro ⟨head, hhead, hf⟩
        cases hhead
        rw [hb] at hf
        cases hf
      rw [eligible?, if_pos hb]
      cases hf : ms.find? Message.async with
      | none =>
        have := List.find?_eq_none.mp hf d hdm
        exact absurd hasync this
      | some e =>
        obtain ⟨_, as, bs, rfl, has⟩ := List.find?_eq_some_iff_append.mp hf
        refine ⟨e, rfl, ?_⟩
        rw [List.pairwise_append, List.pairwise_cons] at hms
        rcases List.mem_append.mp hdm with hda | hdb'
        · have := has d hda
          rw [hasync] at this
          cases this
        · rcases List.mem_cons.mp hdb' with rfl | hdb'
          · exact UInt64.le_refl _
          · exact hms.2.1.1 d hdb'
    · refine ⟨x, by rw [eligible?, if_neg hb], ?_⟩
      rcases List.mem_cons.mp hmem with rfl | hdm
      · exact UInt64.le_refl _
      · exact hx d hdm

/-! ### What a change does to the next message -/

/-- A change of the list brings nothing forward: what may run next in `ms'` is due no earlier than
what may run next in `ms`. -/
def NoSooner (ms ms' : List Message) : Prop :=
  ∀ d', eligible? ms' = some d' → ∃ d, eligible? ms = some d ∧ d.due ≤ d'.due

/-- An entry that may run in `ms'` brings nothing forward if it contended in `ms` already. -/
theorem noSooner_of_contends {ms' : List Message} (h : Orderly ms) (h' : Orderly ms')
    (hc : ∀ ahead d rest, ms' = ahead ++ d :: rest → MayRun ahead d → Contends ms d) :
    NoSooner ms ms' := by
  intro d hd
  obtain ⟨ahead, rest, he, hrun⟩ := (eligible?_eq_some h').mp hd
  exact exists_eligible_le h (hc ahead d rest he hrun)

theorem MayRun.contends (h : MayRun ahead d) (hmem : d ∈ ms)
    (hhead : ahead = [] → ∃ head ∈ ms.head?, head.isBarrier = false) : Contends ms d := by
  refine ⟨hmem, h.1, ?_⟩
  rcases h.2 with hn | ⟨_, ha, _⟩
  · exact Or.inr (hhead hn)
  · exact Or.inl ha

/-- **Putting in what may not run at its place brings nothing forward.** -/
theorem noSooner_insert (h : Orderly (xs ++ ys)) (h' : Orderly (xs ++ m :: ys))
    (hm : ¬ MayRun xs m) : NoSooner (xs ++ ys) (xs ++ m :: ys) := by
  refine noSooner_of_contends h h' fun ahead d rest he hrun => hrun.contends ?_ ?_
  · have hd : d ∈ xs ++ m :: ys := by
      rw [he]
      simp
    rcases List.append_eq_append_iff.mp he with ⟨zs, rfl, hzs⟩ | ⟨zs, rfl, hzs⟩
    · cases zs with
      | nil =>
        obtain ⟨rfl, _⟩ := List.cons.inj hzs
        rw [List.append_nil] at hrun
        exact absurd hrun hm
      | cons z zs =>
        obtain ⟨_, rfl⟩ := List.cons.inj hzs
        simp
    · cases zs with
      | nil =>
        obtain ⟨rfl, _⟩ := List.cons.inj hzs
        rw [List.append_nil] at hm
        exact absurd hrun hm
      | cons z zs =>
        obtain ⟨rfl, _⟩ := List.cons.inj hzs
        simp
  · rintro rfl
    cases xs with
    | nil =>
      obtain ⟨rfl, _⟩ := List.cons.inj he
      exact absurd hrun hm
    | cons x xs =>
      obtain ⟨rfl, _⟩ := List.cons.inj he
      exact ⟨x, rfl, hrun.1⟩

theorem noSooner_filter (h : Orderly ms) {p : Message → Bool}
    (hp : ∀ x ∈ ms, x.isBarrier = true → p x = true) : NoSooner ms (ms.filter p) := by
  refine noSooner_of_contends h (h.sublist List.filter_sublist) fun ahead d rest he hrun =>
    hrun.contends ?_ ?_
  · have hd : d ∈ ms.filter p := by
      rw [he]
      simp
    exact (List.mem_filter.mp hd).1
  · rintro rfl
    cases ms with
    | nil => simp at he
    | cons x ms =>
      refine ⟨x, rfl, ?_⟩
      by_contra hx
      have hxb : x.isBarrier = true := by simpa using hx
      rw [List.filter_cons_of_pos (hp x List.mem_cons_self hxb)] at he
      obtain ⟨rfl, _⟩ := List.cons.inj he
      exact hx hrun.1

/-- **Taking out a barrier brings nothing forward** if it was not the head, or if a barrier comes
to the head in its place. -/
theorem noSooner_remove_barrier {b : Message} (h : Orderly (xs ++ b :: ys))
    (hhead : xs = [] → ∃ y ∈ ys.head?, y.isBarrier = true) :
    NoSooner (xs ++ b :: ys) (xs ++ ys) := by
  have hsub : (xs ++ ys).Sublist (xs ++ b :: ys) :=
    List.Sublist.append_left (List.sublist_cons_self b ys) xs
  refine noSooner_of_contends h (h.sublist hsub) fun ahead d rest he hrun => hrun.contends ?_ ?_
  · exact hsub.subset (by rw [he]; simp)
  · rintro rfl
    cases xs with
    | nil =>
      obtain ⟨y, hy, hyb⟩ := hhead rfl
      rw [List.nil_append] at he
      rw [he] at hy
      cases hy
      have := hrun.1
      rw [hyb] at this
      cases this
    | cons x xs =>
      obtain ⟨rfl, _⟩ := List.cons.inj he
      exact ⟨x, rfl, hrun.1⟩

end Agenda.Timeline
