import Agenda.Proofs.Queue.Eligibility
import Mathlib.Data.List.Sort

/-!
# The ledger of a run

A ledger is the reference against which the chain of a queue is read.  It is kept from the outside:
every turn of a run is noted by what was asked and what was answered.  An entry is known by its
serial number, the number of entries taken before it, so two messages with the same content are two
entries.  `Entry.Before` is the order in which entries stand in line.

`Tells L ms` says that the line of `L` is the list `ms`.  Each way in which a list changes has its
lemma (`Tells.accept`, `Tells.leave`), one turn is put together in `Tells.note`, and a run follows
by induction (`Tells.noteAll`).
-/

namespace Agenda

/-- Something that a queue has taken. -/
structure Entry where
  /-- The number of entries that were taken before it. -/
  serial : Nat
  /-- The message as it was taken. -/
  message : Message
  deriving DecidableEq, Repr

namespace Entry

/-- `e` stands before `f` in line: it is due earlier, or it is due at the same time and was taken
earlier; among entries for the front of the queue, with due-time 0, the one taken later. -/
def Before (e f : Entry) : Prop :=
  e.message.due < f.message.due ∨ e.message.due = f.message.due ∧
    if e.message.due = 0 then f.serial < e.serial else e.serial < f.serial

instance : DecidableRel Before :=
  fun _ _ => inferInstanceAs (Decidable (_ ∨ _ ∧ ite _ _ _))

theorem Before.due_le {e f : Entry} (h : e.Before f) : e.message.due ≤ f.message.due := by
  rcases h with hlt | ⟨heq, _⟩
  · exact UInt64.le_of_lt hlt
  · exact UInt64.le_of_eq heq

theorem Before.asymm {e f : Entry} (h : e.Before f) : ¬ f.Before e := by
  intro g
  unfold Before at h g
  grind

theorem Before.trans {e f g : Entry} (h : e.Before f) (h' : f.Before g) : e.Before g := by
  unfold Before at h h' ⊢
  grind

/-- The later of two entries stands in front if it is for the front of the queue or due earlier. -/
theorem not_before_iff {e f : Entry} (h : f.serial < e.serial) :
    ¬ e.Before f ↔ e.message.due ≠ 0 ∧ f.message.due ≤ e.message.due := by
  unfold Before
  grind

theorem before_of_not_before {e f : Entry} (h : f.serial < e.serial) (hn : ¬ e.Before f) :
    f.Before e := by
  unfold Before at hn ⊢
  grind

/-- What was taken earlier stands behind an entry for the very front, and behind what is due
earlier. -/
theorem before_of_earlier {e f : Entry} (h : f.serial < e.serial)
    (hdue : e.message.due = 0 ∨ e.message.due < f.message.due) : e.Before f := by
  by_contra hn
  obtain ⟨hz, hle⟩ := (not_before_iff h).mp hn
  rcases hdue with h0 | hlt
  · exact hz h0
  · exact UInt64.not_le.mpr hlt hle

/-- What is taken later stands behind an entry, unless it is for the very front or due earlier. -/
theorem before_of_later {e f : Entry} (h : e.serial < f.serial) (hz : f.message.due ≠ 0)
    (hle : e.message.due ≤ f.message.due) : e.Before f :=
  before_of_not_before h ((not_before_iff h).mpr ⟨hz, hle⟩)

end Entry

/-- Why an entry is no longer in line. -/
inductive Departure where
  | returned
  | removed
  | discarded
  deriving DecidableEq, Repr

/-- A record of what a queue was given and what has become of it. -/
structure Ledger where
  /-- All that was ever taken, in order of acceptance. -/
  accepted : List Entry := []
  /-- What is pending, first to last. -/
  line : List Entry := []
  /-- What has left the line, in the order in which it left. -/
  departed : List (Departure × Entry) := []
  deriving Repr

namespace Ledger

/-- The entries that were handed to the consumer, in this order. -/
def returned (L : Ledger) : List Entry :=
  (L.departed.filter (·.1 = .returned)).map Prod.snd

/-- Notes a message that was taken. -/
def accept (L : Ledger) (m : Message) : Ledger :=
  let e : Entry := ⟨L.accepted.length, m⟩
  { L with accepted := L.accepted ++ [e], line := L.line.orderedInsert Entry.Before e }

/-- Notes that `gone` have left the line, and `kept` have not. -/
def leave (L : Ledger) (why : Departure) (kept gone : List Entry) : Ledger :=
  { L with line := kept, departed := L.departed ++ gone.map (why, ·) }

/-- Notes that the first entry whose message passes has left the line. -/
def leaveFirst (L : Ledger) (why : Departure) (pass : Message → Bool) : Ledger :=
  L.leave why (L.line.eraseP (pass ·.message)) (L.line.find? (pass ·.message)).toList

/-- Notes that all entries whose message passes have left the line. -/
def leaveAll (L : Ledger) (why : Departure) (pass : Message → Bool) : Ledger :=
  L.leave why (L.line.filter (!pass ·.message)) (L.line.filter (pass ·.message))

/-- Notes an operation on `q` at clock reading `now`, by its answer. -/
def noteOperation (L : Ledger) (q : Queue) (now : Time) : Operation → Ledger
  | .enqueue m due =>
    match (q.enqueue m due).value with
    | .ok true => L.accept { m with inUse := true, due }
    | _ => L
  | .postBarrier due =>
    match (q.postBarrier due).value with
    | some token => L.accept (.barrier token due)
    | none => L
  | .removeBarrier token =>
    match (q.removeBarrier token).value with
    | .ok _ => L.leaveFirst .removed (·.token? = some token)
    | .error _ => L
  | .remove f => L.leaveAll .removed f.accepts
  | .quit safe =>
    match (q.quit now safe).value with
    | .ok _ => if q.quitting then L else L.leaveAll .discarded fun m => !(safe && m.due ≤ now)
    | .error _ => L
  | .addIdle _ | .removeIdle _ => L

/-- Notes the answer to a look: the message that was taken, or the end of the queue. -/
def noteLook (L : Ledger) : Call → Ledger
  | .returned (some m) => L.leaveFirst .returned (· = m)
  | .returned none => L.leaveAll .discarded fun _ => true
  | _ => L

/-- Notes a turn of `q`. -/
def note (L : Ledger) (q : Queue) : Turn → Ledger
  | .operate now op => L.noteOperation q now op
  | .look now settled => L.noteLook (q.scan now settled).value
  | .idle .. | .endPass => L

/-- Notes the turns of a run that starts at `q`. -/
def noteAll (L : Ledger) (q : Queue) : List Turn → Ledger
  | [] => L
  | t :: ts => (L.note q t).noteAll (q.turn t) ts

end Ledger

namespace Queue

/-- What the consumer is handed in a turn. -/
def handed (q : Queue) : Turn → List Message
  | .look now settled =>
    match (q.scan now settled).value with
    | .returned (some m) => [m]
    | _ => []
  | _ => []

/-- What the consumer is handed in a run, in order. -/
def handedOver (q : Queue) : List Turn → List Message
  | [] => []
  | t :: ts => q.handed t ++ (q.turn t).handedOver ts

theorem handedOver_append (q : Queue) (ts us : List Turn) :
    q.handedOver (ts ++ us) = q.handedOver ts ++ (q.turns ts).handedOver us := by
  induction ts generalizing q with
  | nil => rfl
  | cons t ts ih =>
    show q.handed t ++ (q.turn t).handedOver (ts ++ us) = _
    rw [ih, ← List.append_assoc]
    rfl

end Queue

namespace Ledger

open Timeline (Ascending MayRun before behind)

variable {L : Ledger} {q : Queue} {ms xs ys : List Message} {m : Message}

/-- The line of a ledger is the list `ms`, in order, and its books balance: serial numbers count the
acceptances, and what was taken is in line or has departed, once. -/
structure Tells (L : Ledger) (ms : List Message) : Prop where
  line : L.line.map Entry.message = ms
  ordered : L.line.Pairwise Entry.Before
  serials : L.accepted.map Entry.serial = List.range L.accepted.length
  balance : L.accepted.Perm (L.line ++ L.departed.map Prod.snd)

theorem tells_empty : Tells {} [] :=
  ⟨rfl, List.Pairwise.nil, rfl, List.Perm.refl _⟩

/-! ### Coming in -/

theorem Tells.mem_accepted (h : L.Tells ms) {e : Entry} (he : e ∈ L.line) : e ∈ L.accepted :=
  h.balance.mem_iff.mpr (List.mem_append_left _ he)

theorem Tells.serial_lt (h : L.Tells ms) {e : Entry} (he : e ∈ L.accepted) :
    e.serial < L.accepted.length := by
  have hmem : e.serial ∈ L.accepted.map Entry.serial := List.mem_map_of_mem he
  rw [h.serials] at hmem
  exact List.mem_range.mp hmem

/-- The latest entry goes where its message goes in a list. -/
theorem map_orderedInsert_message {e : Entry} {es : List Entry}
    (h : ∀ f ∈ es, f.serial < e.serial) :
    (es.orderedInsert Entry.Before e).map Entry.message =
      Timeline.insert e.message (es.map Entry.message) := by
  induction es with
  | nil =>
    rw [List.map_nil, Timeline.insert]
    split <;> rfl
  | cons f es ih =>
    have hbefore := Entry.not_before_iff (h f List.mem_cons_self)
    rw [List.orderedInsert_cons, List.map_cons, Timeline.insert_cons]
    by_cases hf : e.Before f
    · rw [if_pos hf, if_neg fun hn => hbefore.mpr hn hf]
      rfl
    · rw [if_neg hf, if_pos (hbefore.mp hf), List.map_cons,
        ih fun g hg => h g (List.mem_cons_of_mem f hg)]

theorem pairwise_orderedInsert {e : Entry} {es : List Entry} (h : ∀ f ∈ es, f.serial < e.serial)
    (hes : es.Pairwise Entry.Before) : (es.orderedInsert Entry.Before e).Pairwise Entry.Before := by
  induction es with
  | nil => exact List.pairwise_singleton _ e
  | cons f es ih =>
    obtain ⟨hf, hes'⟩ := List.pairwise_cons.mp hes
    rw [List.orderedInsert_cons]
    by_cases hef : e.Before f
    · rw [if_pos hef]
      refine List.pairwise_cons.mpr ⟨fun g hg => ?_, hes⟩
      rcases List.mem_cons.mp hg with rfl | hg
      · exact hef
      · exact hef.trans (hf g hg)
    · rw [if_neg hef]
      have hrest := ih (fun g hg => h g (List.mem_cons_of_mem f hg)) hes'
      refine List.pairwise_cons.mpr ⟨fun g hg => ?_, hrest⟩
      rcases (List.mem_orderedInsert _).mp hg with rfl | hg
      · exact Entry.before_of_not_before (h f List.mem_cons_self) hef
      · exact hf g hg

/-- **A new entry goes to its place in line.** -/
theorem Tells.accept (h : L.Tells ms) (m : Message) :
    (L.accept m).Tells (Timeline.insert m ms) := by
  have hlt : ∀ f ∈ L.line, f.serial < L.accepted.length :=
    fun f hf => h.serial_lt (h.mem_accepted hf)
  refine ⟨?_, pairwise_orderedInsert hlt h.ordered, ?_, ?_⟩
  · rw [← h.line]
    exact map_orderedInsert_message hlt
  · show (L.accepted ++ [(⟨L.accepted.length, m⟩ : Entry)]).map Entry.serial = _
    rw [List.map_append, h.serials, Ledger.accept, List.length_append, List.length_singleton,
      List.range_succ]
    rfl
  · show (L.accepted ++ [(⟨L.accepted.length, m⟩ : Entry)]).Perm _
    refine (List.perm_append_singleton _ _).trans ?_
    refine (h.balance.cons _).trans ?_
    exact (List.perm_orderedInsert _ _ L.line).symm.append_right _

/-! ### Going out -/

/-- **Entries leave the line**, and those that stay keep their order. -/
theorem Tells.leave {kept gone : List Entry} (h : L.Tells ms) (why : Departure)
    (hkept : kept.Sublist L.line) (hgone : L.line.Perm (kept ++ gone)) :
    (L.leave why kept gone).Tells (kept.map Entry.message) := by
  refine ⟨rfl, h.ordered.sublist hkept, h.serials, h.balance.trans ?_⟩
  show (L.line ++ L.departed.map Prod.snd).Perm
    (kept ++ (L.departed ++ gone.map (why, ·)).map Prod.snd)
  have hpairs : (gone.map (why, ·)).map Prod.snd = gone := by simp
  rw [List.map_append, hpairs]
  refine (hgone.append_right _).trans ?_
  rw [List.append_assoc]
  exact List.perm_append_comm.append_left kept

theorem Tells.leaveAll (h : L.Tells ms) (why : Departure) (pass : Message → Bool) :
    (L.leaveAll why pass).Tells (ms.filter (!pass ·)) := by
  have hkept : (L.line.filter (!pass ·.message)).map Entry.message = ms.filter (!pass ·) := by
    rw [← h.line, List.filter_map]
    rfl
  rw [← hkept]
  refine h.leave why List.filter_sublist ?_
  exact (List.filter_append_perm (pass ·.message) L.line).symm.trans List.perm_append_comm

/-- The first entry that passes, and what stands around it. -/
theorem Tells.split (h : L.Tells (xs ++ m :: ys)) (pass : Message → Bool) (hm : pass m = true)
    (hxs : ∀ x ∈ xs, pass x = false) : ∃ es e fs, L.line = es ++ e :: fs ∧
      es.map Entry.message = xs ∧ e.message = m ∧ fs.map Entry.message = ys ∧
      L.line.find? (pass ·.message) = some e ∧ L.line.eraseP (pass ·.message) = es ++ fs := by
  obtain ⟨es, rest, hl, hes, hrest⟩ := List.map_eq_append_iff.mp h.line
  obtain ⟨e, fs, rfl, rfl, hfs⟩ := List.map_eq_cons_iff.mp hrest
  have hnot : ∀ f ∈ es, ¬ pass f.message = true := by
    intro f hf
    rw [hxs f.message (hes ▸ List.mem_map_of_mem hf)]
    exact Bool.false_ne_true
  refine ⟨es, e, fs, hl, hes, rfl, hfs, ?_, ?_⟩
  · rw [hl, List.find?_eq_some_iff_append]
    refine ⟨hm, es, fs, rfl, fun f hf => ?_⟩
    simpa using hnot f hf
  · rw [hl, List.eraseP_append_right _ hnot, List.eraseP_cons_of_pos (by exact hm)]

theorem Tells.leaveFirst (h : L.Tells (xs ++ m :: ys)) (why : Departure) {pass : Message → Bool}
    (hm : pass m = true) (hxs : ∀ x ∈ xs, pass x = false) :
    (L.leaveFirst why pass).Tells (xs ++ ys) := by
  obtain ⟨es, e, fs, hl, rfl, rfl, rfl, hfind, herase⟩ := h.split pass hm hxs
  rw [Ledger.leaveFirst, hfind, herase, ← List.map_append]
  refine h.leave why ?_ ?_
  · rw [hl]
    exact List.Sublist.append_left (List.sublist_cons_self e fs) es
  · rw [hl, Option.toList_some]
    have hlast : ([e] ++ (es ++ fs)).Perm (es ++ fs ++ [e]) := List.perm_append_comm
    exact List.perm_middle.trans hlast

/-! ### One turn -/

/-- Nothing of the kind that is taken first stands in front of it. -/
theorem notMem_of_mayRun (h : MayRun xs m) : m ∉ xs := by
  intro hm
  obtain ⟨hb, rfl | ⟨_, ha, hall⟩⟩ := h
  · simp at hm
  · rcases hall m hm with hb' | hs
    · rw [hb] at hb'
      cases hb'
    · rw [ha] at hs
      cases hs

theorem noteOperation_enqueue_of_ne {m : Message} {due : Time} (now : Time)
    (hv : (q.enqueue m due).value ≠ .ok true) : L.noteOperation q now (.enqueue m due) = L := by
  rw [noteOperation]
  split
  · rename_i heq
    exact absurd heq hv
  · rfl

theorem noteOperation_removeBarrier_of_ne {token : Token} (now : Time)
    (hv : (q.removeBarrier token).value ≠ .ok ()) :
    L.noteOperation q now (.removeBarrier token) = L := by
  rw [noteOperation]
  split
  · rename_i heq
    exact absurd heq hv
  · rfl

theorem noteOperation_quit_of_ne {now : Time} {safe : Bool}
    (hv : (q.quit now safe).value ≠ .ok ()) :
    L.noteOperation q now (.quit safe) = L := by
  rw [noteOperation]
  split
  · rename_i heq
    exact absurd heq hv
  · rfl

theorem Tells.link (h : L.Tells q.pending) (hw : q.WellFormed) (m : Message) :
    (L.accept m).Tells (q.link m).1.pending := by
  rw [Queue.link_pending hw.sound]
  exact h.accept m

theorem Tells.enqueue (h : L.Tells q.pending) (hw : q.WellFormed) (now : Time) (m : Message)
    (due : Time) :
    (L.noteOperation q now (.enqueue m due)).Tells (q.enqueue m due).state.pending := by
  rcases Queue.enqueue_cases q m due with ⟨hv, hs, _⟩ | ⟨hv, _, _, _, hs, _⟩
  · rw [noteOperation_enqueue_of_ne now hv, hs]
    exact h
  · simp only [noteOperation, hv, hs]
    exact h.link hw _

theorem Tells.postBarrier (h : L.Tells q.pending) (hw : q.WellFormed) (now due : Time) :
    (L.noteOperation q now (.postBarrier due)).Tells (q.postBarrier due).state.pending := by
  rcases Queue.postBarrier_cases q due with ⟨hv, _, hs, _⟩ | ⟨hv, _, hs, _⟩
  · simp only [noteOperation, hv, hs]
    exact h
  · have hw' : ({ q with nextToken := q.nextToken + 1 } : Queue).WellFormed := { hw with }
    have h' : L.Tells ({ q with nextToken := q.nextToken + 1 } : Queue).pending := h
    simp only [noteOperation, hv, hs]
    exact h'.link hw' _

theorem Tells.removeBarrier (h : L.Tells q.pending) (hw : q.WellFormed) (now : Time)
    (token : Token) :
    (L.noteOperation q now (.removeBarrier token)).Tells (q.removeBarrier token).state.pending := by
  rcases Queue.removeBarrier_cases hw.sound token with
    ⟨hv, hs, _⟩ | ⟨hv, xs, b, ys, arena, hp, hb, hxs, hs, _, hl, _⟩
  · rw [noteOperation_removeBarrier_of_ne now hv, hs]
    exact h
  · simp only [noteOperation, hv, hs]
    show (L.leaveFirst .removed _).Tells arena.toList
    rw [hl]
    rw [hp] at h
    exact h.leaveFirst .removed (by simpa using hb) fun x hx => by simpa using hxs x hx

theorem Tells.remove (h : L.Tells q.pending) (hw : q.WellFormed) (f : Filter) :
    (L.leaveAll .removed f.accepts).Tells (q.remove f).state.pending := by
  rw [Queue.pending_remove hw.sound]
  exact h.leaveAll .removed f.accepts

theorem Tells.quit (h : L.Tells q.pending) (hw : q.WellFormed) (now : Time) (safe : Bool) :
    (L.noteOperation q now (.quit safe)).Tells (q.quit now safe).state.pending := by
  rcases Queue.quit_cases hw.sound now safe with
    ⟨hs, _, ⟨_, hv⟩ | ⟨hq, hv⟩⟩ | ⟨hv, _, hq, _, arena, hs, _, hl⟩
  · rw [noteOperation_quit_of_ne hv, hs]
    exact h
  · simp only [noteOperation, hv, hq, if_true, hs]
    exact h
  · simp only [noteOperation, hv, hq, Bool.false_eq_true, if_false, hs]
    show (L.leaveAll .discarded _).Tells arena.toList
    have hkept : Queue.keptBy safe now q.pending =
        q.pending.filter fun m => !(!(safe && decide (m.due ≤ now))) := by
      cases safe with
      | true =>
        simp only [Queue.keptBy, if_true, Timeline.takeWhile_eq_due hw.orderly.ascending,
          Timeline.due, Bool.true_and, Bool.not_not]
      | false => simp [Queue.keptBy]
    rw [hl, hkept]
    exact h.leaveAll .discarded _

theorem Tells.discardAll (h : L.Tells ms) : (L.leaveAll .discarded fun _ => true).Tells [] := by
  have h' := h.leaveAll .discarded fun _ => true
  simpa using h'

theorem Tells.look (h : L.Tells q.pending) (hw : q.WellFormed) (now : Time) (settled : Bool) :
    (L.noteLook (q.scan now settled).value).Tells (q.scan now settled).state.pending := by
  rcases Queue.scan_cases hw.sound hw.orderly now settled with
    ⟨hd, he⟩ | ⟨_, xs, m, ys, arena, hp, hrun, _, he, _, hl⟩ | ⟨_, _, he⟩
  · have hempty := hw.empty_of_disposed hd
    simp only [he, noteLook, hempty]
    exact h.discardAll
  · simp only [he, noteLook]
    show (L.leaveFirst .returned _).Tells arena.toList
    rw [hl]
    rw [hp] at h
    refine h.leaveFirst .returned (by simp) fun x hx => ?_
    simp only [decide_eq_false_iff_not]
    rintro rfl
    exact notMem_of_mayRun hrun hx
  · rw [he]
    rcases Queue.sleepOrIdle_cases q now settled (Queue.timeoutAt now q.pending) with
      ⟨_, hs⟩ | ⟨_, _, _, _, hs⟩ | ⟨_, _, hs⟩
    · simp only [hs, noteLook]
      rcases Queue.dispose_cases q with ⟨hd, he⟩ | ⟨_, he⟩
      · rw [he, hw.empty_of_disposed hd]
        exact h.discardAll
      · rw [he]
        exact h.discardAll
    · rw [hs]
      exact h
    · rw [hs]
      exact h

/-- **A turn is noted as it happens.** -/
theorem Tells.note (h : L.Tells q.pending) (hw : q.WellFormed) (t : Turn) :
    (L.note q t).Tells (q.turn t).pending := by
  cases t with
  | operate now op =>
    cases op with
    | enqueue m due => exact h.enqueue hw now m due
    | postBarrier due => exact h.postBarrier hw now due
    | removeBarrier token => exact h.removeBarrier hw now token
    | remove f => exact h.remove hw f
    | addIdle i => exact h
    | removeIdle i => exact h
    | quit safe => exact h.quit hw now safe
  | look now settled => exact h.look hw now settled
  | idle i outcome => cases outcome <;> exact h
  | endPass => exact h

/-! ### A run -/

theorem Tells.noteAll (h : L.Tells q.pending) (hw : q.WellFormed) (ts : List Turn) :
    (L.noteAll q ts).Tells (q.turns ts).pending := by
  induction ts generalizing L q with
  | nil => exact h
  | cons t ts ih => exact ih (h.note hw t) (Queue.turn_wellFormed hw t)

theorem returned_leave (L : Ledger) (why : Departure) (kept gone : List Entry) :
    (L.leave why kept gone).returned = L.returned ++ if why = .returned then gone else [] := by
  show ((L.departed ++ gone.map (why, ·)).filter (·.1 = .returned)).map Prod.snd = _
  rw [List.filter_append, List.map_append, returned]
  congr 1
  by_cases hw : why = .returned
  · rw [if_pos hw, List.filter_eq_self.mpr (by simp [hw])]
    simp
  · rw [if_neg hw, List.filter_eq_nil_iff.mpr (by simp [hw]), List.map_nil]

/-- An operation is noted as nothing, as an acceptance, or as a departure other than a return. -/
theorem noteOperation_cases (L : Ledger) (q : Queue) (now : Time) (op : Operation) :
    L.noteOperation q now op = L ∨ (∃ m, L.noteOperation q now op = L.accept m) ∨
      ∃ why kept gone, why ≠ .returned ∧ L.noteOperation q now op = L.leave why kept gone := by
  cases op with
  | enqueue m due =>
    rw [noteOperation]
    split
    · exact Or.inr (Or.inl ⟨_, rfl⟩)
    · exact Or.inl rfl
  | postBarrier due =>
    rw [noteOperation]
    split
    · exact Or.inr (Or.inl ⟨_, rfl⟩)
    · exact Or.inl rfl
  | removeBarrier token =>
    rw [noteOperation]
    split
    · exact Or.inr (Or.inr ⟨.removed, _, _, nofun, rfl⟩)
    · exact Or.inl rfl
  | remove f => exact Or.inr (Or.inr ⟨.removed, _, _, nofun, rfl⟩)
  | addIdle i => exact Or.inl rfl
  | removeIdle i => exact Or.inl rfl
  | quit safe =>
    rw [noteOperation]
    split
    · split
      · exact Or.inl rfl
      · exact Or.inr (Or.inr ⟨.discarded, _, _, nofun, rfl⟩)
    · exact Or.inl rfl

theorem returned_noteOperation (L : Ledger) (q : Queue) (now : Time) (op : Operation) :
    (L.noteOperation q now op).returned = L.returned := by
  rcases noteOperation_cases L q now op with he | ⟨m, he⟩ | ⟨why, kept, gone, hwhy, he⟩
  · rw [he]
  · rw [he]
    rfl
  · rw [he, returned_leave, if_neg hwhy, List.append_nil]

/-- **What a turn hands to the consumer is noted as returned**, from where it stood in line. -/
theorem Tells.returned_note (h : L.Tells q.pending) (hw : q.WellFormed) (t : Turn) :
    ∃ es, (L.note q t).returned = L.returned ++ es ∧ es.map Entry.message = q.handed t ∧
      ∀ e ∈ es, ∃ before after, L.line = before ++ e :: after ∧
        MayRun (before.map Entry.message) e.message := by
  have hnone : L.returned = L.returned ++ [] := (List.append_nil _).symm
  cases t with
  | operate now op => exact ⟨[], (returned_noteOperation L q now op).trans hnone, rfl, by simp⟩
  | look now settled =>
    rw [Ledger.note, Queue.handed]
    cases hv : (q.scan now settled).value with
    | returned taken =>
      cases taken with
      | none =>
        refine ⟨[], ?_, rfl, by simp⟩
        rw [noteLook, Ledger.leaveAll, returned_leave, if_neg nofun]
      | some m =>
        obtain ⟨xs, ys, ht⟩ := hw.scan_took hv
        rw [ht.pending] at h
        have hxs : ∀ x ∈ xs, decide (x = m) = false := by
          intro x hx
          rw [decide_eq_false_iff_not]
          rintro rfl
          exact notMem_of_mayRun ht.mayRun hx
        obtain ⟨before, e, after, hl, hbefore, he, _, hfind, _⟩ := h.split (· = m) (by simp) hxs
        refine ⟨[e], ?_, by rw [List.map_singleton, he], fun f hf => ?_⟩
        · rw [noteLook, Ledger.leaveFirst, returned_leave, if_pos rfl, hfind]
          rfl
        · rw [List.mem_singleton.mp hf]
          exact ⟨before, after, hl, by rw [hbefore, he]; exact ht.mayRun⟩
    | parking timeout settled => exact ⟨[], hnone, rfl, by simp⟩
    | awake settled => exact ⟨[], hnone, rfl, by simp⟩
    | idle batch => exact ⟨[], hnone, rfl, by simp⟩
  | idle i outcome => exact ⟨[], hnone, rfl, by simp⟩
  | endPass => exact ⟨[], hnone, rfl, by simp⟩

theorem Tells.returned_noteAll (h : L.Tells q.pending) (hw : q.WellFormed) (ts : List Turn) :
    ∃ es, (L.noteAll q ts).returned = L.returned ++ es ∧
      es.map Entry.message = q.handedOver ts := by
  induction ts generalizing L q with
  | nil => exact ⟨[], (List.append_nil _).symm, rfl⟩
  | cons t ts ih =>
    obtain ⟨es, hes, hm, _⟩ := h.returned_note hw t
    obtain ⟨fs, hfs, hn⟩ := ih (h.note hw t) (Queue.turn_wellFormed hw t)
    refine ⟨es ++ fs, ?_, ?_⟩
    · rw [Ledger.noteAll, hfs, hes, List.append_assoc]
    · rw [List.map_append, hm, hn, Queue.handedOver]

/-! ### What was accepted -/

theorem accepted_noteLook (L : Ledger) (c : Call) : (L.noteLook c).accepted = L.accepted := by
  cases c with
  | returned taken => cases taken <;> rfl
  | parking timeout settled => rfl
  | awake settled => rfl
  | idle batch => rfl

/-- Nothing that was taken is forgotten. -/
theorem accepted_note (L : Ledger) (q : Queue) (t : Turn) :
    ∃ new, (L.note q t).accepted = L.accepted ++ new := by
  have hnone : L.accepted = L.accepted ++ [] := (List.append_nil _).symm
  cases t with
  | operate now op =>
    rw [note]
    rcases noteOperation_cases L q now op with he | ⟨m, he⟩ | ⟨why, kept, gone, _, he⟩
    · exact ⟨[], by rw [he, List.append_nil]⟩
    · exact ⟨[⟨L.accepted.length, m⟩], by rw [he, accept]⟩
    · exact ⟨[], by rw [he, List.append_nil, leave]⟩
  | look now settled => exact ⟨[], (accepted_noteLook L _).trans hnone⟩
  | idle i outcome => exact ⟨[], hnone⟩
  | endPass => exact ⟨[], hnone⟩

theorem accepted_noteAll (L : Ledger) (q : Queue) (ts : List Turn) :
    ∃ new, (L.noteAll q ts).accepted = L.accepted ++ new := by
  induction ts generalizing L q with
  | nil => exact ⟨[], (List.append_nil _).symm⟩
  | cons t ts ih =>
    obtain ⟨new, hn⟩ := accepted_note L q t
    obtain ⟨new', hn'⟩ := ih (L.note q t) (q.turn t)
    exact ⟨new ++ new', by rw [Ledger.noteAll, hn', hn, List.append_assoc]⟩

theorem Tells.mem_accepted_of_returned (h : L.Tells ms) {e : Entry} (he : e ∈ L.returned) :
    e ∈ L.accepted := by
  obtain ⟨d, hd, rfl⟩ := List.mem_map.mp he
  exact h.balance.mem_iff.mpr
    (List.mem_append_right _ (List.mem_map_of_mem (List.mem_filter.mp hd).1))

theorem Tells.length_le_serial {new : List Entry} {M : Ledger} {ns : List Message} (h : L.Tells ms)
    (hM : M.Tells ns) (hnew : M.accepted = L.accepted ++ new) {e : Entry} (he : e ∈ M.accepted)
    (hne : e ∉ L.accepted) : L.accepted.length ≤ e.serial := by
  have hserials := hM.serials
  rw [hnew, List.map_append, List.length_append, List.range_add, h.serials] at hserials
  have hmem : e.serial ∈ new.map Entry.serial := by
    rw [hnew] at he
    exact List.mem_map_of_mem ((List.mem_append.mp he).resolve_left hne)
  rw [List.append_cancel_left hserials] at hmem
  obtain ⟨k, _, hk⟩ := List.mem_map.mp hmem
  omega

/-! ### What has departed -/

theorem departed_noteLook (L : Ledger) (c : Call) :
    ∃ gone, (L.noteLook c).departed = L.departed ++ gone := by
  have hnone : L.departed = L.departed ++ [] := (List.append_nil _).symm
  cases c with
  | returned taken => cases taken <;> exact ⟨_, rfl⟩
  | parking timeout settled => exact ⟨[], hnone⟩
  | awake settled => exact ⟨[], hnone⟩
  | idle batch => exact ⟨[], hnone⟩

theorem departed_note (L : Ledger) (q : Queue) (t : Turn) :
    ∃ gone, (L.note q t).departed = L.departed ++ gone := by
  have hnone : L.departed = L.departed ++ [] := (List.append_nil _).symm
  cases t with
  | operate now op =>
    rw [note]
    rcases noteOperation_cases L q now op with he | ⟨m, he⟩ | ⟨why, kept, gone, _, he⟩
    · exact ⟨[], by rw [he, List.append_nil]⟩
    · exact ⟨[], by rw [he, List.append_nil, accept]⟩
    · exact ⟨gone.map (why, ·), by rw [he, leave]⟩
  | look now settled => exact departed_noteLook L _
  | idle i outcome => exact ⟨[], hnone⟩
  | endPass => exact ⟨[], hnone⟩

theorem departed_noteAll (L : Ledger) (q : Queue) (ts : List Turn) :
    ∃ gone, (L.noteAll q ts).departed = L.departed ++ gone := by
  induction ts generalizing L q with
  | nil => exact ⟨[], (List.append_nil _).symm⟩
  | cons t ts ih =>
    obtain ⟨gone, hg⟩ := departed_note L q t
    obtain ⟨gone', hg'⟩ := ih (L.note q t) (q.turn t)
    exact ⟨gone ++ gone', by rw [Ledger.noteAll, hg', hg, List.append_assoc]⟩

theorem noteAll_append (L : Ledger) (q : Queue) (ts us : List Turn) :
    L.noteAll q (ts ++ us) = (L.noteAll q ts).noteAll (q.turns ts) us := by
  induction ts generalizing L q with
  | nil => rfl
  | cons t ts ih => exact ih (L.note q t) (q.turn t)

theorem mem_departed_leave {e : Entry} {why why' : Departure} {kept gone : List Entry} :
    (why, e) ∈ (L.leave why' kept gone).departed ↔
      (why, e) ∈ L.departed ∨ why = why' ∧ e ∈ gone := by
  rw [leave, List.mem_append, List.mem_map]
  constructor
  · rintro (h | ⟨f, hf, he⟩)
    · exact Or.inl h
    · cases he
      exact Or.inr ⟨rfl, hf⟩
  · rintro (h | ⟨rfl, he⟩)
    · exact Or.inl h
    · exact Or.inr ⟨e, he, rfl⟩

/-- **Only the first quit and the end of a queue discard.** -/
theorem discarded_note {t : Turn} {e : Entry} (h : (.discarded, e) ∈ (L.note q t).departed) :
    (.discarded, e) ∈ L.departed ∨
    (∃ now safe, t = .operate now (.quit safe) ∧ q.quitting = false) ∨
    ∃ now settled, t = .look now settled ∧ (q.scan now settled).value = .returned none := by
  cases t with
  | operate now op =>
    rw [note] at h
    cases op with
    | enqueue m due =>
      rw [noteOperation] at h
      split at h <;> exact Or.inl h
    | postBarrier due =>
      rw [noteOperation] at h
      split at h <;> exact Or.inl h
    | removeBarrier token =>
      rw [noteOperation] at h
      split at h
      · exact Or.inl ((mem_departed_leave.mp h).resolve_right (by simp))
      · exact Or.inl h
    | remove f => exact Or.inl ((mem_departed_leave.mp h).resolve_right (by simp))
    | addIdle i => exact Or.inl h
    | removeIdle i => exact Or.inl h
    | quit safe =>
      rw [noteOperation] at h
      split at h
      · split at h
        · exact Or.inl h
        · exact Or.inr (Or.inl ⟨now, safe, rfl, by simpa using ‹¬ q.quitting = true›⟩)
      · exact Or.inl h
  | look now settled =>
    rw [note] at h
    cases hv : (q.scan now settled).value with
    | returned taken =>
      rw [hv] at h
      cases taken with
      | none => exact Or.inr (Or.inr ⟨now, settled, rfl, hv⟩)
      | some m => exact Or.inl ((mem_departed_leave.mp h).resolve_right (by simp))
    | parking timeout settled' =>
      rw [hv] at h
      exact Or.inl h
    | awake settled' =>
      rw [hv] at h
      exact Or.inl h
    | idle batch =>
      rw [hv] at h
      exact Or.inl h
  | idle i outcome => exact Or.inl h
  | endPass => exact Or.inl h

theorem mem_returned {e : Entry} : e ∈ L.returned ↔ (Departure.returned, e) ∈ L.departed := by
  simp [returned]

theorem Tells.nodup_serials (h : L.Tells ms) : (L.accepted.map Entry.serial).Nodup := by
  rw [h.serials]
  exact List.nodup_range

theorem Tells.eq_of_serial (h : L.Tells ms) {e f : Entry} (he : e ∈ L.accepted)
    (hf : f ∈ L.accepted) (hs : e.serial = f.serial) : e = f :=
  List.inj_on_of_nodup_map h.nodup_serials he hf hs

theorem Tells.nodup_accepted (h : L.Tells ms) : L.accepted.Nodup :=
  h.nodup_serials.of_map

/-- **An entry is in line or has departed, and departs once.** -/
theorem Tells.nodup (h : L.Tells ms) : (L.line ++ L.departed.map Prod.snd).Nodup :=
  h.balance.nodup_iff.mp h.nodup_accepted

theorem Tells.departed_once (h : L.Tells ms) {e : Entry} {why why' : Departure}
    (hd : (why, e) ∈ L.departed) (hd' : (why', e) ∈ L.departed) : why = why' := by
  have hnodup := (List.nodup_append.mp h.nodup).2.1
  exact congrArg Prod.fst (List.inj_on_of_nodup_map hnodup hd hd' rfl)

theorem Tells.notMem_departed (h : L.Tells ms) {e : Entry} (he : e ∈ L.line) (why : Departure) :
    (why, e) ∉ L.departed := by
  intro hd
  exact (List.nodup_append.mp h.nodup).2.2 e he e (List.mem_map_of_mem hd) rfl

theorem Tells.nodup_returned (h : L.Tells ms) : L.returned.Nodup := by
  have hsub : L.returned.Sublist (L.departed.map Prod.snd) := List.filter_sublist.map Prod.snd
  exact hsub.nodup (List.nodup_append.mp h.nodup).2.1

end Ledger

namespace Queue

/-- The chain of a sound arena leads through what is pending, to its end. -/
theorem exists_path {q : Queue} (h : q.arena.Sound) : ∃ ids, q.arena.Path q.arena.head ids none ∧
    ids.Nodup ∧ ids.map q.arena.get = q.pending := by
  obtain ⟨cells, h⟩ := h
  refine ⟨cells.map Prod.fst, h.path, by simpa using h.nodup, ?_⟩
  rw [← h.order_eq]
  rfl

/-- **The chain of a queue is the line of its ledger.**  After any run from a fresh queue the links
lead from the head through the entries that were taken and have not been returned, removed or
discarded since, each once and with its content, in the order of `Entry.Before`; and what the ledger
says was returned is what the consumer was handed. -/
theorem chain_refines_line (quittable : Bool) (ts : List Turn) :
    let q := ({ quittable } : Queue).turns ts
    let L := Ledger.noteAll {} { quittable } ts
    (∃ ids, q.arena.Path q.arena.head ids none ∧ ids.Nodup ∧
      ids.map q.arena.get = L.line.map Entry.message) ∧
    q.pending = L.line.map Entry.message ∧ L.line.Pairwise Entry.Before ∧
    L.accepted.map Entry.serial = List.range L.accepted.length ∧
    L.accepted.Perm (L.line ++ L.departed.map Prod.snd) ∧
    L.returned.map Entry.message = ({ quittable } : Queue).handedOver ts := by
  have hw := wellFormed_fresh quittable
  have h := Ledger.tells_empty.noteAll hw ts
  obtain ⟨es, hes, hm⟩ := Ledger.tells_empty.returned_noteAll hw ts
  refine ⟨?_, h.line.symm, h.ordered, h.serials, h.balance, ?_⟩
  · rw [h.line]
    exact exists_path (turns_wellFormed hw ts).sound
  · rw [hes, ← hm]
    rfl

/-- Two entries for the front, a removal, a quit and a slot that is used again. -/
theorem chain_refines_line_of_six :
    let news : Message := { target := some ⟨0, "news"⟩ }
    let ts : List Turn := [.operate 0 (.enqueue news 7), .operate 0 (.postBarrier 7),
      .operate 0 (.enqueue { news with what := 1 } 7), .operate 0 (.enqueue news 0),
      .operate 0 (.enqueue { news with async := true } 0), .look 9 false,
      .operate 9 (.remove { target := ⟨0, "news"⟩, selector := .what 1 }),
      .operate 9 (.enqueue news 12), .operate 9 (.quit true)]
    let q := ({} : Queue).turns ts
    let L := Ledger.noteAll {} {} ts
    let first : Entry := ⟨0, { news with due := 7, inUse := true }⟩
    let barrier : Entry := ⟨1, .barrier 0 7⟩
    let third : Entry := ⟨2, { news with what := 1, due := 7, inUse := true }⟩
    let fourth : Entry := ⟨3, { news with inUse := true }⟩
    let fifth : Entry := ⟨4, { news with async := true, inUse := true }⟩
    let sixth : Entry := ⟨5, { news with due := 12, inUse := true }⟩
    L.accepted = [first, barrier, third, fourth, fifth, sixth] ∧
      L.line = [fourth, first, barrier] ∧
      L.departed = [(.returned, fifth), (.removed, third), (.discarded, sixth)] ∧
      q.pending = [fourth.message, first.message, barrier.message] ∧
      ({} : Queue).handedOver ts = [fifth.message] ∧
      ∃ ids, q.arena.Path q.arena.head ids none ∧
        ids.map q.arena.get = [fourth.message, first.message, barrier.message] := by
  intro news ts q L first barrier third fourth fifth sixth
  have haccepted : L.accepted = [first, barrier, third, fourth, fifth, sixth] := by
    decide +kernel
  have hline : L.line = [fourth, first, barrier] := by decide +kernel
  have hdeparted : L.departed = [(.returned, fifth), (.removed, third), (.discarded, sixth)] := by
    decide +kernel
  obtain ⟨⟨ids, hpath, _, hget⟩, hpending, _, _, _, hreturned⟩ := chain_refines_line true ts
  have hone : L.returned = [fifth] := by
    rw [Ledger.returned, hdeparted]
    decide
  rw [hline] at hget hpending
  rw [hone] at hreturned
  -- the run is named before its chain is compared, or it is evaluated
  have hq : q = ({} : Queue).turns ts := rfl
  rw [← hq] at hpath
  exact ⟨haccepted, hline, hdeparted, hpending, hreturned.symm, ids, hpath, hget⟩

end Queue

end Agenda
