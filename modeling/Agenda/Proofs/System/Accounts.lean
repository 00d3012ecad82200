import Agenda.Proofs.System.Course
import Mathlib.Algebra.GroupWithZero.Nat

/-!
# The accounts of a course

What became of the messages that were sent, told from the answers that were given.  Barriers come
and go as messages do and are left out of the accounts.

`Ledger.sent` and `Ledger.gone` are read off the ledger, and together they balance
(`Tells.sent_perm`).  `Operation.sent?` and `Operation.removed?` are read off the answers to the
operations of a course, which `answered` collects.  `ledger_sent` and `ledger_removed` say that both
come to the same.
-/

namespace Agenda

/-- The message that an operation has put in line, by its answer. -/
def Operation.sent? : Operation × Operation.Result → Option Message
  | (.enqueue m due, .sent (.ok true)) => some { m with inUse := true, due }
  | _ => none

/-- The number of messages that an operation has removed, by its answer. -/
def Operation.removed? : Operation × Operation.Result → Option Nat
  | (.remove _, .removed n) => some n
  | _ => none

namespace Ledger

variable {L : Ledger} {q : Queue} {ms : List Message}

/-- The messages that were taken. -/
def sent (L : Ledger) : List Entry :=
  L.accepted.filter (!·.message.isBarrier)

/-- The messages that have left the line in this way. -/
def gone (L : Ledger) (why : Departure) : List Entry :=
  ((L.departed.filter (·.1 = why)).map Prod.snd).filter (!·.message.isBarrier)

theorem gone_returned (h : ∀ e ∈ L.returned, e.message.isBarrier = false) :
    L.gone .returned = L.returned :=
  List.filter_eq_self.mpr fun e he => by simp [h e he]

theorem gone_leave (L : Ledger) (why why' : Departure) (kept es : List Entry) :
    (L.leave why' kept es).gone why =
      L.gone why ++ if why' = why then es.filter (!·.message.isBarrier) else [] := by
  simp only [gone, leave, List.filter_append, List.map_append]
  congr 1
  by_cases h : why' = why
  · have hall : (es.map (why', ·)).filter (·.1 = why) = es.map (why', ·) :=
      List.filter_eq_self.mpr (by simp [h])
    rw [if_pos h, hall, List.map_map]
    exact congrArg _ (List.map_id es)
  · rw [if_neg h, List.filter_eq_nil_iff.mpr (by simp [h])]

theorem departed_perm (ds : List (Departure × Entry)) :
    (ds.map Prod.snd).Perm ((ds.filter (·.1 = .returned)).map Prod.snd ++
      ((ds.filter (·.1 = .removed)).map Prod.snd ++
        (ds.filter (·.1 = .discarded)).map Prod.snd)) := by
  induction ds with
  | nil => exact .refl _
  | cons d ds ih =>
    obtain ⟨why, e⟩ := d
    cases why with
    | returned => simpa using ih
    | removed =>
      simp only [List.map_cons, List.filter_cons, reduceCtorEq, decide_false, decide_true, if_true,
        Bool.false_eq_true, if_false, List.cons_append]
      exact (ih.cons e).trans List.perm_middle.symm
    | discarded =>
      simp only [List.map_cons, List.filter_cons, reduceCtorEq, decide_false, decide_true, if_true,
        Bool.false_eq_true, if_false, ← List.append_assoc]
      exact ((List.append_assoc .. ▸ ih).cons e).trans List.perm_middle.symm

/-- **A message is in line, or was returned, removed or discarded.** -/
theorem Tells.sent_perm (h : L.Tells ms) :
    L.sent.Perm (L.line.filter (!·.message.isBarrier) ++
      (L.gone .returned ++ (L.gone .removed ++ L.gone .discarded))) := by
  have hall := h.balance.trans ((departed_perm L.departed).append_left L.line)
  simpa only [sent, gone, List.filter_append] using hall.filter (!·.message.isBarrier)

/-! ### One operation -/

theorem sent_accept (m : Message) :
    (L.accept m).sent.map Entry.message =
      L.sent.map Entry.message ++ if m.isBarrier then [] else [m] := by
  simp only [sent, accept, List.filter_append, List.map_append]
  cases hm : m.isBarrier <;> simp [hm]

/-- **What an operation puts in line** is told by its answer. -/
theorem sent_noteOperation (L : Ledger) (q : Queue) (now : Time) (op : Operation) :
    (L.noteOperation q now op).sent.map Entry.message =
      L.sent.map Entry.message ++ (Operation.sent? (op, (q.perform now op).value)).toList := by
  have hnone : L.sent.map Entry.message = L.sent.map Entry.message ++ [] := (List.append_nil _).symm
  cases op with
  | enqueue m due =>
    rcases Queue.enqueue_cases q m due with ⟨hv, _⟩ | ⟨hv, hmessage, _⟩
    · have hsent : Operation.sent? (.enqueue m due, .sent (q.enqueue m due).value) = none := by
        cases hans : (q.enqueue m due).value with
        | error r => rfl
        | ok b =>
          cases b with
          | false => rfl
          | true => exact absurd hans hv
      show _ = _ ++ (Operation.sent? (.enqueue m due, .sent (q.enqueue m due).value)).toList
      rw [noteOperation_enqueue_of_ne now hv, hsent]
      exact hnone
    · show _ = _ ++ (Operation.sent? (.enqueue m due, .sent (q.enqueue m due).value)).toList
      have hnew : ({ m with inUse := true, due } : Message).isBarrier = false := hmessage
      simp only [noteOperation, hv, sent_accept, hnew]
      rfl
  | postBarrier due =>
    rw [noteOperation]
    split
    · exact (sent_accept _).trans rfl
    · exact hnone
  | removeBarrier token =>
    rw [noteOperation]
    split <;> exact hnone
  | remove f => exact hnone
  | addIdle i => exact hnone
  | removeIdle i => exact hnone
  | quit safe =>
    rw [noteOperation]
    split
    · split <;> exact hnone
    · exact hnone

/-- **What an operation removes** is counted by its answer. -/
theorem Tells.removed_noteOperation (h : L.Tells q.pending) (hw : q.WellFormed) (now : Time)
    (op : Operation) : ((L.noteOperation q now op).gone .removed).length =
      (L.gone .removed).length + (Operation.removed? (op, (q.perform now op).value)).getD 0 := by
  cases op with
  | enqueue m due =>
    rw [noteOperation]
    split <;> rfl
  | postBarrier due =>
    rw [noteOperation]
    split <;> rfl
  | removeBarrier token =>
    rw [noteOperation]
    split
    · -- what has a token is a barrier
      rw [Ledger.leaveFirst, gone_leave, if_pos rfl, List.filter_eq_nil_iff.mpr, List.append_nil]
      · rfl
      · intro e he
        have hpass := List.find?_some (Option.mem_toList.mp he)
        simp only [Message.token?] at hpass
        split at hpass
        · simp [*]
        · cases hpass
    · rfl
  | remove f =>
    show _ = _ + (q.remove f).value
    rw [noteOperation, Ledger.leaveAll, gone_leave, if_pos rfl, List.length_append,
      Queue.remove_value hw.sound, ← h.line, List.countP_map, List.countP_eq_length_filter,
      List.filter_filter]
    congr 2
    refine List.filter_congr fun e _ => ?_
    -- a filter takes no barrier
    simp only [Function.comp, Filter.accepts, Message.isBarrier]
    cases e.message.target <;> simp
  | addIdle i => rfl
  | removeIdle i => rfl
  | quit safe =>
    rw [noteOperation]
    split
    · split
      · rfl
      · rw [Ledger.leaveAll, gone_leave, if_neg (by decide), List.append_nil]
        rfl
    · rfl

theorem removed_noteLook (L : Ledger) (c : Call) :
    (L.noteLook c).gone .removed = L.gone .removed := by
  cases c with
  | returned taken =>
    cases taken <;> exact (gone_leave ..).trans (by rw [if_neg (by decide), List.append_nil])
  | parking timeout settled => rfl
  | awake settled => rfl
  | idle batch => rfl

end Ledger

/-! ### A course of events -/

namespace System

variable {s t : System} {a : Action} {as : List Action} {L : Ledger}

/-- The answer that is given in an action to whoever does an operation. -/
def answer (s : System) (a : Action) (_ : System) : List (Operation × Operation.Result) :=
  match a with
  | .operate op => [(op, (s.queue.perform s.now op).value)]
  | _ => []

/-- The operations of a course of events, with their answers. -/
def answered (s : System) (as : List Action) : List (Operation × Operation.Result) :=
  gather step? answer s as

theorem Step.sent (h : s.Step a t) :
    (L.noteAll s.queue (s.turnOf a t)).sent.map Entry.message =
      L.sent.map Entry.message ++ (s.answer a t).filterMap Operation.sent? := by
  have hnone : L.sent.map Entry.message = L.sent.map Entry.message ++ [] := (List.append_nil _).symm
  cases h with
  | operate op =>
    refine (L.sent_noteOperation s.queue s.now op).trans ?_
    simp only [answer, List.filterMap_cons, List.filterMap_nil]
    cases Operation.sent? (op, (s.queue.perform s.now op).value) <;> rfl
  | tick h => exact hnone
  | call h => exact hnone
  | wake h => exact hnone
  | @look settled h =>
    simp only [turnOf, h]
    have hsame := Ledger.accepted_noteLook L (s.queue.scan s.now settled).value
    show ((L.noteLook _).accepted.filter _).map _ = _
    rw [hsame]
    exact hnone
  | idle outcome h =>
    simp only [turnOf, h]
    exact hnone
  | endPass h =>
    simp only [turnOf, h]
    exact hnone

theorem Step.removed (h : s.Step a t) (hL : L.Tells s.queue.pending) (hw : s.queue.WellFormed) :
    ((L.noteAll s.queue (s.turnOf a t)).gone .removed).length =
      (L.gone .removed).length + ((s.answer a t).filterMap Operation.removed?).sum := by
  cases h with
  | operate op =>
    refine (hL.removed_noteOperation hw s.now op).trans ?_
    simp only [answer, List.filterMap_cons, List.filterMap_nil]
    cases Operation.removed? (op, (s.queue.perform s.now op).value) <;> rfl
  | tick h => rfl
  | call h => rfl
  | wake h => rfl
  | @look settled h =>
    simp only [turnOf, h]
    exact congrArg List.length (Ledger.removed_noteLook L _)
  | idle outcome h =>
    simp only [turnOf, h]
    rfl
  | endPass h =>
    simp only [turnOf, h]
    rfl

theorem Leads.sent (h : Leads s as t) : (s.ledger as).sent.map Entry.message =
    (s.answered as).filterMap Operation.sent? := by
  induction h with
  | refl => rfl
  | tail prior hstep ih =>
    rw [ledger_tail prior hstep, (step?_eq_some.mp hstep).sent, ih, answered, answered,
      gather_concat answer (leads_iff.mp prior) hstep, List.filterMap_append]

theorem Leads.removed {quittable : Bool} {now : Time} (h : Leads (initial quittable now) as t) :
    (((initial quittable now).ledger as).gone .removed).length =
      (((initial quittable now).answered as).filterMap Operation.removed?).sum := by
  induction h with
  | refl => rfl
  | tail prior hstep ih =>
    rw [ledger_tail prior hstep, (step?_eq_some.mp hstep).removed prior.tells
      (prior.wellFormed (Queue.wellFormed_fresh quittable)), ih, answered, answered,
      gather_concat answer (leads_iff.mp prior) hstep, List.filterMap_append, List.sum_append]

end System

end Agenda
