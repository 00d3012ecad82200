import Agenda.Dump
import Agenda.Proofs.Queue.Discarding
import Agenda.Proofs.Queue.Tokens

/-!
# What a dump shows

A dump goes along the chain and shows each entry where it stands.  The time until an entry is due is
a difference of two 64-bit readings, which 64 bits with a sign do not always hold; it is taken
exactly and then cut at the bounds (`toInt_clampInt64`), so neither its order nor its sign is lost
(`Summary.describe_shows`, `pairwise_dueIn`).

That a barrier shows its token rests on the run: whatever is pending without a target was posted,
and is the barrier of that post (`exists_post`).
-/

namespace Agenda

/-! ### Cutting a number at 64 bits -/

theorem toInt_clampInt64 (n : Int) :
    (clampInt64 n).toInt = max (-9223372036854775808) (min 9223372036854775807 n) := by
  rw [clampInt64, Int64.toInt_ofInt_of_le]
  · omega
  · omega

theorem clampInt64_le_clampInt64 {m n : Int} (h : m ≤ n) : clampInt64 m ≤ clampInt64 n := by
  rw [Int64.le_iff_toInt_le, toInt_clampInt64, toInt_clampInt64]
  omega

theorem clampInt64_nonpos_iff {n : Int} : clampInt64 n ≤ 0 ↔ n ≤ 0 := by
  rw [Int64.le_iff_toInt_le, toInt_clampInt64, Int64.toInt_zero]
  omega

/-! ### One entry -/

/-- The time from `now` until a message is due, which is negative when it is overdue. -/
def Message.wait (m : Message) (now : Time) : Int :=
  m.due.toNat - now.toNat

theorem Message.wait_nonpos_iff {m : Message} {now : Time} : m.wait now ≤ 0 ↔ m.due ≤ now := by
  rw [wait, UInt64.le_iff_toNat_le]
  omega

/-- The summary is that of the entry `m` at position `i`, at clock reading `now`. -/
structure Summary.Shows (s : Summary) (i : Nat) (m : Message) (now : Time) : Prop where
  index : s.index = UInt64.ofNat i
  /-- The time until `m` is due is exact if it fits. -/
  exact : Int64.minValue.toInt ≤ m.wait now → m.wait now ≤ Int64.maxValue.toInt →
    s.dueIn.toInt = m.wait now
  below : m.wait now < Int64.minValue.toInt → s.dueIn = Int64.minValue
  above : Int64.maxValue.toInt < m.wait now → s.dueIn = Int64.maxValue
  due : s.dueIn ≤ 0 ↔ m.due ≤ now
  content : s.what = m.what ∧ s.arg1 = m.arg1 ∧ s.arg2 = m.arg2 ∧
    s.target = m.target.map Target.name ∧ s.async = m.async ∧
    (s.callback = true ↔ m.callback ≠ none)
  barrier : s.barrier = true ↔ m.target = none

theorem Summary.describe_shows (i : Nat) (m : Message) (now : Time) :
    (describe i m now).Shows i m now := by
  have hdue : (describe i m now).dueIn = clampInt64 (m.wait now) := rfl
  have hmin : Int64.minValue.toInt = -9223372036854775808 := rfl
  have hmax : Int64.maxValue.toInt = 9223372036854775807 := rfl
  refine ⟨rfl, fun hlo hhi => ?_, fun hlo => ?_, fun hhi => ?_, ?_,
    ⟨rfl, rfl, rfl, rfl, rfl, ?_⟩, ?_⟩
  · rw [hdue, toInt_clampInt64]
    omega
  · rw [hdue, ← Int64.toInt_inj, toInt_clampInt64]
    omega
  · rw [hdue, ← Int64.toInt_inj, toInt_clampInt64]
    omega
  · rw [hdue, clampInt64_nonpos_iff, Message.wait_nonpos_iff]
  · exact Option.isSome_iff_ne_none
  · exact Option.isNone_iff_eq_none

-- the last time on the timeline is far ahead of the first, and not just behind it
example : (Summary.describe 0 { due := lastTime } 0).dueIn = Int64.maxValue := by decide

/-! ### Barriers -/

namespace Ledger

variable {L : Ledger} {q : Queue} {e : Entry}

/-- What is noted in a turn is no barrier, or the barrier that was posted in it. -/
theorem barrier_note {t : Turn} (he : e ∈ (L.note q t).accepted) (hb : e.message.isBarrier = true) :
    e ∈ L.accepted ∨ ∃ token ∈ q.postedIn t, e.message = .barrier token e.message.due := by
  have haccept : ∀ m, e ∈ (L.accept m).accepted → e ∈ L.accepted ∨ e.message = m := by
    intro m he
    rcases List.mem_append.mp he with he | he
    · exact Or.inl he
    · rw [List.mem_singleton.mp he]
      exact Or.inr rfl
  cases t with
  | operate now op =>
    replace he : e ∈ (L.noteOperation q now op).accepted := he
    cases op with
    | enqueue m due =>
      rcases Queue.enqueue_cases q m due with ⟨hv, _⟩ | ⟨hv, hm, _⟩
      · rw [noteOperation_enqueue_of_ne now hv] at he
        exact Or.inl he
      · simp only [noteOperation, hv] at he
        refine (haccept _ he).imp_right fun heq => ?_
        rw [heq] at hb
        exact absurd (hm.symm.trans hb) Bool.false_ne_true
    | postBarrier due =>
      simp only [noteOperation] at he
      show _ ∨ ∃ token ∈ (q.postBarrier due).value.toList, _
      cases hv : (q.postBarrier due).value with
      | none =>
        rw [hv] at he
        exact Or.inl he
      | some token =>
        rw [hv] at he
        refine (haccept _ he).imp_right fun heq => ⟨token, by simp, ?_⟩
        rw [heq]
        rfl
    | removeBarrier token =>
      rw [noteOperation] at he
      split at he <;> exact Or.inl he
    | remove f => exact Or.inl he
    | addIdle i => exact Or.inl he
    | removeIdle i => exact Or.inl he
    | quit safe =>
      rw [noteOperation] at he
      split at he
      · split at he <;> exact Or.inl he
      · exact Or.inl he
  | look now settled =>
    rw [note, accepted_noteLook] at he
    exact Or.inl he
  | idle i outcome => exact Or.inl he
  | endPass => exact Or.inl he

theorem barrier_noteAll {ts : List Turn} (he : e ∈ (L.noteAll q ts).accepted)
    (hb : e.message.isBarrier = true) :
    e ∈ L.accepted ∨ ∃ token ∈ q.posted ts, e.message = .barrier token e.message.due := by
  induction ts generalizing L q with
  | nil => exact Or.inl he
  | cons t ts ih =>
    rw [Queue.posted]
    rcases ih he with he | ⟨token, hmem, heq⟩
    · rcases barrier_note he hb with he | ⟨token, hmem, heq⟩
      · exact Or.inl he
      · exact Or.inr ⟨token, List.mem_append_left _ hmem, heq⟩
    · exact Or.inr ⟨token, List.mem_append_right _ hmem, heq⟩

end Ledger

namespace Queue

variable {quittable : Bool} {ts : List Turn} {m : Message}

/-- **What is pending without a target is the barrier of some post.** -/
theorem exists_post (hm : m ∈ (({ quittable } : Queue).turns ts).pending)
    (hb : m.isBarrier = true) :
    ∃ token ∈ ({ quittable } : Queue).posted ts, m = .barrier token m.due := by
  have hL := Ledger.tells_empty.noteAll (wellFormed_fresh quittable) ts
  rw [← hL.line] at hm
  obtain ⟨e, he, rfl⟩ := List.mem_map.mp hm
  exact (Ledger.barrier_noteAll (hL.mem_accepted he) hb).resolve_left (by simp)

theorem removeBarrier_of_mem {q : Queue} {token : Token} (h : q.arena.Sound) (hm : m ∈ q.pending)
    (htoken : m.token? = some token) : (q.removeBarrier token).value = .ok () := by
  rcases removeBarrier_cases h token with ⟨_, _, _, hnone⟩ | ⟨hv, _⟩
  · exact absurd htoken (hnone m hm)
  · exact hv

/-! ### The list -/

theorem getElem?_messages_dump (q : Queue) (now : Time) (parked : Bool) (i : Nat) :
    (q.dump now parked).messages[i]? = (q.pending[i]?).map (.describe i · now) := by
  simp only [dump, List.getElem?_map, List.getElem?_zipIdx, Option.map_map, Nat.zero_add]
  rfl

/-- What stands behind is due no sooner, and shown so. -/
theorem pairwise_dueIn {q : Queue} (h : q.WellFormed) (now : Time) (parked : Bool) :
    (q.dump now parked).messages.Pairwise (·.dueIn ≤ ·.dueIn) := by
  rw [List.pairwise_iff_getElem]
  intro i j hi hj hij
  have hsi := List.getElem?_eq_getElem hi
  have hsj := List.getElem?_eq_getElem hj
  rw [getElem?_messages_dump] at hsi hsj
  obtain ⟨m, hm, hsm⟩ := Option.map_eq_some_iff.mp hsi
  obtain ⟨n, hn, hsn⟩ := Option.map_eq_some_iff.mp hsj
  obtain ⟨hmi, rfl⟩ := List.getElem?_eq_some_iff.mp hm
  obtain ⟨hnj, rfl⟩ := List.getElem?_eq_some_iff.mp hn
  have hdue := List.pairwise_iff_getElem.mp h.orderly.ascending i j hmi hnj hij
  rw [UInt64.le_iff_toNat_le] at hdue
  rw [← hsm, ← hsn]
  refine clampInt64_le_clampInt64 ?_
  omega

/-- **A dump describes the queue faithfully.**  After any run and at any clock reading it shows
every entry once, the `i`-th of the chain at position `i`, with its content and the time until it is
due; these times never decrease along the list.  A barrier is neither asynchronous nor has it a
callback; it shows the token that was answered to its post, by which it can be removed.  The number
of what is shown is that of what is pending, and the queue is shown as quitting if it is. -/
theorem dump_describes_queue (quittable : Bool) (ts : List Turn) (now : Time) (parked : Bool) :
    let start : Queue := { quittable }
    let q := start.turns ts
    let d := q.dump now parked
    (d.messages.length = q.pending.length ∧
      ∀ i m, q.pending[i]? = some m → ∃ s : Summary, d.messages[i]? = some s ∧ s.Shows i m now ∧
        (s.barrier = true → s.async = false ∧ s.callback = false ∧ s.arg1 ∈ start.posted ts ∧
          m = .barrier s.arg1 m.due ∧ (q.removeBarrier s.arg1).value = .ok ())) ∧
    d.messages.Pairwise (·.dueIn ≤ ·.dueIn) ∧ d.total = q.size ∧ d.quitting = q.quitting := by
  intro start q d
  have hw : q.WellFormed := turns_wellFormed (wellFormed_fresh quittable) ts
  have hlength : d.messages.length = q.pending.length := by simp [d, dump]
  refine ⟨⟨hlength, fun i m hm => ?_⟩, pairwise_dueIn hw now parked, ?_, rfl⟩
  · have hmem : m ∈ q.pending := List.mem_of_getElem? hm
    refine ⟨.describe i m now, ?_, Summary.describe_shows i m now, fun hb => ?_⟩
    · rw [getElem?_messages_dump, hm, Option.map_some]
    · obtain ⟨token, htoken, hpost⟩ := exists_post hmem hb
      obtain rfl : m.arg1 = token := congrArg Message.arg1 hpost
      have hasync : m.async = false := congrArg Message.async hpost
      have hcallback : m.callback.isSome = false := congrArg (·.callback.isSome) hpost
      have hremoved := removeBarrier_of_mem hw.sound hmem (if_pos hb)
      exact ⟨hasync, hcallback, htoken, hpost, hremoved⟩
  · rw [size_eq_length hw.sound, ← hlength]
    rfl

/-- A message that is overdue, a barrier, a callback that is due later and a message whose wait is
too long to be shown. -/
theorem dump_describes_queue_of_four :
    let news : Message := { target := some ⟨0, "news"⟩ }
    let ts : List Turn := [.operate 0 (.enqueue { news with callback := some 8 } 12),
      .operate 0 (.enqueue { news with what := 1, arg2 := 2, async := true } 3),
      .operate 0 (.enqueue news lastTime), .operate 0 (.postBarrier 5)]
    let q := ({} : Queue).turns ts
    let d := q.dump 9 false
    let overdue : Summary := {
      index := 0, dueIn := -6, what := 1, arg1 := 0, arg2 := 2, target := some "news"
      barrier := false, async := true, callback := false }
    let barrier : Summary := {
      index := 1, dueIn := -4, what := 0, arg1 := 0, arg2 := 0, target := none
      barrier := true, async := false, callback := false }
    let callback : Summary := {
      index := 2, dueIn := 3, what := 0, arg1 := 0, arg2 := 0, target := some "news"
      barrier := false, async := false, callback := true }
    let last : Summary := {
      index := 3, dueIn := Int64.maxValue, what := 0, arg1 := 0, arg2 := 0, target := some "news"
      barrier := false, async := false, callback := false }
    d.messages = [overdue, barrier, callback, last] ∧
      [overdue, barrier, callback, last].Pairwise (·.dueIn ≤ ·.dueIn) ∧
      barrier.Shows 1 (.barrier 0 5) 9 ∧ (q.removeBarrier 0).value = .ok () ∧
      q.size = 4 ∧ q.quitting = false := by
  intro news ts q d overdue barrier callback last
  have hmessages : d.messages = [overdue, barrier, callback, last] := by decide +kernel
  have hsecond : q.pending[1]? = some (.barrier 0 5) := by decide +kernel
  obtain ⟨⟨_, hshown⟩, hordered, htotal, _⟩ := dump_describes_queue true ts 9 false
  obtain ⟨s, hs, hshows, hbarrier⟩ := hshown 1 _ hsecond
  rw [hmessages] at hs hordered
  obtain rfl : barrier = s := Option.some.inj hs
  obtain ⟨_, _, _, _, hremoved⟩ := hbarrier rfl
  rw [Dump.total, hmessages] at htotal
  exact ⟨hmessages, hordered, hshows, hremoved, htotal.symm, by decide +kernel⟩

end Queue

end Agenda
