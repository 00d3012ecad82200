import Agenda.Time

/-!
# Times as numbers

A time is a word, and a sum of words may wrap.  The sums of `Time` do not: read as numbers they are
sums cut at the end of the timeline (`toNat_capped`), and a cut of a cut is one cut.  With this the
due-time of work that is put off is told by one formula (`toNat_dueAfter`), from which follow that
it is never the reserved 0, never before the reading, and the later the later the reading and the
longer the span (`dueAfter_le_dueAfter`).
-/

namespace Agenda

variable {s t : Time} {d e : Span}

theorem toNat_lastTime : lastTime.toNat = 18446744073709551615 :=
  rfl

theorem toNat_max (s t : Time) : (max s t).toNat = max s.toNat t.toNat := by
  show (if s ≤ t then t else s).toNat = _
  split
  · rename_i h
    rw [Nat.max_eq_right (UInt64.le_iff_toNat_le.mp h)]
  · rename_i h
    rw [Nat.max_eq_left (Nat.le_of_not_le fun hle => h (UInt64.le_iff_toNat_le.mpr hle))]

/-! ### Cutting at the end of the timeline -/

theorem toNat_capped (n : Nat) : (capped n).toNat = min n lastTime.toNat := by
  unfold capped
  split
  · rename_i h
    rw [UInt64.toNat_ofNat_of_lt' (Nat.lt_succ_of_le h), Nat.min_eq_left h]
  · rename_i h
    rw [Nat.min_eq_right (Nat.le_of_not_le h)]

theorem toNat_after (t : Time) (n : Nat) : (after t n).toNat = min (t.toNat + n) lastTime.toNat :=
  toNat_capped (t.toNat + n)

/-! ### Spans -/

/-- The length of a span in nanoseconds. -/
def Span.nanoseconds (d : Span) : Nat :=
  d.secs.toNat * 1000000000 + d.nanos.toNat

theorem Span.millis_eq (d : Span) : d.millis = d.nanoseconds / 1000000 := by
  rw [millis, nanoseconds]
  omega

theorem Span.millis_le_millis (h : d.nanoseconds ≤ e.nanoseconds) : d.millis ≤ e.millis := by
  rw [millis_eq, millis_eq]
  exact Nat.div_le_div_right h

/-! ### Due-times -/

/-- **The due-time of work that is put off**, as a number: cut at the end, and at least 1. -/
theorem toNat_dueAfter (now : Time) (d : Span) :
    (dueAfter now d).toNat = max 1 (min (now.toNat + d.millis) lastTime.toNat) := by
  rw [dueAfter, toNat_max, toNat_after, toNat_capped, UInt64.toNat_one]
  omega

/-- **What is sent later and put off longer is due later**, or at the same time. -/
theorem dueAfter_le_dueAfter (ht : s ≤ t) (hd : d.nanoseconds ≤ e.nanoseconds) :
    dueAfter s d ≤ dueAfter t e := by
  have hmillis := Span.millis_le_millis hd
  rw [UInt64.le_iff_toNat_le] at ht ⊢
  rw [toNat_dueAfter, toNat_dueAfter]
  omega

end Agenda
