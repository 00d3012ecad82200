import Agenda.Proofs.Time

/-!
# The steady clock up to the end of the timeline

A steady clock reads one more than the milliseconds that have elapsed, so that it never reads the 0
that stands for the front of the queue.  Elapsed milliseconds beyond the timeline are cut to
`lastTime - 1` first, which leaves room for the 1.  But `lastTime` itself is not beyond the timeline
and is not cut: there, and nowhere else, the sum does not fit (`fits_iff`), and the clock reads 0
after it has read `lastTime` (`toNat_steady`).

* `one_le_steady_iff`, `steady_le_steady_iff`: what that one reading breaks.
* `steady_is_safe_but_once`: readings and the due-times that follow from them.
* `clock_goes_back_at_the_end`: the elapsed time at which the clock goes back.
-/

namespace Agenda

namespace Clock

/-- What a steady clock adds 1 to: the elapsed milliseconds, cut if they are beyond the timeline. -/
def counted (elapsed : Nat) : Time :=
  if elapsed ≤ lastTime.toNat then UInt64.ofNat elapsed else lastTime - 1

/-- There is room for the 1, so the sum is computed without overflow. -/
def Fits (elapsed : Nat) : Prop :=
  (counted elapsed).toNat + 1 ≤ lastTime.toNat

theorem steady_eq (n : Nat) : steady n = counted n + 1 :=
  rfl

theorem toNat_counted (n : Nat) :
    (counted n).toNat = if n ≤ lastTime.toNat then n else lastTime.toNat - 1 := by
  unfold counted
  split
  · rename_i h
    exact UInt64.toNat_ofNat_of_lt' (Nat.lt_succ_of_le h)
  · rfl

theorem fits_iff (n : Nat) : Fits n ↔ n ≠ lastTime.toNat := by
  have hlast := toNat_lastTime
  rw [Fits, toNat_counted]
  split <;> omega

/-- **The reading as a number**: one more than what has elapsed, cut at the end, and 0 once. -/
theorem toNat_steady (n : Nat) : (steady n).toNat =
    if n = lastTime.toNat then 0 else min (n + 1) lastTime.toNat := by
  have hlast := toNat_lastTime
  rw [steady_eq, UInt64.toNat_add, toNat_counted, UInt64.toNat_one]
  split <;> split <;> omega

theorem toNat_steady_eq_iff (n : Nat) :
    (steady n).toNat = min (n + 1) lastTime.toNat ↔ n ≠ lastTime.toNat := by
  have hlast := toNat_lastTime
  rw [toNat_steady]
  split <;> omega

theorem one_le_steady_iff (n : Nat) : 1 ≤ steady n ↔ n ≠ lastTime.toNat := by
  have hlast := toNat_lastTime
  rw [UInt64.le_iff_toNat_le, toNat_steady, UInt64.toNat_one]
  split <;> omega

theorem steady_le_steady_iff {m n : Nat} (h : m ≤ n) :
    steady m ≤ steady n ↔ (n = lastTime.toNat → m = lastTime.toNat) := by
  have hlast := toNat_lastTime
  rw [UInt64.le_iff_toNat_le, toNat_steady, toNat_steady]
  split <;> split <;> omega

end Clock

theorem one_le_dueAfter (now : Time) (d : Span) : 1 ≤ dueAfter now d := by
  rw [UInt64.le_iff_toNat_le, toNat_dueAfter, UInt64.toNat_one]
  exact Nat.le_max_left 1 _

/-- **A steady clock and the due-times that follow from it are safe at every elapsed time but one**,
that of exactly `lastTime` milliseconds.  At every other the reading is computed without overflow,
is one more than the milliseconds elapsed or the last time, and so at least 1; it is never less than
an earlier one, and neither are the due-times.  A due-time is at least 1 even there. -/
theorem steady_is_safe_but_once (e : Span) :
    (Clock.Fits e.millis ↔ e.millis ≠ lastTime.toNat) ∧
    ((Clock.steady e.millis).toNat = min (e.millis + 1) lastTime.toNat ↔
      e.millis ≠ lastTime.toNat) ∧
    (1 ≤ Clock.steady e.millis ↔ e.millis ≠ lastTime.toNat) ∧
    (∀ d, 1 ≤ dueAfter (Clock.steady e.millis) d) ∧
    ∀ f : Span, e.nanoseconds ≤ f.nanoseconds →
      (Clock.steady e.millis ≤ Clock.steady f.millis ↔
        (f.millis = lastTime.toNat → e.millis = lastTime.toNat)) ∧
      ((f.millis = lastTime.toNat → e.millis = lastTime.toNat) → ∀ d d' : Span,
        d.nanoseconds ≤ d'.nanoseconds →
          dueAfter (Clock.steady e.millis) d ≤ dueAfter (Clock.steady f.millis) d') := by
  refine ⟨Clock.fits_iff e.millis, Clock.toNat_steady_eq_iff e.millis,
    Clock.one_le_steady_iff e.millis, one_le_dueAfter (Clock.steady e.millis), fun f hef => ?_⟩
  have horder := Clock.steady_le_steady_iff (Span.millis_le_millis hef)
  exact ⟨horder, fun hwrap d d' hd => dueAfter_le_dueAfter (horder.mpr hwrap) hd⟩

/-- The last millisecond before the wrap, and the longest span there is. -/
theorem steady_is_safe_but_once_of_two :
    let e : Span := { secs := 18446744073709551, nanos := 614999999 }
    let f : Span := { secs := 18446744073709551615, nanos := 999999999 }
    let d : Span := { nanos := 999999 }
    let d' : Span := { nanos := 1000000 }
    (e.nanoseconds ≤ f.nanoseconds ∧ d.nanoseconds ≤ d'.nanoseconds ∧
      e.millis = 18446744073709551614 ∧ f.millis ≠ lastTime.toNat) ∧
    Clock.Fits e.millis ∧ 1 ≤ Clock.steady e.millis ∧ Clock.steady e.millis = lastTime ∧
      Clock.steady e.millis ≤ Clock.steady f.millis ∧
      dueAfter (Clock.steady e.millis) d ≤ dueAfter (Clock.steady f.millis) d' := by
  intro e f d d'
  have hef : e.nanoseconds ≤ f.nanoseconds := by decide
  have hd : d.nanoseconds ≤ d'.nanoseconds := by decide
  have he : e.millis ≠ lastTime.toNat := by decide
  have hf : f.millis ≠ lastTime.toNat := by decide
  obtain ⟨hfits, _, hone, _, hlater⟩ := steady_is_safe_but_once e
  obtain ⟨horder, hdue⟩ := hlater f hef
  have hwrap : f.millis = lastTime.toNat → e.millis = lastTime.toNat := fun h => absurd h hf
  exact ⟨⟨hef, hd, by decide, hf⟩, hfits.mpr he, hone.mpr he, by decide, horder.mpr hwrap,
    hdue hwrap d d' hd⟩

/-- **One millisecond later the clock reads 0**: the sum does not fit, the clock goes back from the
last time to the one that stands for the front of the queue, and what is put off is due before what
was put off a millisecond earlier. -/
theorem clock_goes_back_at_the_end :
    let e : Span := { secs := 18446744073709551, nanos := 614000000 }
    let f : Span := { secs := 18446744073709551, nanos := 615000000 }
    e.nanoseconds ≤ f.nanoseconds ∧ f.millis = e.millis + 1 ∧ ¬ Clock.Fits f.millis ∧
      Clock.steady e.millis = lastTime ∧ Clock.steady f.millis = 0 ∧
      ¬ 1 ≤ Clock.steady f.millis ∧ ¬ Clock.steady e.millis ≤ Clock.steady f.millis ∧
      ¬ dueAfter (Clock.steady e.millis) {} ≤ dueAfter (Clock.steady f.millis) {} := by
  intro e f
  have hfits : ¬ Clock.Fits f.millis := fun h => (Clock.fits_iff f.millis).mp h (by decide)
  exact ⟨by decide, by decide, hfits, by decide, by decide, by decide, by decide, by decide⟩

end Agenda
