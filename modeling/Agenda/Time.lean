/-!
# Time

Due-times and clock readings are whole milliseconds on one timeline, kept in 64 bits. Spans are
finer; they are cut to whole milliseconds and stop at the end of the timeline when they are added.
-/

namespace Agenda

/-- A clock reading or a due-time, in milliseconds. -/
abbrev Time := UInt64

/-- The last millisecond of the timeline. -/
def lastTime : Time := 18446744073709551615

/-- A length of time. -/
structure Span where
  /-- Whole seconds. -/
  secs : UInt64 := 0
  /-- The rest in nanoseconds, below one second. -/
  nanos : UInt32 := 0
  deriving DecidableEq, Repr, Inhabited

/-- The whole milliseconds of a span; a started millisecond does not count. -/
def Span.millis (d : Span) : Nat :=
  d.secs.toNat * 1000 + d.nanos.toNat / 1000000

/-- A span of `n` milliseconds. -/
def Span.ofMillis (n : UInt64) : Span :=
  { secs := n / 1000, nanos := (n % 1000).toUInt32 * 1000000 }

/-- A count of milliseconds as a time, cut at the end of the timeline. -/
def capped (n : Nat) : Time :=
  if n ≤ lastTime.toNat then UInt64.ofNat n else lastTime

/-- The time `n` milliseconds after `t`, cut at the end of the timeline. -/
def after (t : Time) (n : Nat) : Time :=
  capped (t.toNat + n)

/-- The due-time of work that is put off by `d` at reading `now`. It is at least 1, since 0 stands
for the front of the queue. -/
def dueAfter (now : Time) (d : Span) : Time :=
  max (after now (capped d.millis).toNat) 1

namespace Clock

/-- The reading of a steady clock after `elapsed` milliseconds. It starts at 1, since 0 stands for
the front of the queue. -/
def steady (elapsed : Nat) : Time :=
  (if elapsed ≤ lastTime.toNat then UInt64.ofNat elapsed else lastTime - 1) + 1

/-- The reading of a hand-driven clock that is moved on by `d`. -/
def advance (now : Time) (d : Span) : Time :=
  now + capped d.millis

/-- The reading of a hand-driven clock that is set to `t`; it never goes back. -/
def set (now t : Time) : Time :=
  max now t

end Clock

end Agenda
