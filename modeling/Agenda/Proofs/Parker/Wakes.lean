import Agenda.Parker.Berth
import Agenda.Parker.Trial
import Agenda.Proofs.System.Course

/-!
# No notification is lost in a parker

`Unread log` says that a notification has come after the last return of a park, by what was seen.
After any acts the flag of a parker says just that (`run?_unread`), and the other flag says whether
the thread waits (`Sound.parked`).  Both rest on `own_cases`, which lists what an act of the thread
may do: it ends the park and leaves the parker as it was made, or it begins a wait, and that only if
no notification is unread.

A notification that comes while the thread waits signals the condition variable, so a thread that
waits with a notification unread was signalled in this wait (`Sound.signalled`): nothing more has to
come for the wait to end.  The steps of a trial are such acts too (`run?_exec`).
-/

namespace Agenda

namespace Parker

/-- Something that is seen of a parker. -/
inductive Sign where
  /-- A notification has come, and the condition variable was signalled or not. -/
  | notified (signals : Bool)
  /-- A question was answered. -/
  | told (parked : Bool)
  /-- The thread begins a wait, in a park with this timeout. -/
  | waits (timeout : Timeout)
  /-- A park with this timeout returns. -/
  | returned (timeout : Timeout)
  deriving DecidableEq, Repr

/-- A notification has come, and no park has returned since. -/
def Unread (log : List Sign) : Prop :=
  ∃ before signals after, log = before ++ .notified signals :: after ∧
    ∀ timeout, .returned timeout ∉ after

theorem not_unread_nil : ¬ Unread [] := by
  rintro ⟨before, signals, after, h, _⟩
  simp at h

theorem unread_notified (log : List Sign) (signals : Bool) : Unread (log ++ [.notified signals]) :=
  ⟨log, signals, [], rfl, by simp⟩

theorem append_cons_eq_concat {α : Type} {xs ys zs : List α} {x y : α}
    (h : zs ++ [y] = xs ++ x :: ys) :
    (zs = xs ∧ y = x ∧ ys = []) ∨ ∃ us, ys = us ++ [y] ∧ zs = xs ++ x :: us := by
  cases ys using List.reverseRecOn with
  | nil =>
    obtain ⟨hz, hy⟩ := List.append_inj' h rfl
    exact Or.inl ⟨hz, List.singleton_inj.mp hy, rfl⟩
  | append_singleton us u _ =>
    rw [← List.cons_append, ← List.append_assoc] at h
    obtain ⟨hz, hy⟩ := List.append_inj' h rfl
    exact Or.inr ⟨us, by rw [List.singleton_inj.mp hy], hz⟩

theorem not_unread_returned (log : List Sign) (timeout : Timeout) :
    ¬ Unread (log ++ [.returned timeout]) := by
  rintro ⟨before, signals, after, h, hafter⟩
  rcases append_cons_eq_concat h with ⟨_, hx, _⟩ | ⟨us, rfl, _⟩
  · cases hx
  · exact hafter timeout (by simp)

theorem unread_concat (log : List Sign) {x : Sign} (hn : ∀ signals, x ≠ .notified signals)
    (hr : ∀ timeout, x ≠ .returned timeout) : Unread (log ++ [x]) ↔ Unread log := by
  constructor
  · rintro ⟨before, signals, after, h, hafter⟩
    rcases append_cons_eq_concat h with ⟨_, hx, _⟩ | ⟨us, rfl, hlog⟩
    · exact absurd hx (hn signals)
    · exact ⟨before, signals, us, hlog, fun timeout hmem => hafter timeout (by simp [hmem])⟩
  · rintro ⟨before, signals, after, rfl, hafter⟩
    refine ⟨before, signals, after ++ [x], by simp, fun timeout hmem => ?_⟩
    rcases List.mem_append.mp hmem with hmem | hmem
    · exact hafter timeout hmem
    · exact hr timeout (List.mem_singleton.mp hmem).symm

/-! ### Sections of a park -/

theorem enter_cases {p : Parker} (h : p.parked = false) (timeout : Timeout) :
    (p.enter timeout = ({}, .returned) ∧ (p.notified = true ∨ timeout = .immediate)) ∨
      (p.enter timeout = ({ parked := true }, .waiting timeout) ∧ p.notified = false ∧
        timeout ≠ .immediate) := by
  obtain ⟨notified, parked⟩ := p
  obtain rfl : parked = false := h
  cases notified with
  | true => exact Or.inl ⟨rfl, Or.inl rfl⟩
  | false =>
    cases timeout with
    | immediate => exact Or.inl ⟨rfl, Or.inr rfl⟩
    | indefinite => exact Or.inr ⟨rfl, rfl, nofun⟩
    | millis n => exact Or.inr ⟨rfl, rfl, nofun⟩

theorem wake_cases (p : Parker) (timeout : Timeout) (waking : Waking) :
    (p.wake timeout waking = ({}, .returned) ∧
        (p.notified = true ∨ waking = .timedOut ∧ timeout ≠ .indefinite)) ∨
      (p.wake timeout waking = (p, .waiting timeout) ∧ p.notified = false ∧
        (waking = .timedOut → timeout = .indefinite)) := by
  cases waking with
  | signal =>
    cases hn : p.notified with
    | true => exact Or.inl ⟨by rw [wake, if_pos hn]; rfl, Or.inl rfl⟩
    | false => exact Or.inr ⟨by rw [wake, if_neg (by simp [hn])], rfl, nofun⟩
  | timedOut =>
    by_cases ht : timeout = .indefinite && !p.notified
    · obtain ⟨hi, hn⟩ : timeout = .indefinite ∧ p.notified = false := by simpa using ht
      exact Or.inr ⟨by rw [wake, if_pos ht], hn, fun _ => hi⟩
    · refine Or.inl ⟨by rw [wake, if_neg ht]; rfl, ?_⟩
      by_cases hn : p.notified = true
      · exact Or.inl hn
      · exact Or.inr ⟨rfl, fun hi => ht (by simpa [hi] using hn)⟩

end Parker

open Parker (Act Sign Unread)

/-- What a section of a park with this timeout looks like. -/
def Park.sign (timeout : Timeout) : Park → Sign
  | .waiting _ => .waits timeout
  | .returned => .returned timeout

namespace Berth

variable {b c d : Berth} {a : Act} {as others : List Act} {timeout : Timeout}

/-- What is seen at an act. -/
def signs (b : Berth) (a : Act) (c : Berth) : List Sign :=
  match a, b.park with
  | .park timeout, _ | .wake _, .waiting timeout => [c.park.sign timeout]
  | .notify, _ => [.notified b.parker.notify.2]
  | .ask, _ => [.told b.parker.parked]
  | .wake _, .returned => []

/-- What is seen in the course of some acts. -/
def seen (b : Berth) (as : List Act) : List Sign :=
  gather step? signs b as

theorem seen_concat (h : b.run? as = some c) (hstep : c.step? a = some d) :
    b.seen (as ++ [a]) = b.seen as ++ c.signs a d :=
  gather_concat signs h hstep

theorem run?_concat :
    b.run? (as ++ [a]) = some d ↔ ∃ c, b.run? as = some c ∧ c.step? a = some d := by
  simp [run?, List.foldlM_append, Option.bind_eq_some_iff]

/-! ### What an act does -/

/-- The flags of a berth say where its thread stands. -/
structure Sound (b : Berth) : Prop where
  parked : b.parker.parked = true ↔ b.park ≠ .returned
  timeout : b.park ≠ .waiting .immediate
  /-- A thread that waits although a notification has come was signalled. -/
  signalled : b.park ≠ .returned → b.parker.notified = true → b.signalled = true

theorem sound_fresh : Sound {} where
  parked := by simp
  timeout := nofun
  signalled := fun h => absurd rfl h

/-- The berth of a thread that has begun a wait. -/
def asleep (timeout : Timeout) : Berth :=
  { parker := { parked := true }, park := .waiting timeout }

theorem sound_asleep (h : timeout ≠ .immediate) : (asleep timeout).Sound where
  parked := by simp [asleep]
  timeout := by simpa [asleep] using h
  signalled := nofun

namespace Sound

theorem parked_of_returned (h : b.Sound) (hp : b.park = .returned) : b.parker.parked = false := by
  by_contra hn
  exact h.parked.mp (by simpa using hn) hp

theorem parked_of_waiting (h : b.Sound) (hp : b.park = .waiting timeout) :
    b.parker.parked = true :=
  h.parked.mpr (by rw [hp]; nofun)

theorem park_cases (h : b.Sound) (hp : b.park = .returned) (timeout : Timeout) :
    (b.step? (.park timeout) = some {} ∧ (b.parker.notified = true ∨ timeout = .immediate)) ∨
      (b.step? (.park timeout) = some (asleep timeout) ∧ b.parker.notified = false ∧
        timeout ≠ .immediate) := by
  have hstep : b.step? (.park timeout) = some (settle (b.parker.enter timeout)) := by
    simp only [step?, hp]
  rw [hstep]
  rcases Parker.enter_cases (h.parked_of_returned hp) timeout with ⟨he, hwhy⟩ | ⟨he, hwhy⟩
  · exact Or.inl ⟨by rw [he]; rfl, hwhy⟩
  · exact Or.inr ⟨by rw [he]; rfl, hwhy⟩

theorem wake_cases (h : b.Sound) (hp : b.park = .waiting timeout) (waking : Waking) :
    (b.step? (.wake waking) = some {} ∧
        (b.parker.notified = true ∨ waking = .timedOut ∧ timeout ≠ .indefinite)) ∨
      (b.step? (.wake waking) = some (asleep timeout) ∧ b.parker.notified = false ∧
        (waking = .timedOut → timeout = .indefinite)) := by
  have hstep : b.step? (.wake waking) = some (settle (b.parker.wake timeout waking)) := by
    simp only [step?, hp]
  have hparked := h.parked_of_waiting hp
  rw [hstep]
  rcases Parker.wake_cases b.parker timeout waking with ⟨he, hwhy⟩ | ⟨he, hn, hwhy⟩
  · exact Or.inl ⟨by rw [he]; rfl, hwhy⟩
  · have hparker : b.parker = { parked := true } := by
      cases hb : b.parker with
      | mk notified parked =>
        rw [hb] at hn hparked
        cases hn
        cases hparked
        rfl
    exact Or.inr ⟨by rw [he, hparker]; rfl, hn, hwhy⟩

theorem park_of_notified (h : b.Sound) (hp : b.park = .returned) (hn : b.parker.notified = true)
    (timeout : Timeout) : b.step? (.park timeout) = some {} := by
  rcases h.park_cases hp timeout with ⟨he, _⟩ | ⟨_, hquiet, _⟩
  · exact he
  · exact absurd (hn.symm.trans hquiet) nofun

theorem wake_of_notified (h : b.Sound) (hp : b.park = .waiting timeout)
    (hn : b.parker.notified = true) (waking : Waking) : b.step? (.wake waking) = some {} := by
  rcases h.wake_cases hp waking with ⟨he, _⟩ | ⟨_, hquiet, _⟩
  · exact he
  · exact absurd (hn.symm.trans hquiet) nofun

theorem park_of_quiet (h : b.Sound) (hp : b.park = .returned) (hn : ¬ b.parker.notified = true)
    (ht : timeout ≠ .immediate) : b.step? (.park timeout) = some (asleep timeout) := by
  rcases h.park_cases hp timeout with ⟨_, hnotified | hi⟩ | ⟨he, _⟩
  · exact absurd hnotified hn
  · exact absurd hi ht
  · exact he

theorem wake_of_quiet (h : b.Sound) (hp : b.park = .waiting timeout)
    (hn : ¬ b.parker.notified = true) : b.step? (.wake .signal) = some (asleep timeout) := by
  rcases h.wake_cases hp .signal with ⟨_, hnotified | ⟨hi, _⟩⟩ | ⟨he, _⟩
  · exact absurd hnotified hn
  · cases hi
  · exact he

theorem park_immediate (h : b.Sound) (hp : b.park = .returned) :
    b.step? (.park .immediate) = some {} := by
  rcases h.park_cases hp .immediate with ⟨he, _⟩ | ⟨_, _, hi⟩
  · exact he
  · exact absurd rfl hi

/-- **What an act of the thread does.**  The park returns and takes all notifications with it, or a
wait begins, and that only where no notification has come. -/
theorem own_cases (h : b.Sound) (ha : a.isOwn = true) (hstep : b.step? a = some c) :
    ∃ timeout,
      (c = {} ∧ b.signs a c = [.returned timeout] ∧
        (b.parker.notified = true ∨ timeout ≠ .indefinite)) ∨
      (c = asleep timeout ∧ b.signs a c = [.waits timeout] ∧ b.parker.notified = false ∧
        timeout ≠ .immediate) := by
  cases a with
  | notify => cases ha
  | ask => cases ha
  | park timeout =>
    cases hp : b.park with
    | waiting timeout' => simp [step?, hp] at hstep
    | returned =>
      refine ⟨timeout, ?_⟩
      rcases h.park_cases hp timeout with ⟨he, hwhy⟩ | ⟨he, hn, hwhy⟩
      · rw [he] at hstep
        cases hstep
        refine Or.inl ⟨rfl, rfl, hwhy.imp_right fun hi => ?_⟩
        rw [hi]
        nofun
      · rw [he] at hstep
        cases hstep
        exact Or.inr ⟨rfl, rfl, hn, hwhy⟩
  | wake waking =>
    cases hp : b.park with
    | returned => simp [step?, hp] at hstep
    | waiting timeout =>
      have hsigns : b.signs (.wake waking) c = [c.park.sign timeout] := by simp only [signs, hp]
      refine ⟨timeout, ?_⟩
      rw [hsigns]
      rcases h.wake_cases hp waking with ⟨he, hwhy⟩ | ⟨he, hn, _⟩
      · rw [he] at hstep
        cases hstep
        exact Or.inl ⟨rfl, rfl, hwhy.imp_right And.right⟩
      · rw [he] at hstep
        cases hstep
        refine Or.inr ⟨rfl, rfl, hn, fun hi => h.timeout ?_⟩
        rw [hp, hi]

theorem notify (h : b.Sound) :
    Sound { b with
      parker := b.parker.notify.1, signalled := b.signalled || b.parker.notify.2 } where
  parked := h.parked
  timeout := h.timeout
  signalled := fun hp _ => by
    have hparked : b.parker.notify.2 = true := h.parked.mpr hp
    simp [hparked]

theorem step (h : b.Sound) (hstep : b.step? a = some c) : c.Sound := by
  cases ha : a.isOwn with
  | true =>
    obtain ⟨timeout, ⟨rfl, _⟩ | ⟨rfl, _, _, ht⟩⟩ := h.own_cases ha hstep
    · exact sound_fresh
    · exact sound_asleep ht
  | false =>
    cases a with
    | park timeout => cases ha
    | wake waking => cases ha
    | notify =>
      cases hstep
      exact h.notify
    | ask =>
      cases hstep
      exact h

/-- **The acts of others leave a notification where it is**, and the thread where it stands. -/
theorem run?_others (h : b.Sound) (hn : b.parker.notified = true)
    (hothers : ∀ x ∈ others, x.isOwn = false) :
    ∃ c, b.run? others = some c ∧ c.Sound ∧ c.park = b.park ∧ c.parker.notified = true := by
  induction others generalizing b with
  | nil => exact ⟨b, rfl, h, rfl, hn⟩
  | cons x others ih =>
    obtain ⟨hx, hrest⟩ := List.forall_mem_cons.mp hothers
    cases x with
    | park timeout => cases hx
    | wake waking => cases hx
    | notify => exact ih h.notify rfl hrest
    | ask => exact ih h hn hrest

end Sound

/-! ### A run -/

theorem run?_sound (h : ({} : Berth).run? as = some b) : b.Sound := by
  induction as using List.reverseRecOn generalizing b with
  | nil =>
    cases h
    exact sound_fresh
  | append_singleton as a ih =>
    obtain ⟨c, hc, hstep⟩ := run?_concat.mp h
    exact (ih hc).step hstep

/-- **The flag of a parker says whether a notification is unread.** -/
theorem run?_unread (h : ({} : Berth).run? as = some b) :
    b.parker.notified = true ↔ Unread (({} : Berth).seen as) := by
  induction as using List.reverseRecOn generalizing b with
  | nil =>
    cases h
    exact iff_of_false nofun Parker.not_unread_nil
  | append_singleton as a ih =>
    obtain ⟨c, hc, hstep⟩ := run?_concat.mp h
    have hbefore := ih hc
    rw [seen_concat hc hstep]
    cases ha : a.isOwn with
    | true =>
      obtain ⟨timeout, ⟨rfl, hsigns, _⟩ | ⟨rfl, hsigns, hn, _⟩⟩ :=
        (run?_sound hc).own_cases ha hstep
      · rw [hsigns]
        exact iff_of_false nofun (Parker.not_unread_returned _ timeout)
      · have hkept := Parker.unread_concat (({} : Berth).seen as) (x := .waits timeout) nofun nofun
        rw [hsigns, hkept, ← hbefore, hn]
        rfl
    | false =>
      cases a with
      | park timeout => cases ha
      | wake waking => cases ha
      | notify =>
        cases hstep
        exact iff_of_true rfl (Parker.unread_notified _ _)
      | ask =>
        cases hstep
        have hkept := Parker.unread_concat (({} : Berth).seen as) (x := .told b.parker.parked) nofun
          nofun
        exact hbefore.trans hkept.symm

/-- Every act shows one sign, and an endless park returns only where a notification has come. -/
theorem Sound.exists_sign (h : b.Sound) (hstep : b.step? a = some c) :
    ∃ x, b.signs a c = [x] ∧ (x = .returned .indefinite → b.parker.notified = true) ∧
      x ≠ .waits .immediate := by
  cases ha : a.isOwn with
  | true =>
    obtain ⟨timeout, ⟨_, hsigns, hwhy⟩ | ⟨_, hsigns, _, ht⟩⟩ := h.own_cases ha hstep
    · refine ⟨_, hsigns, fun hx => ?_, nofun⟩
      cases hx
      exact hwhy.resolve_right fun hne => hne rfl
    · refine ⟨_, hsigns, nofun, fun hx => ?_⟩
      cases hx
      exact ht rfl
  | false =>
    cases a with
    | park timeout => cases ha
    | wake waking => cases ha
    | notify => exact ⟨_, rfl, nofun, nofun⟩
    | ask => exact ⟨_, rfl, nofun, nofun⟩

theorem unread_of_returned {before after : List Sign} (h : ({} : Berth).run? as = some b)
    (hlog : ({} : Berth).seen as = before ++ .returned .indefinite :: after) : Unread before := by
  induction as using List.reverseRecOn generalizing b after with
  | nil =>
    have hnil : ({} : Berth).seen [] = [] := rfl
    rw [hnil] at hlog
    simp at hlog
  | append_singleton as a ih =>
    obtain ⟨c, hc, hstep⟩ := run?_concat.mp h
    obtain ⟨x, hsigns, hwhy, _⟩ := (run?_sound hc).exists_sign hstep
    rw [seen_concat hc hstep, hsigns] at hlog
    rcases Parker.append_cons_eq_concat hlog with ⟨rfl, hx, _⟩ | ⟨us, _, hearlier⟩
    · exact (run?_unread hc).mp (hwhy hx)
    · exact ih hc hearlier

theorem waits_immediate_notMem (h : ({} : Berth).run? as = some b) :
    .waits .immediate ∉ ({} : Berth).seen as := by
  induction as using List.reverseRecOn generalizing b with
  | nil => exact List.not_mem_nil
  | append_singleton as a ih =>
    obtain ⟨c, hc, hstep⟩ := run?_concat.mp h
    obtain ⟨x, hsigns, _, hne⟩ := (run?_sound hc).exists_sign hstep
    rw [seen_concat hc hstep, hsigns, List.mem_append, List.mem_singleton]
    rintro (hmem | hx)
    · exact ih hc hmem
    · exact hne hx.symm

/-- **No notification is lost.**  In every course of acts of one thread that parks and of any others
that notify the parker or ask about it:

* the flag for a waiting thread is down where no park goes on and up where the thread waits, so that
  a notification which comes then signals the condition variable;
* after a notification, whatever the others do, the park that goes on returns when its wait ends,
  for whatever reason, and was signalled to end it; if none goes on, the next park returns at once,
  whatever its timeout.  The parker is then as it was made: one return takes all notifications with
  it;
* where no notification is unread, a park that may wait does, and a wait that ends for no reason
  begins again;
* an endless park returns only if a notification has come that no park had taken;
* a park without time never waits. -/
theorem no_notification_is_lost (h : ({} : Berth).run? as = some b) :
    let log := ({} : Berth).seen as
    ((b.park = .returned → b.parker.parked = false) ∧
      ∀ timeout, b.park = .waiting timeout → b.parker.parked = true ∧ b.parker.notify.2 = true) ∧
    (∀ others, (∀ x ∈ others, x.isOwn = false) → ∃ c, b.run? (.notify :: others) = some c ∧
      (b.park = .returned → ∀ timeout, c.step? (.park timeout) = some {}) ∧
      ∀ timeout, b.park = .waiting timeout →
        c.signalled = true ∧ ∀ waking, c.step? (.wake waking) = some {}) ∧
    (¬ Unread log →
      (b.park = .returned → ∀ timeout, timeout ≠ .immediate →
        b.step? (.park timeout) = some (asleep timeout)) ∧
      ∀ timeout, b.park = .waiting timeout → b.step? (.wake .signal) = some (asleep timeout)) ∧
    (∀ before after, log = before ++ .returned .indefinite :: after → Unread before) ∧
    .waits .immediate ∉ log ∧ (b.park = .returned → b.step? (.park .immediate) = some {}) := by
  intro log
  have hb := run?_sound h
  have hflag : b.parker.notified = true ↔ Unread log := run?_unread h
  refine ⟨⟨hb.parked_of_returned, fun timeout hp => ?_⟩, fun others hothers => ?_, fun hnone => ?_,
    fun before after hlog => unread_of_returned h hlog, waits_immediate_notMem h, hb.park_immediate⟩
  · exact ⟨hb.parked_of_waiting hp, hb.parked_of_waiting hp⟩
  · obtain ⟨c, hrun, hc, hpark, hn⟩ := hb.notify.run?_others rfl hothers
    refine ⟨c, hrun, fun hp => hc.park_of_notified (hpark.trans hp) hn, fun timeout hp => ?_⟩
    have hwaits : c.park = .waiting timeout := hpark.trans hp
    exact ⟨hc.signalled (by rw [hwaits]; nofun) hn, hc.wake_of_notified hwaits hn⟩
  · have hquiet : ¬ b.parker.notified = true := fun hn => hnone (hflag.mp hn)
    exact ⟨fun hp timeout ht => hb.park_of_quiet hp hquiet ht,
      fun timeout hp => hb.wake_of_quiet hp hquiet⟩

/-- Two notifications end one endless park at once; the next one waits, and one more ends it. -/
theorem no_notification_is_lost_in_two_parks :
    ({} : Berth).run? [.notify, .notify, .park .indefinite, .park .indefinite, .ask]
        = some (asleep .indefinite) ∧
      Unread [.notified false, .notified false] ∧
      (asleep .indefinite).step? (.wake .signal) = some (asleep .indefinite) ∧
      ∃ c, (asleep .indefinite).run? [.notify, .ask, .notify] = some c ∧ c.signalled = true ∧
        ∀ waking, c.step? (.wake waking) = some {} := by
  have h : ({} : Berth).run? [.notify, .notify, .park .indefinite, .park .indefinite, .ask]
      = some (asleep .indefinite) := by decide
  obtain ⟨_, hkept, hquiet, hends, _⟩ := no_notification_is_lost h
  have hnone : ¬ Unread (({} : Berth).seen
      [.notify, .notify, .park .indefinite, .park .indefinite, .ask]) :=
    fun hunread => absurd ((run?_unread h).mpr hunread) (by decide)
  obtain ⟨c, hrun, _, hsleeps⟩ := hkept [.ask, .notify] (by decide)
  obtain ⟨hsignalled, hwakes⟩ := hsleeps .indefinite rfl
  exact ⟨h, hends _ [.waits .indefinite, .told true] (by decide), (hquiet hnone).2 .indefinite rfl,
    c, hrun, hsignalled, hwakes⟩

/-! ### Trials -/

/-- **A step of a trial is a course of acts** that begins and ends where no park goes on. -/
theorem run?_exec {p : Parker} (h : p.parked = false) (step : Parker.Trial.Step) :
    ∃ as, ({ parker := p } : Berth).run? as = some { parker := (step.exec p).1 } := by
  cases step with
  | notify =>
    refine ⟨[.notify], ?_⟩
    have hsignals : p.notify.2 = false := h
    simp [run?, step?, hsignals, Parker.Trial.Step.exec]
  | isParked => exact ⟨[.ask], rfl⟩
  | park timeout =>
    rcases Parker.enter_cases h timeout with ⟨he, _⟩ | ⟨he, _, _⟩
    · exact ⟨[.park timeout], by simp [run?, step?, settle, Parker.Trial.Step.exec, he]⟩
    · cases hlong : Parker.Trial.isTooLong timeout with
      | true => exact ⟨[], by simp [run?, Parker.Trial.Step.exec, he, hlong]⟩
      | false =>
        have hends : Parker.wake { parked := true } timeout .timedOut = ({}, .returned) := by
          cases timeout with
          | indefinite => cases hlong
          | immediate => rfl
          | millis n => rfl
        exact ⟨[.park timeout, .wake .timedOut],
          by simp [run?, step?, settle, Parker.Trial.Step.exec, he, hlong, hends]⟩
  | parkElsewhere timeout =>
    rcases Parker.enter_cases h timeout with ⟨he, _⟩ | ⟨he, _, _⟩
    · exact ⟨[.park timeout], by simp [run?, step?, settle, Parker.Trial.Step.exec, he]⟩
    · have hends : Parker.wake { notified := true, parked := true } timeout .signal
          = ({}, .returned) := rfl
      exact ⟨[.park timeout, .notify, .wake .signal],
        by simp [run?, step?, settle, Parker.Trial.Step.exec, Parker.notify, he, hends]⟩

end Berth

end Agenda
