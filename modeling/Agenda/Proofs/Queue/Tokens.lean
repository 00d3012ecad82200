import Agenda.Proofs.Queue.Barrier
import Agenda.Proofs.Queue.Order
import Mathlib.Data.Int.ModEq

/-!
# Tokens

A queue numbers its barriers by a counter that starts again after 2³² posts, and a post that comes
too late does not count.  So the `k`-th post is answered with `k`, cut to 32 bits
(`getElem?_posted`), and the ledger has its barrier under the same number (`Ledger.posts_noteAll`).

Among no more than 2³² posts a token names one barrier (`eq_of_token?`), and before that many the
next token is on no barrier that is pending (`Ledger.token?_ne_nextToken`).  Hence a removal by the
token takes out that barrier or finds it gone (`Tells.removeBarrier_of_post`).  A message for a
target has no token and is never taken out (`Queue.filter_removeBarrier`).
-/

namespace Agenda

theorem int32_ofNat_eq_iff {i j : Nat} (h : i ≤ j) :
    Int32.ofNat i = Int32.ofNat j ↔ 2 ^ 32 ∣ j - i := by
  rw [← Nat.modEq_iff_dvd' h, Nat.ModEq, ← Int32.toBitVec_inj, Int32.toBitVec_ofNat',
    Int32.toBitVec_ofNat', ← BitVec.toNat_inj, BitVec.toNat_ofNat, BitVec.toNat_ofNat]

namespace Queue

variable {q : Queue} {token : Token} {k : Nat}

/-- The token that is answered in a turn, if a barrier is posted in it. -/
def postedIn (q : Queue) : Turn → List Token
  | .operate _ (.postBarrier due) => (q.postBarrier due).value.toList
  | _ => []

/-- The tokens that are answered in a run, in order. -/
def posted (q : Queue) : List Turn → List Token
  | [] => []
  | t :: ts => q.postedIn t ++ (q.turn t).posted ts

theorem WellFormed.nextToken_perform (h : q.WellFormed) (now : Time) {op : Operation}
    (hne : ∀ due, op ≠ .postBarrier due) :
    (q.perform now op).state.nextToken = q.nextToken := by
  cases op with
  | enqueue m due =>
    show (q.enqueue m due).state.nextToken = _
    rcases enqueue_cases q m due with ⟨_, hs, _⟩ | ⟨_, _, _, _, hs, _⟩
    · rw [hs]
    · rw [hs, link_nextToken]
  | postBarrier due => exact absurd rfl (hne due)
  | removeBarrier token =>
    show (q.removeBarrier token).state.nextToken = _
    rcases removeBarrier_cases h.sound token with ⟨_, hs, _⟩ | ⟨_, _, _, _, _, _, _, _, hs, _⟩
    · rw [hs]
    · rw [hs]
  | remove f => rfl
  | addIdle i => rfl
  | removeIdle i => rfl
  | quit safe =>
    show (q.quit now safe).state.nextToken = _
    rcases quit_cases h.sound now safe with ⟨hs, _⟩ | ⟨_, _, _, _, _, hs, _⟩
    · rw [hs]
    · rw [hs]

theorem WellFormed.nextToken_scan (h : q.WellFormed) (now : Time) (settled : Bool) :
    (q.scan now settled).state.nextToken = q.nextToken := by
  rcases scan_cases h.sound h.orderly now settled with
    ⟨_, he⟩ | ⟨_, _, _, _, _, _, _, _, he, _⟩ | ⟨_, _, he⟩
  · rw [he]
  · rw [he]
  · rcases sleepOrIdle_cases q now settled (timeoutAt now q.pending) with
      ⟨_, hs⟩ | ⟨_, _, _, _, hs⟩ | ⟨_, _, hs⟩
    · rw [he, hs]
      rcases dispose_cases q with ⟨_, hd⟩ | ⟨_, hd⟩
      · rw [hd]
      · rw [hd]
    · rw [he, hs]
      rfl
    · rw [he, hs]

/-- **A turn posts nothing and leaves the counter, or it takes a token from it.** -/
theorem WellFormed.postedIn_cases (h : q.WellFormed) (t : Turn) :
    (q.postedIn t = [] ∧ (q.turn t).nextToken = q.nextToken) ∨
      (q.postedIn t = [q.nextToken] ∧ (q.turn t).nextToken = q.nextToken + 1) := by
  cases t with
  | operate now op =>
    cases op with
    | postBarrier due =>
      show (q.postBarrier due).value.toList = [] ∧ (q.postBarrier due).state.nextToken = _ ∨
        (q.postBarrier due).value.toList = _ ∧ (q.postBarrier due).state.nextToken = _
      rcases postBarrier_cases q due with ⟨hv, _, hs, _⟩ | ⟨hv, _, hs, _⟩
      · exact Or.inl ⟨by rw [hv]; rfl, by rw [hs]⟩
      · exact Or.inr ⟨by rw [hv]; rfl, by rw [hs, link_nextToken]⟩
    | _ => exact Or.inl ⟨rfl, h.nextToken_perform now (by simp)⟩
  | look now settled => exact Or.inl ⟨rfl, h.nextToken_scan now settled⟩
  | idle i outcome => cases outcome <;> exact Or.inl ⟨rfl, rfl⟩
  | endPass => exact Or.inl ⟨rfl, rfl⟩

/-- **The `k`-th post is answered with the `k`-th token** of the counter. -/
theorem getElem?_posted (h : q.WellFormed) {ts : List Turn} (ht : (q.posted ts)[k]? = some token) :
    token = q.nextToken + Int32.ofNat k := by
  induction ts generalizing q k with
  | nil => simp [posted] at ht
  | cons t ts ih =>
    rw [posted] at ht
    rcases h.postedIn_cases t with ⟨hnone, hnext⟩ | ⟨hone, hnext⟩
    · rw [hnone, List.nil_append] at ht
      rw [ih (turn_wellFormed h t) ht, hnext]
    · rw [hone, List.singleton_append] at ht
      cases k with
      | zero =>
        rw [List.getElem?_cons_zero, Option.some.injEq] at ht
        rw [← ht]
        exact (Int32.add_zero q.nextToken).symm
      | succ k =>
        rw [List.getElem?_cons_succ] at ht
        rw [ih (turn_wellFormed h t) ht, hnext, Nat.add_comm k 1, Int32.ofNat_add, Int32.add_assoc]
        rfl

theorem getElem?_posted_fresh {quittable : Bool} {ts : List Turn}
    (ht : (({ quittable } : Queue).posted ts)[k]? = some token) : token = Int32.ofNat k :=
  (getElem?_posted (wellFormed_fresh quittable) ht).trans (Int32.zero_add _)

theorem nextToken_turns (h : q.WellFormed) (ts : List Turn) :
    (q.turns ts).nextToken = q.nextToken + Int32.ofNat (q.posted ts).length := by
  induction ts generalizing q with
  | nil => exact (Int32.add_zero q.nextToken).symm
  | cons t ts ih =>
    show ((q.turn t).turns ts).nextToken = _
    rw [ih (turn_wellFormed h t), posted, List.length_append]
    rcases h.postedIn_cases t with ⟨hnone, hnext⟩ | ⟨hone, hnext⟩
    · rw [hnone, hnext, List.length_nil, Nat.zero_add]
    · rw [hone, hnext, List.length_singleton, Int32.ofNat_add, Int32.add_assoc]
      rfl

theorem removeBarrier_value (q : Queue) (token : Token) :
    (q.removeBarrier token).value = .ok () ∨
      (q.removeBarrier token).value = .error (.noBarrier token) := by
  unfold removeBarrier
  split
  · exact Or.inr rfl
  · exact Or.inl rfl

end Queue

namespace Ledger

variable {L : Ledger} {q : Queue} {b e f : Entry} {ms : List Message} {ts : List Turn}
  {token : Token}

/-- The barriers that were posted, in order. -/
def posts (L : Ledger) : List Entry :=
  L.accepted.filter (·.message.isBarrier)

theorem mem_posts : b ∈ L.posts ↔ b ∈ L.accepted ∧ b.message.isBarrier = true :=
  List.mem_filter

theorem posts_accept_barrier (L : Ledger) (token : Token) (due : Time) :
    (L.accept (.barrier token due)).posts.map (·.message.token?) =
      L.posts.map (·.message.token?) ++ [some token] := by
  simp only [posts, accept, List.filter_append, List.map_append]
  rfl

theorem posts_accept_of_isBarrier {m : Message} (hm : m.isBarrier = false) :
    (L.accept m).posts = L.posts := by
  simp only [posts, accept, List.filter_append]
  rw [List.filter_cons_of_neg (by simp [hm]), List.filter_nil, List.append_nil]

theorem posts_note (L : Ledger) (q : Queue) (t : Turn) :
    (L.note q t).posts.map (·.message.token?) =
      L.posts.map (·.message.token?) ++ (q.postedIn t).map some := by
  have hnone : L.posts.map (·.message.token?) = L.posts.map (·.message.token?) ++ [] :=
    (List.append_nil _).symm
  cases t with
  | operate now op =>
    show (L.noteOperation q now op).posts.map _ = _
    cases op with
    | enqueue m due =>
      rcases Queue.enqueue_cases q m due with ⟨hv, _⟩ | ⟨hv, hm, _⟩
      · rw [noteOperation_enqueue_of_ne now hv]
        exact hnone
      · simp only [noteOperation, hv]
        rw [posts_accept_of_isBarrier (by exact hm)]
        exact hnone
    | postBarrier due =>
      simp only [noteOperation, Queue.postedIn]
      cases (q.postBarrier due).value with
      | none => exact hnone
      | some token => exact posts_accept_barrier L token due
    | removeBarrier token =>
      rw [noteOperation]
      split <;> exact hnone
    | remove f => exact hnone
    | addIdle i => exact hnone
    | removeIdle i => exact hnone
    | quit safe =>
      rw [noteOperation]
      split
      · split <;> exact hnone
      · exact hnone
  | look now settled =>
    show ((L.noteLook _).accepted.filter _).map _ = _
    rw [accepted_noteLook]
    exact hnone
  | idle i outcome => exact hnone
  | endPass => exact hnone

theorem posts_noteAll (L : Ledger) (q : Queue) (ts : List Turn) :
    (L.noteAll q ts).posts.map (·.message.token?) =
      L.posts.map (·.message.token?) ++ (q.posted ts).map some := by
  induction ts generalizing L q with
  | nil => exact (List.append_nil _).symm
  | cons t ts ih =>
    rw [noteAll, ih, posts_note, List.append_assoc, ← List.map_append]
    rfl

/-! ### The posts of a run -/

theorem token?_of_getElem?_posts {quittable : Bool} {k : Nat}
    (hb : (Ledger.noteAll {} { quittable } ts).posts[k]? = some b) :
    b.message.token? = some (Int32.ofNat k) ∧
      k < (({ quittable } : Queue).posted ts).length := by
  have hposts := posts_noteAll {} { quittable } ts
  rw [show ({} : Ledger).posts.map (·.message.token?) = [] from rfl, List.nil_append] at hposts
  have hk : ((({ quittable } : Queue).posted ts).map some)[k]? = some b.message.token? := by
    rw [← hposts, List.getElem?_map, hb]
    rfl
  rw [List.getElem?_map] at hk
  obtain ⟨token, htoken, hs⟩ := Option.map_eq_some_iff.mp hk
  refine ⟨?_, (List.getElem?_eq_some_iff.mp htoken).1⟩
  rw [← hs, Queue.getElem?_posted_fresh htoken]

/-- **Two barriers have one token if and only if a multiple of 2³² posts lies between them.** -/
theorem token?_eq_iff {quittable : Bool} {i j : Nat} (hij : i ≤ j)
    (he : (Ledger.noteAll {} { quittable } ts).posts[i]? = some e)
    (hf : (Ledger.noteAll {} { quittable } ts).posts[j]? = some f) :
    e.message.token? = f.message.token? ↔ 2 ^ 32 ∣ j - i := by
  rw [(token?_of_getElem?_posts he).1, (token?_of_getElem?_posts hf).1, Option.some.injEq]
  exact int32_ofNat_eq_iff hij

theorem eq_of_token? {quittable : Bool} (hfew : (({ quittable } : Queue).posted ts).length ≤ 2 ^ 32)
    (he : e ∈ (Ledger.noteAll {} { quittable } ts).posts)
    (hf : f ∈ (Ledger.noteAll {} { quittable } ts).posts)
    (hef : e.message.token? = f.message.token?) : e = f := by
  obtain ⟨i, hi⟩ := List.mem_iff_getElem?.mp he
  obtain ⟨j, hj⟩ := List.mem_iff_getElem?.mp hf
  have hilt := (token?_of_getElem?_posts hi).2
  have hjlt := (token?_of_getElem?_posts hj).2
  have hsame : i = j := by
    rcases Nat.le_total i j with hij | hji
    · have hdvd := (token?_eq_iff hij hi hj).mp hef
      have := Nat.eq_zero_of_dvd_of_lt hdvd (by omega)
      omega
    · have hdvd := (token?_eq_iff hji hj hi).mp hef.symm
      have := Nat.eq_zero_of_dvd_of_lt hdvd (by omega)
      omega
  subst hsame
  exact Option.some.inj (hi.symm.trans hj)

/-- **After fewer than 2³² posts the next token is in use by no pending barrier.** -/
theorem token?_ne_nextToken {quittable : Bool} {m : Message}
    (hfew : (({ quittable } : Queue).posted ts).length < 2 ^ 32)
    (hm : m ∈ (({ quittable } : Queue).turns ts).pending) :
    m.token? ≠ some (({ quittable } : Queue).turns ts).nextToken := by
  have hw := Queue.wellFormed_fresh quittable
  have hL := tells_empty.noteAll hw ts
  intro htoken
  rw [← hL.line] at hm
  obtain ⟨e, he, rfl⟩ := List.mem_map.mp hm
  have hpost : e ∈ (Ledger.noteAll {} { quittable } ts).posts :=
    mem_posts.mpr ⟨hL.mem_accepted he, Queue.isBarrier_of_token? htoken⟩
  obtain ⟨k, hk⟩ := List.mem_iff_getElem?.mp hpost
  obtain ⟨hkth, hlt⟩ := token?_of_getElem?_posts hk
  rw [htoken, Queue.nextToken_turns hw, Option.some.injEq] at hkth
  have hsame := hkth.symm.trans (Int32.zero_add _)
  have hdvd := (int32_ofNat_eq_iff (Nat.le_of_lt hlt)).mp hsame
  have := Nat.eq_zero_of_dvd_of_lt hdvd (by omega)
  omega

theorem Tells.nodup_tokens (h : L.Tells ms)
    (hone : ∀ e ∈ L.posts, ∀ f ∈ L.posts, e.message.token? = f.message.token? → e = f) :
    (ms.filterMap Message.token?).Nodup := by
  rw [← h.line, List.filterMap_map, List.Nodup, List.pairwise_filterMap]
  have hnodup : L.line.Nodup := (List.nodup_append.mp h.nodup).1
  refine hnodup.imp_of_mem fun {e f} he hf hne token ht token' ht' htt => hne ?_
  have hte : e.message.token? = some token := ht
  have htf : f.message.token? = some token' := ht'
  refine hone e ?_ f ?_ (by rw [hte, htf, htt])
  · exact mem_posts.mpr ⟨h.mem_accepted he, Queue.isBarrier_of_token? hte⟩
  · exact mem_posts.mpr ⟨h.mem_accepted hf, Queue.isBarrier_of_token? htf⟩

/-- The barrier `b` has not departed, and this removal takes it out of the line and nothing else. -/
def TakesOut (L : Ledger) (q : Queue) (token : Token) (b : Entry) : Prop :=
  (∀ why, (why, b) ∉ L.departed) ∧ (q.removeBarrier token).value = .ok () ∧
    ∃ es fs arena, L.line = es ++ b :: fs ∧ (q.removeBarrier token).state = { q with arena } ∧
      arena.toList = (es ++ fs).map Entry.message

/-- The barrier `b` was removed or discarded, and this removal changes nothing. -/
def FindsGone (L : Ledger) (q : Queue) (token : Token) (b : Entry) : Prop :=
  ((.removed, b) ∈ L.departed ∨ (.discarded, b) ∈ L.departed) ∧
    (q.removeBarrier token).value = .error (.noBarrier token) ∧
    (q.removeBarrier token).state = q ∧ (q.removeBarrier token).wakes = false

/-- **A removal by the token of a post takes out the barrier of that post**, or finds it gone. -/
theorem Tells.removeBarrier_of_post (h : L.Tells q.pending) (hw : q.WellFormed)
    (hone : ∀ e ∈ L.posts, ∀ f ∈ L.posts, e.message.token? = f.message.token? → e = f)
    (hreturned : (.returned, b) ∉ L.departed) (hb : b ∈ L.posts)
    (htoken : b.message.token? = some token) :
    (b ∈ L.line ∧ L.TakesOut q token b) ∨ (b ∉ L.line ∧ L.FindsGone q token b) := by
  rcases Queue.removeBarrier_cases hw.sound token with
    ⟨hv, hs, hk, hnone⟩ | ⟨hv, xs, m, ys, arena, hp, hm, hxs, hs, _, hl, _⟩
  · have hline : b ∉ L.line := by
      intro hmem
      refine hnone b.message ?_ htoken
      rw [← h.line]
      exact List.mem_map_of_mem hmem
    refine Or.inr ⟨hline, ?_, (Queue.removeBarrier_value q token).resolve_left hv, hs, hk⟩
    obtain ⟨why, hd⟩ := (mem_line_or_departed h (mem_posts.mp hb).1).resolve_left hline
    cases why with
    | returned => exact absurd hd hreturned
    | removed => exact Or.inl hd
    | discarded => exact Or.inr hd
  · rw [hp] at h
    obtain ⟨es, e, fs, hline, rfl, rfl, rfl, _⟩ :=
      h.split (fun m => m.token? = some token) (by simpa using hm) fun x hx => by
        simpa using hxs x hx
    have hmem : e ∈ L.line := by
      rw [hline]
      simp
    have he : e ∈ L.posts := mem_posts.mpr ⟨h.mem_accepted hmem, Queue.isBarrier_of_token? hm⟩
    obtain rfl : e = b := hone e he b hb (hm.trans htoken.symm)
    refine Or.inl ⟨hmem, h.notMem_departed hmem, hv, es, fs, arena, hline, hs, ?_⟩
    rw [hl, List.map_append]

end Ledger

open Ledger in
/-- **Tokens identify barriers.**  After any run from a fresh queue, with its ledger and the tokens
that were answered to its posts:

* the barriers of the ledger have these tokens, and what is pending are entries of the ledger;
* two barriers have the same token if and only if a multiple of 2³² posts lies between them;
* no removal by token takes out a message for a target, nor changes the order of such messages;
* after no more than 2³² posts, the tokens of pending barriers differ, and a removal by the token of
  a post takes out the barrier of that post if it is in line, and otherwise finds that it was
  removed or discarded and changes nothing. -/
theorem tokens_identify_barriers (quittable : Bool) (ts : List Turn) :
    let start : Queue := { quittable }
    let q := start.turns ts
    let L := noteAll {} start ts
    let tokens := start.posted ts
    (L.posts.map (·.message.token?) = tokens.map some ∧ q.pending = L.line.map Entry.message ∧
      ∀ b ∈ L.line, b.message.isBarrier = true → b ∈ L.posts) ∧
    (∀ i j e f, i ≤ j → L.posts[i]? = some e → L.posts[j]? = some f →
      (e.message.token? = f.message.token? ↔ 2 ^ 32 ∣ j - i)) ∧
    (∀ token, (q.removeBarrier token).state.pending.filter (!·.isBarrier) =
      q.pending.filter (!·.isBarrier)) ∧
    (tokens.length ≤ 2 ^ 32 → (q.pending.filterMap Message.token?).Nodup ∧
      ∀ (k : Nat) (b : Entry) (token : Token), L.posts[k]? = some b → tokens[k]? = some token →
        (b ∈ L.line ∧ L.TakesOut q token b) ∨ (b ∉ L.line ∧ L.FindsGone q token b)) := by
  intro start q L tokens
  have hw : start.WellFormed := Queue.wellFormed_fresh quittable
  have hL : L.Tells q.pending := tells_empty.noteAll hw ts
  refine ⟨⟨posts_noteAll {} start ts, hL.line.symm, fun b hb hbarrier => ?_⟩,
    fun i j e f hij he hf => token?_eq_iff hij he hf,
    fun token => Queue.filter_removeBarrier (Queue.turns_wellFormed hw ts).sound token (by simp),
    fun hfew => ?_⟩
  · exact mem_posts.mpr ⟨hL.mem_accepted hb, hbarrier⟩
  · have hone : ∀ e ∈ L.posts, ∀ f ∈ L.posts, e.message.token? = f.message.token? → e = f :=
      fun e he f hf hef => eq_of_token? hfew he hf hef
    refine ⟨hL.nodup_tokens hone, fun k b token hb htoken => ?_⟩
    have hmem : b ∈ L.posts := List.mem_of_getElem? hb
    have hreturned : (.returned, b) ∉ L.departed := by
      intro hd
      have hmessage :=
        tells_empty.isBarrier_of_returned hw (mem_returned.mpr hd) (by simp [returned])
      rw [(mem_posts.mp hmem).2] at hmessage
      cases hmessage
    refine hL.removeBarrier_of_post (Queue.turns_wellFormed hw ts) hone hreturned hmem ?_
    rw [(token?_of_getElem?_posts hb).1, Queue.getElem?_posted_fresh htoken]

open Ledger in
/-- Two posts, a message with the second token as an argument, a removal, and a post that comes too
late and takes no token. -/
theorem tokens_identify_barriers_of_two :
    let news : Message := { target := some ⟨0, "news"⟩, arg1 := 1 }
    let ts : List Turn := [.operate 0 (.postBarrier 5), .operate 0 (.enqueue news 5),
      .operate 0 (.postBarrier 6), .operate 0 (.removeBarrier 0), .operate 9 (.quit true),
      .operate 9 (.postBarrier 7)]
    let start : Queue := {}
    let q := start.turns ts
    let L := noteAll {} start ts
    let first : Entry := ⟨0, .barrier 0 5⟩
    let second : Entry := ⟨2, .barrier 1 6⟩
    let kept : Message := { news with due := 5, inUse := true }
    start.posted ts = [0, 1] ∧ L.posts = [first, second] ∧ q.pending = [kept, second.message] ∧
      L.FindsGone q 0 first ∧ L.TakesOut q 1 second ∧
      (q.removeBarrier 1).state.pending.filter (!·.isBarrier) = [kept] := by
  intro news ts start q L first second kept
  have htokens : start.posted ts = [0, 1] := by decide +kernel
  have hposts : L.posts = [first, second] := by decide +kernel
  have hpending : q.pending = [kept, second.message] := by decide +kernel
  have hline : L.line = [⟨1, kept⟩, second] := by decide +kernel
  obtain ⟨_, _, hothers, hfew⟩ := tokens_identify_barriers true ts
  obtain ⟨_, hremoved⟩ := hfew (by rw [htokens]; decide)
  have hfirst := hremoved 0 first 0 (by rw [hposts]; rfl) (by rw [htokens]; rfl)
  have hsecond := hremoved 1 second 1 (by rw [hposts]; rfl) (by rw [htokens]; rfl)
  rw [hline] at hfirst hsecond
  refine ⟨htokens, hposts, hpending, (hfirst.resolve_left fun h => ?_).2,
    (hsecond.resolve_right fun h => ?_).2, ?_⟩
  · exact absurd h.1 (by decide)
  · exact absurd h.1 (by decide)
  · rw [hothers 1, hpending]
    decide

end Agenda
