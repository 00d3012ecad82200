import Agenda.Json.Parser
import Agenda.Json.Printer
import Agenda.Proofs.Text.Decimal
import Mathlib.Data.Option.Basic

/-!
# What is written as JSON is read back

A value is `Plain` when it has no number that is not whole and no text that cannot be decoded.  The
compact form of a plain value is read back as that value (`parse?_compact`).

The readers take a part from the front of a longer text, so each lemma says what is read from a
written part followed by some `rest`, and that `rest` is left.  Only a number can be continued by
what follows it; `Stops rest` says that `rest` does not do that.  The bound of a reader counts items
as well as levels, and the length of what was written is always enough: each level has its brackets
and each item but the last one its comma.
-/

namespace Agenda.Json

open Agenda.Text (digits decimal digit isDigit)

/-! ### Quotations -/

/-- The piece by which a character is shown inside a quotation. -/
def Piece.of (c : Char) : Piece :=
  if c.toNat < 32 ∧ c ∉ ['\x08', '\x0c', '\n', '\r', '\t'] then .code c.toNat else .char c

theorem hexCode?_of_lt {n : Nat} (h : n < 256) :
    hexCode? '0' '0' (digit (n / 16)) (digit (n % 16)) = some n := by
  have hzero : Agenda.Text.hexValue? '0' = some 0 := by decide
  simp only [hexCode?, hzero, Agenda.Text.hexValue?_digit (show n / 16 < 16 by omega),
    Agenda.Text.hexValue?_digit (Nat.mod_lt n (by omega : 16 > 0))]
  show some (((0 * 16 + 0) * 16 + n / 16) * 16 + n % 16) = some n
  congr 1
  omega

theorem pieces?_code {n : Nat} (h : n < 256) (cs : List Char) :
    pieces? ('\\' :: 'u' :: '0' :: '0' :: digit (n / 16) :: digit (n % 16) :: cs)
      = (pieces? cs).map (Prod.map (.code n :: ·) id) := by
  rw [pieces?, hexCode?_of_lt h, Option.map_eq_bind]
  rfl

theorem pieces?_letter {e c : Char} (h : letterEscape? e = some c) (cs : List Char) :
    pieces? ('\\' :: e :: cs) = (pieces? cs).map (Prod.map (.char c :: ·) id) := by
  rw [pieces?, h, Option.map_eq_bind]
  · rfl
  · rintro _ _ _ _ _ rfl
    cases h

theorem pieces?_char {c : Char} (h : 32 ≤ c.toNat) (hquote : c ≠ '"') (hslash : c ≠ '\\')
    (cs : List Char) : pieces? (c :: cs) = (pieces? cs).map (Prod.map (.char c :: ·) id) := by
  rw [pieces?.eq_5 c cs hquote (fun _ _ _ _ _ hc => absurd hc hslash)
    (fun _ _ hc => absurd hc hslash), guard, if_pos ⟨h, hslash⟩, Option.map_eq_bind]
  rfl

/-- Each character is read as its own piece. -/
theorem pieces?_escapeChar (c : Char) (cs : List Char) :
    pieces? (escapeChar c ++ cs) = (pieces? cs).map (Prod.map (Piece.of c :: ·) id) := by
  unfold escapeChar
  split
  iterate 7 exact pieces?_letter rfl cs
  rename_i hquote hslash hb hf hn hr ht
  by_cases hc : c.toNat < 32
  · have hof : Piece.of c = .code c.toNat := by
      rw [Piece.of, if_pos]
      simpa using ⟨hc, hb, hf, hn, hr, ht⟩
    rw [if_pos hc, hof]
    exact pieces?_code (by omega) cs
  · have hof : Piece.of c = .char c := by
      rw [Piece.of, if_neg (fun h => hc h.1)]
    rw [if_neg hc, hof]
    exact pieces?_char (by omega) hquote hslash cs

theorem join?_code {n : Nat} (h : n < 0xD800) (ps : List Piece) :
    join? (.code n :: ps) = (join? ps).map (Char.ofNat n :: ·) := by
  have hhigh : isHighHalf n = false := by
    simp [isHighHalf]
    omega
  have hlow : isLowHalf n = false := by
    simp [isLowHalf]
    omega
  cases ps with
  | nil => simp [join?, hhigh, hlow]
  | cons p ps => cases p <;> simp [join?, hhigh, hlow]

theorem join?_of (c : Char) (ps : List Piece) :
    join? (Piece.of c :: ps) = (join? ps).map (c :: ·) := by
  unfold Piece.of
  split
  · rw [join?_code (by omega), Char.ofNat_toNat]
  · rw [join?]

/-- The inside of a written text is read as the text. -/
theorem text?_inside (s : String) (rest : List Char) :
    text? ((Text.plain s).inside ++ '"' :: rest) = some (.plain s, rest) := by
  have hpieces : ∀ cs : List Char,
      pieces? (cs.flatMap escapeChar ++ '"' :: rest) = some (cs.map Piece.of, rest) := by
    intro cs
    induction cs with
    | nil => rw [List.flatMap_nil, List.nil_append, pieces?, List.map_nil]
    | cons c cs ih =>
      rw [List.flatMap_cons, List.append_assoc, pieces?_escapeChar, ih]
      rfl
  have hjoin : ∀ cs : List Char, join? (cs.map Piece.of) = some cs := by
    intro cs
    induction cs with
    | nil => rw [List.map_nil, join?]
    | cons c cs ih => rw [List.map_cons, join?_of, ih, Option.map_some]
  simp [text?, Text.inside, hpieces, hjoin]

/-! ### Numbers -/

/-- The text does not go on with a digit, a fraction or an exponent. -/
def Stops (rest : List Char) : Prop :=
  ∀ c ∈ rest.head?, isDigit c = false ∧ c ≠ '.' ∧ c ≠ 'e' ∧ c ≠ 'E'

theorem stops_nil : Stops [] := by
  simp [Stops]

theorem stops_cons {c : Char} (h : c = ',' ∨ c = ']' ∨ c = '\x7d') (rest : List Char) :
    Stops (c :: rest) := by
  intro d hd
  obtain rfl : c = d := by simpa using hd
  rcases h with rfl | rfl | rfl <;> decide

theorem someDigits?_digits (n : Nat) {rest : List Char} (hrest : Stops rest) :
    someDigits? (digits 10 n ++ rest) = some (digits 10 n, rest) := by
  have hall : ∀ c ∈ digits 10 n, isDigit c = true := fun c hc =>
    Agenda.Text.isDigit_of_mem_digits hc
  have htake : rest.takeWhile isDigit = [] ∧ rest.dropWhile isDigit = rest := by
    cases rest with
    | nil => exact ⟨rfl, rfl⟩
    | cons c rest => simp [(hrest c rfl).1]
  rw [someDigits?, List.takeWhile_append_of_pos hall, List.dropWhile_append_of_pos hall, htake.1,
    htake.2, List.append_nil]
  simp [Agenda.Text.digits_ne_nil]

theorem fraction?_of_stops {rest : List Char} (hrest : Stops rest) :
    fraction? rest = some ([], rest) := by
  cases rest with
  | nil => rfl
  | cons c rest => simp [fraction?, (hrest c rfl).2.1]

theorem exponent?_of_stops {rest : List Char} (hrest : Stops rest) :
    exponent? rest = some ([], rest) := by
  cases rest with
  | nil => rfl
  | cons c rest =>
    obtain ⟨-, -, he, hE⟩ := hrest c rfl
    rw [exponent?, if_neg (by simp [he, hE])]

theorem whole?_digits (n : Nat) {rest : List Char} (hrest : Stops rest) :
    whole? (digits 10 n ++ rest) = some (digits 10 n, rest) := by
  have hlead : digits 10 n = ['0'] ∨ (digits 10 n).head? ≠ some '0' := by
    by_cases hn : n = 0
    · exact Or.inl (hn ▸ Agenda.Text.digits_of_lt (by omega))
    · exact Or.inr (Agenda.Text.head?_digits hn)
  rw [whole?, someDigits?_digits n hrest]
  show Option.bind (guard (_ ∨ _)) _ = _
  rw [guard, if_pos hlead]
  rfl

theorem magnitude?_digits {negative : Bool} {n : Nat} (h : negative = true → n ≠ 0)
    {rest : List Char} (hrest : Stops rest) :
    magnitude? negative (digits 10 n ++ rest)
      = some (.int (if negative then -n else n), rest) := by
  simpa [magnitude?, whole?_digits n hrest, fraction?_of_stops hrest, exponent?_of_stops hrest,
    Agenda.Text.value_digits] using h

/-- A written number is read back. -/
theorem number?_decimal (n : Int) {rest : List Char} (hrest : Stops rest) :
    number? (decimal n ++ rest) = some (.int n, rest) := by
  unfold decimal
  split
  · rw [List.cons_append, number?, magnitude?_digits (fun _ => by omega) hrest, if_pos rfl]
    congr 3
    omega
  · obtain ⟨c, cs, hc, hcons⟩ := Agenda.Text.digits_eq_cons n.natAbs
    have hminus : c ≠ '-' := by
      rintro rfl
      exact absurd hc (by decide)
    rw [hcons, List.cons_append, number?]
    · rw [← List.cons_append, ← hcons, magnitude?_digits (by simp) hrest]
      simp
      omega
    · simpa using hminus

/-! ### Values -/

/-- A value without a number that is not whole and without a text that cannot be decoded. -/
inductive Plain : Json → Prop where
  | null : Plain .null
  | bool (b : Bool) : Plain (.bool b)
  | int (n : Int) : Plain (.int n)
  | str (s : String) : Plain (.str s)
  | array {items : List Json} (h : ∀ v ∈ items, Plain v) : Plain (.array items)
  | object {members : List (Text × Json)} (hkeys : ∀ m ∈ members, ∃ key, m.1 = .plain key)
      (hvalues : ∀ m ∈ members, Plain m.2) : Plain (.object members)

theorem render_str (s : String) : (str s).render = '"' :: ((Text.plain s).inside ++ ['"']) := by
  rw [str, render, Text.render, List.cons_append]

theorem skipBlanks_cons {c : Char} (h : isBlank c = false) (cs : List Char) :
    skipBlanks (c :: cs) = c :: cs := by
  rw [skipBlanks, List.dropWhile_cons_of_neg (by simp [h])]

/-- The characters that no number starts with: the blanks, the end of an array, and the first
characters of all other values. -/
def elsewhere : List Char :=
  [' ', '\t', '\n', '\r', ']', 'n', 't', 'f', '"', '[', '\x7b']

theorem decimal_eq_cons (n : Int) : ∃ c cs, c ∉ elsewhere ∧ decimal n = c :: cs := by
  unfold decimal
  split
  · exact ⟨'-', _, by decide, rfl⟩
  · obtain ⟨c, cs, hc, hcons⟩ := Agenda.Text.digits_eq_cons n.natAbs
    have hnone : elsewhere.all (fun d => !isDigit d) = true := by decide
    refine ⟨c, cs, fun hmem => ?_, hcons⟩
    simpa [hc] using List.all_eq_true.mp hnone c hmem

/-- A written value starts neither with a blank nor with the end of an array. -/
theorem Plain.render_eq_cons {v : Json} (h : v.Plain) :
    ∃ c cs, isBlank c = false ∧ c ≠ ']' ∧ v.render = c :: cs := by
  cases h with
  | null => exact ⟨'n', _, rfl, by decide, rfl⟩
  | bool b => cases b with
    | false => exact ⟨'f', _, rfl, by decide, rfl⟩
    | true => exact ⟨'t', _, rfl, by decide, rfl⟩
  | int n =>
    obtain ⟨c, cs, hc, hcons⟩ := decimal_eq_cons n
    refine ⟨c, cs, ?_, ?_, hcons⟩
    · simp only [elsewhere, List.mem_cons, not_or] at hc
      simp [isBlank, hc]
    · rintro rfl
      exact hc (by decide)
  | str s => exact ⟨'"', _, rfl, by decide, rfl⟩
  | array _ => exact ⟨'[', _, rfl, by decide, by rw [render]; rfl⟩
  | object _ _ => exact ⟨'\x7b', _, rfl, by decide, by rw [render]; rfl⟩

/-- The value is read from the front of a text that goes on with `rest`. -/
def ReadsBack (v : Json) : Prop :=
  ∀ (bound : Nat) (rest : List Char), v.render.length ≤ bound → Stops rest →
    value? bound (v.render ++ rest) = some (v, rest)

theorem value?_decimal (n : Int) (bound : Nat) {rest : List Char} (hrest : Stops rest) :
    value? (bound + 1) (decimal n ++ rest) = some (.int n, rest) := by
  have hread := number?_decimal n hrest
  obtain ⟨c, cs, hc, hcons⟩ := decimal_eq_cons n
  rw [hcons] at hread ⊢
  simp only [elsewhere, List.mem_cons, not_or] at hc
  rw [List.cons_append, value?, skipBlanks_cons (by simp [isBlank, hc])]
  split <;> simp_all

theorem value?_array {c : Char} (hblank : isBlank c = false) (hend : c ≠ ']') (bound : Nat)
    (cs : List Char) :
    value? (bound + 1) ('[' :: c :: cs)
      = (items? bound (c :: cs)).map fun (vs, rest) => (.array vs, rest) := by
  have hopen : isBlank '[' = false := rfl
  simp only [value?, skipBlanks_cons hopen, skipBlanks_cons hblank]
  split
  · rename_i heq
    exact absurd (List.cons.inj heq).1 hend
  · rfl

theorem value?_object (bound : Nat) (cs : List Char) :
    value? (bound + 1) ('\x7b' :: '"' :: cs)
      = (members? bound ('"' :: cs)).map fun (ms, rest) => (.object ms, rest) := by
  rfl

theorem separated_cons_cons (part next : List Char) (parts : List (List Char)) :
    separated (part :: next :: parts) = part ++ ',' :: separated (next :: parts) := by
  rw [separated]
  exact List.cons_ne_nil _ _

/-- Items that are read back one by one are read back as a list, up to the closing bracket. -/
theorem items?_separated {v : Json} {items : List Json} (hread : ∀ w ∈ v :: items, w.ReadsBack)
    (bound : Nat) (hlen : (separated (renderItems (v :: items))).length < bound)
    (rest : List Char) :
    items? bound (separated (renderItems (v :: items)) ++ ']' :: rest)
      = some (v :: items, rest) := by
  induction items generalizing v bound with
  | nil =>
    obtain _ | bound := bound
    · omega
    · have hv := hread v List.mem_cons_self bound (']' :: rest)
      rw [renderItems, renderItems, separated] at hlen ⊢
      rw [items?, hv (by omega) (stops_cons (by decide) rest)]
      rfl
  | cons w items ih =>
    obtain _ | bound := bound
    · omega
    · have hv := hread v List.mem_cons_self bound
        (',' :: (separated (renderItems (w :: items)) ++ ']' :: rest))
      have hrest := ih (fun u hu => hread u (List.mem_cons_of_mem v hu)) bound
      rw [renderItems, renderItems, separated_cons_cons, ← renderItems, List.length_append,
        List.length_cons] at hlen
      rw [renderItems, renderItems, separated_cons_cons, ← renderItems, List.append_assoc,
        List.cons_append, items?, hv (by omega) (stops_cons (by decide) _)]
      show ((items? bound _).map _) = _
      rw [hrest (by omega), Option.map_some]

/-- What follows a member decides how to go on. -/
theorem members?_member {key : String} {v : Json} {bound : Nat} {after : List Char}
    (hv : value? bound (v.render ++ after) = some (v, after)) :
    members? (bound + 1) ((Text.plain key).render ++ ':' :: v.render ++ after)
      = match skipBlanks after with
        | ',' :: rest =>
          (members? bound rest).map fun (ms, rest) => ((.plain key, v) :: ms, rest)
        | '\x7d' :: rest => some ([(.plain key, v)], rest)
        | _ => none := by
  rw [Text.render, List.append_assoc, List.append_assoc, List.singleton_append, List.cons_append,
    members?, skipBlanks_cons rfl]
  show ((text? _).bind _) = _
  rw [List.cons_append, text?_inside, Option.bind_some]
  show ((value? bound _).bind _) = _
  rw [hv]
  rfl

/-- And so are members, whose keys are read with them. -/
theorem members?_separated {m : Text × Json} {members : List (Text × Json)}
    (hkeys : ∀ n ∈ m :: members, ∃ key, n.1 = .plain key)
    (hread : ∀ n ∈ m :: members, n.2.ReadsBack)
    (bound : Nat) (hlen : (separated (renderMembers (m :: members))).length < bound)
    (rest : List Char) :
    members? bound (separated (renderMembers (m :: members)) ++ '\x7d' :: rest)
      = some (m :: members, rest) := by
  induction members generalizing m bound with
  | nil =>
    obtain _ | bound := bound
    · omega
    · obtain ⟨t, v⟩ := m
      obtain ⟨key, rfl⟩ : ∃ key, t = .plain key := hkeys _ List.mem_cons_self
      have hv : v.ReadsBack := hread _ List.mem_cons_self
      rw [renderMembers, renderMembers, separated] at hlen ⊢
      rw [List.length_append, List.length_cons] at hlen
      rw [members?_member (hv bound _ (by omega) (stops_cons (by decide) rest))]
      rfl
  | cons n members ih =>
    obtain _ | bound := bound
    · omega
    · obtain ⟨t, v⟩ := m
      obtain ⟨key, rfl⟩ : ∃ key, t = .plain key := hkeys _ List.mem_cons_self
      have hv : v.ReadsBack := hread _ List.mem_cons_self
      have hrest := ih (fun u hu => hkeys u (List.mem_cons_of_mem _ hu))
        (fun u hu => hread u (List.mem_cons_of_mem _ hu)) bound
      obtain ⟨part, parts, hparts⟩ : ∃ part parts,
          renderMembers (n :: members) = part :: parts := ⟨_, _, rfl⟩
      rw [hparts] at hrest
      rw [renderMembers, hparts, separated_cons_cons] at hlen ⊢
      rw [List.length_append, List.length_append, List.length_cons, List.length_cons] at hlen
      rw [List.append_assoc, List.cons_append,
        members?_member (hv bound _ (by omega) (stops_cons (by decide) _))]
      show ((members? bound _).map _) = _
      rw [hrest (by omega), Option.map_some]

theorem Plain.separated_eq_cons {v : Json} (h : v.Plain) (items : List Json) :
    ∃ c cs, isBlank c = false ∧ c ≠ ']' ∧ separated (renderItems (v :: items)) = c :: cs := by
  obtain ⟨c, cs, hblank, hend, hcons⟩ := h.render_eq_cons
  cases items with
  | nil => exact ⟨c, cs, hblank, hend, by rw [renderItems, renderItems, separated, hcons]⟩
  | cons w items =>
    refine ⟨c, cs ++ ',' :: separated (renderItems (w :: items)), hblank, hend, ?_⟩
    rw [renderItems, renderItems, separated_cons_cons, hcons, List.cons_append, ← renderItems]

theorem separated_renderMembers_eq_cons (m : Text × Json) (members : List (Text × Json)) :
    ∃ cs, separated (renderMembers (m :: members)) = '"' :: cs := by
  obtain ⟨t, v⟩ := m
  cases members with
  | nil => exact ⟨_, by rw [renderMembers, renderMembers, separated]; rfl⟩
  | cons n members => exact ⟨_, by rw [renderMembers, renderMembers, separated_cons_cons]; rfl⟩

/-- Nothing is written without a character, so the bound is never 0. -/
theorem Plain.readsBack_of_succ {v : Json} (h : v.Plain)
    (hread : ∀ (bound : Nat) (rest : List Char), v.render.length ≤ bound + 1 → Stops rest →
      value? (bound + 1) (v.render ++ rest) = some (v, rest)) : v.ReadsBack := by
  obtain ⟨c, cs, -, -, hcons⟩ := h.render_eq_cons
  intro bound rest hlen hrest
  cases bound with
  | zero => simp [hcons] at hlen
  | succ bound => exact hread bound rest hlen hrest

/-- **A plain value is read back from its compact form, whatever follows.** -/
theorem Plain.readsBack {v : Json} (h : v.Plain) : v.ReadsBack := by
  induction h with
  | null => exact Plain.null.readsBack_of_succ fun _ _ _ _ => rfl
  | bool b =>
    refine (Plain.bool b).readsBack_of_succ fun _ _ _ _ => ?_
    cases b <;> rfl
  | int n =>
    refine (Plain.int n).readsBack_of_succ fun bound _ _ hrest => ?_
    rw [render]
    exact value?_decimal n bound hrest
  | str s =>
    refine (Plain.str s).readsBack_of_succ fun _ rest _ _ => ?_
    rw [render_str, List.cons_append, List.append_assoc, List.singleton_append]
    show (text? _).map _ = _
    rw [text?_inside]
    rfl
  | @array items hitems ih =>
    refine (Plain.array hitems).readsBack_of_succ fun bound rest hlen _ => ?_
    cases items with
    | nil => rfl
    | cons v items =>
      obtain ⟨c, cs, hblank, hend, hcons⟩ :=
        (hitems v List.mem_cons_self).separated_eq_cons items
      rw [render, List.length_append, List.length_cons, List.length_singleton] at hlen
      have hread := items?_separated ih bound (by omega) rest
      rw [hcons] at hread
      rw [render, hcons, List.append_assoc, List.singleton_append, List.cons_append,
        List.cons_append, value?_array hblank hend, ← List.cons_append, hread, Option.map_some]
  | @object members hkeys hmembers ih =>
    refine (Plain.object hkeys hmembers).readsBack_of_succ fun bound rest hlen _ => ?_
    cases members with
    | nil => rfl
    | cons m members =>
      obtain ⟨cs, hcons⟩ := separated_renderMembers_eq_cons m members
      rw [render, List.length_append, List.length_cons, List.length_singleton] at hlen
      have hread := members?_separated hkeys ih bound (by omega) rest
      rw [hcons] at hread
      rw [render, hcons, List.append_assoc, List.singleton_append, List.cons_append,
        List.cons_append, value?_object, ← List.cons_append, hread, Option.map_some]

/-- **The compact text of a plain value is read back as that value.** -/
theorem parse?_compact {v : Json} (h : v.Plain) : parse? v.compact = some v := by
  have hread := h.readsBack (2 * v.render.length + 2) [] (by omega) stops_nil
  rw [List.append_nil] at hread
  simp [parse?, compact, hread, skipBlanks]

-- a control character without a letter of its own, a quote and a line break
example : (array [.str "\x0b \"desk\"\n", .null, .int (-5)]).compact =
    "[\"\\u000b \\\"desk\\\"\\n\",null,-5]" := by
  decide +kernel

end Agenda.Json
