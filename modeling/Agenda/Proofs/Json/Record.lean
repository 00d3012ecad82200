import Agenda.Json.Record
import Agenda.Proofs.Json.RoundTrip
import Mathlib.Data.List.Nodup
import Mathlib.Data.List.Perm.Subperm

/-!
# Records are read back

An object that is written with one member for each key, the keys being different, is read as a
record of these fields (`fields?_record`).  An object may also give some of the fields, in any order
and among members of other names, and an array the first ones: then just these are read
(`fields?_record_subperm`, `fields?_array_take`).  What the readers of single fields get out of it
are the lemmas named after the reader and the writer, from `string?_str` to `list?_array`.
-/

namespace Agenda.Json

/-! ### Fields -/

variable {fields members : List (String × Json)} {key : String}

theorem Plain.record_of_forall (h : ∀ m ∈ members, m.2.Plain) : (record members).Plain := by
  refine Plain.object ?_ ?_ <;> intro member hmember <;>
    obtain ⟨m, hm, rfl⟩ := List.mem_map.mp hmember
  · exact ⟨m.1, rfl⟩
  · exact h m hm

theorem Plain.record {values : List Json} (h : ∀ v ∈ values, v.Plain) (keys : List String) :
    (record (keys.zip values)).Plain :=
  .record_of_forall fun _ hm => h _ (List.of_mem_zip hm).2

/-- The values of the fields, of which those with the given names are given. -/
def given (names : List String) (fields : List (String × Json)) : List (Option Json) :=
  fields.map fun field => if field.1 ∈ names then some field.2 else none

theorem occurrences_record (members : List (String × Json)) (key : String) :
    occurrences (members.map fun m => (.plain m.1, m.2)) key =
      (members.map Prod.fst).count key := by
  rw [occurrences, List.countP_map, List.count, List.countP_map]
  refine List.countP_congr fun m _ => ?_
  simp

theorem member?_record_of_notMem (h : key ∉ members.map Prod.fst) :
    member? (members.map fun m => (.plain m.1, m.2)) key = none := by
  rw [member?, Option.map_eq_none_iff, List.find?_eq_none]
  intro member hmember
  obtain ⟨m, hm, rfl⟩ := List.mem_map.mp hmember
  have hne : m.1 ≠ key := fun heq => h (heq ▸ List.mem_map_of_mem hm)
  simpa using hne

theorem exists_member?_record (h : key ∈ members.map Prod.fst) :
    ∃ v, (key, v) ∈ members ∧ member? (members.map fun m => (.plain m.1, m.2)) key = some v := by
  obtain ⟨m, hm, rfl⟩ := List.mem_map.mp h
  cases hfind : (members.map fun m => ((.plain m.1, m.2) : Text × Json)).find?
      (fun member => member.1 == .plain m.1) with
  | none =>
    have hnot := List.find?_eq_none.mp hfind _ (List.mem_map_of_mem hm)
    simp at hnot
  | some member =>
    obtain ⟨m', hm', rfl⟩ := List.mem_map.mp (List.mem_of_find?_eq_some hfind)
    have hkey : m'.1 = m.1 := by simpa using List.find?_some hfind
    refine ⟨m'.2, hkey ▸ hm', ?_⟩
    rw [member?, hfind, Option.map_some]

/-- **A record has the fields that are given**, in whatever order they stand and whatever stands
between them. -/
theorem fields?_record_subperm (hfields : (fields.map Prod.fst).Nodup)
    (h : (members.filter fun m => m.1 ∈ fields.map Prod.fst).Subperm fields) :
    (record members).fields? (fields.map Prod.fst) =
      some (given (members.map Prod.fst) fields) := by
  have honce : ∀ key ∈ fields.map Prod.fst, (members.map Prod.fst).count key ≤ 1 := by
    intro key hkey
    calc (members.map Prod.fst).count key
        = (members.filter fun m => m.1 ∈ fields.map Prod.fst).countP (·.1 == key) := by
          rw [List.count, List.countP_map, List.countP_filter]
          refine List.countP_congr fun m _ => ?_
          simp only [Function.comp_apply, beq_iff_eq, Bool.and_eq_true, decide_eq_true_eq]
          exact ⟨fun heq => ⟨heq, heq ▸ hkey⟩, And.left⟩
      _ ≤ fields.countP (·.1 == key) := h.countP_le _
      _ = (fields.map Prod.fst).count key := by rw [List.count, List.countP_map]; rfl
      _ ≤ 1 := List.nodup_iff_count.mp hfields key
  have hvalues : (fields.map Prod.fst).map (member? (members.map fun m => (.plain m.1, m.2)))
      = given (members.map Prod.fst) fields := by
    rw [List.map_map, given]
    refine List.map_congr_left fun field hfield => ?_
    by_cases hgiven : field.1 ∈ members.map Prod.fst
    · obtain ⟨v, hmem, hv⟩ := exists_member?_record hgiven
      have hknown : decide (field.1 ∈ fields.map Prod.fst) = true :=
        decide_eq_true (List.mem_map_of_mem hfield)
      have hsame : (field.1, v) = field :=
        List.inj_on_of_nodup_map hfields (h.subset (List.mem_filter.mpr ⟨hmem, hknown⟩)) hfield rfl
      rw [if_pos hgiven, Function.comp_apply, hv, ← congrArg Prod.snd hsame]
    · rw [if_neg hgiven, Function.comp_apply, member?_record_of_notMem hgiven]
  rw [record, fields?, if_pos, hvalues]
  rw [Bool.and_eq_true, List.all_eq_true, List.all_eq_true]
  refine ⟨fun member hmember => ?_, fun key hkey => ?_⟩
  · obtain ⟨m, -, rfl⟩ := List.mem_map.mp hmember
    rfl
  · rw [occurrences_record, decide_eq_true_eq]
    exact honce key hkey

theorem given_take (hfields : (fields.map Prod.fst).Nodup) (k : Nat) :
    given ((fields.map Prod.fst).take k) fields
      = ((fields.map Prod.snd).take k).map some ++ List.replicate (fields.length - k) none := by
  induction fields generalizing k with
  | nil => simp [given]
  | cons field fields ih =>
    obtain ⟨hfield, hrest⟩ := List.nodup_cons.mp hfields
    cases k with
    | zero => simp [given, List.replicate_succ]
    | succ k =>
      have hothers : given (field.1 :: (fields.map Prod.fst).take k) fields
          = given ((fields.map Prod.fst).take k) fields := by
        refine List.map_congr_left fun other hother => ?_
        have hne : other.1 ≠ field.1 := fun heq => hfield (heq ▸ List.mem_map_of_mem hother)
        simp [hne]
      have hrec := ih hrest k
      rw [← hothers] at hrec
      simpa [given] using hrec

/-- **An array has the first fields of a record**, as many as it has items. -/
theorem fields?_array_take (hfields : (fields.map Prod.fst).Nodup) (k : Nat) :
    (array ((fields.map Prod.snd).take k)).fields? (fields.map Prod.fst)
      = some (given ((fields.map Prod.fst).take k) fields) := by
  have hlen : ((fields.map Prod.snd).take k).length = min k fields.length := by
    rw [List.length_take, List.length_map]
  have hmissing : (fields.map Prod.fst).length - ((fields.map Prod.snd).take k).length
      = fields.length - k := by
    rw [hlen, List.length_map]
    omega
  have hshort : ((fields.map Prod.snd).take k).length ≤ (fields.map Prod.fst).length := by
    rw [hlen, List.length_map]
    omega
  rw [fields?, if_pos hshort, hmissing, given_take hfields k]

/-- **A record has the fields that it was written with.** -/
theorem fields?_record {keys : List String} {values : List Json} (hkeys : keys.Nodup)
    (hlen : keys.length = values.length) :
    (Json.record (keys.zip values)).fields? keys = some (values.map some) := by
  have hfst : (keys.zip values).map Prod.fst = keys := List.map_fst_zip hlen.le
  have hsnd : (keys.zip values).map Prod.snd = values := List.map_snd_zip hlen.ge
  have hall : given keys (keys.zip values) = values.map some := by
    calc given keys (keys.zip values)
        = (keys.zip values).map fun field => some field.2 :=
          List.map_congr_left fun field hfield => if_pos (List.of_mem_zip hfield).1
      _ = ((keys.zip values).map Prod.snd).map some := List.map_map.symm
      _ = values.map some := by rw [hsnd]
  have hrecord : (record (keys.zip values)).fields? ((keys.zip values).map Prod.fst)
      = some (given ((keys.zip values).map Prod.fst) (keys.zip values)) :=
    fields?_record_subperm (by rwa [hfst]) List.filter_sublist.subperm
  rwa [hfst, hall] at hrecord

/-- A record in which a field is given twice is refused. -/
theorem fields?_eq_none {keys : List String} {members : List (Text × Json)} (hkey : key ∈ keys)
    (h : 2 ≤ occurrences members key) : (object members).fields? keys = none := by
  rw [fields?, if_neg]
  intro hall
  rw [Bool.and_eq_true, List.all_eq_true, List.all_eq_true] at hall
  have honce := of_decide_eq_true (hall.2 key hkey)
  omega

theorem withDefault_ite {α : Type} {read? : Json → Option α} {v : Json} {a : α} (default : α)
    (h : read? v = some a) (p : Prop) [Decidable p] :
    withDefault read? default (if p then some v else none) = some (if p then a else default) := by
  by_cases hp : p
  · rw [if_pos hp, if_pos hp, withDefault, h]
  · rw [if_neg hp, if_neg hp, withDefault]

/-! ### Single fields -/

theorem string?_str (s : String) : (str s).string? = some s := rfl

theorem bool?_bool (b : Bool) : (bool b).bool? = some b := rfl

theorem int32?_int (n : Int32) : (int n.toInt).int32? = some n := by
  have hlo := n.le_toInt
  have hhi := n.toInt_lt
  rw [int32?, int?, if_pos (by omega), Option.map_some, Int32.ofInt_toInt]

theorem int64?_int (n : Int64) : (int n.toInt).int64? = some n := by
  have hlo := n.le_toInt
  have hhi := n.toInt_lt
  rw [int64?, int?, if_pos (by omega), Option.map_some, Int64.ofInt_toInt]

theorem uint64?_nat (n : UInt64) : (nat n.toNat).uint64? = some n := by
  have hhi := n.toNat_lt
  rw [uint64?, nat, int?, if_pos (by omega), Option.map_some, Int.toNat_natCast,
    UInt64.ofNat_toNat]

/-- A value that is not written as null is read back from where it may be absent. -/
theorem option?_option {α : Type} {write : α → Json} {read? : Json → Option α}
    (hnull : ∀ a, write a ≠ .null) (hread : ∀ a, read? (write a) = some a) (o : Option α) :
    option? read? (option write o) = some o := by
  cases o with
  | none => rfl
  | some a =>
    rw [option, option?]
    · rw [hread, Option.map_some]
    · exact hnull a

theorem Plain.option {α : Type} {write : α → Json} (h : ∀ a, (write a).Plain) (o : Option α) :
    (Json.option write o).Plain := by
  cases o with
  | none => exact Plain.null
  | some a => exact h a

theorem list?_array {α : Type} {write : α → Json} {read? : Json → Option α}
    (hread : ∀ a, read? (write a) = some a) (l : List α) :
    list? read? (.array (l.map write)) = some l := by
  rw [list?]
  induction l with
  | nil => rfl
  | cons a l ih =>
    rw [List.map_cons, List.mapM_cons, hread, ih]
    rfl

end Agenda.Json
