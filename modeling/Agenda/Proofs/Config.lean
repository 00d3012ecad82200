import Agenda.CommandLine
import Agenda.Proofs.Json.Record

/-!
# Part of a configuration

A configuration may be given in part.  `overlay` lays the given fields over the defaults; that is
what is read from an object with these fields, in any order and among members of other names, and
from an array of the first fields (`given_fields_lie_over_defaults`).  A threshold or a core that is
given as null is given: it is off, whatever its default.

Both shapes come down to one list of fields (`Json.given`), from which `ofFields?` reads the overlay
field by field (`ofFields?_given`).
-/

namespace Agenda

theorem Priority.ofJson?_toJson (p : Priority) : ofJson? p.toJson = some p := by
  cases p <;> decide

theorem CommandLine.configOf?_toUTF8 (text : String) :
    configOf? text.toUTF8 = (Json.parse? text).bind Config.ofJson? := by
  have htext : String.fromUTF8? text.toUTF8 = some text := dif_pos text.isValidUTF8
  rw [configOf?, htext]
  rfl

namespace Config

open CommandLine (configOf?)

/-- The fields of a configuration with these names, laid over the defaults. -/
def overlay (c : Config) (names : List String) : Config :=
  let base : Config := {}
  { name := if "name" ∈ names then c.name else base.name
    quittable := if "quit_allowed" ∈ names then c.quittable else base.quittable
    priority := if "priority" ∈ names then c.priority else base.priority
    core := if "core" ∈ names then c.core else base.core
    slowDispatch :=
      if "slow_dispatch_threshold_ms" ∈ names then c.slowDispatch else base.slowDispatch
    slowDelivery :=
      if "slow_delivery_threshold_ms" ∈ names then c.slowDelivery else base.slowDelivery }

theorem overlay_keys (c : Config) : c.overlay keys = c := by
  simp [overlay, keys]

theorem keys_nodup : keys.Nodup := by
  decide

theorem values_plain (c : Config) : ∀ v ∈ c.values, v.Plain := by
  have hnumber : ∀ n : Option UInt64, (Json.option (Json.nat ·.toNat) n).Plain :=
    .option fun _ => .int _
  simp only [values, List.forall_mem_cons]
  exact ⟨.str _, .bool _, .str _, hnumber _, hnumber _, hnumber _, by simp⟩

/-- A number that may be absent is read back. -/
theorem option?_nat (n : Option UInt64) :
    Json.option? Json.uint64? (Json.option (Json.nat ·.toNat) n) = some n :=
  Json.option?_option (fun _ => by simp [Json.nat]) Json.uint64?_nat n

/-- **The given fields are read over the defaults.** -/
theorem ofFields?_given (c : Config) (names : List String) :
    ofFields? (Json.given names (keys.zip c.values)) = some (c.overlay names) := by
  simp only [Json.given, keys, values, List.zip_cons_cons, List.zip_nil_right, List.map_cons,
    List.map_nil, ofFields?]
  rw [Json.withDefault_ite _ (Json.string?_str c.name),
    Json.withDefault_ite _ (Json.bool?_bool c.quittable),
    Json.withDefault_ite _ c.priority.ofJson?_toJson,
    Json.withDefault_ite _ (option?_nat c.core),
    Json.withDefault_ite _ (option?_nat c.slowDispatch),
    Json.withDefault_ite _ (option?_nat c.slowDelivery)]
  rfl

/-! ### Parts of a configuration -/

theorem ofJson?_record (c : Config) {members : List (String × Json)}
    (h : (members.filter fun m => m.1 ∈ keys).Subperm (keys.zip c.values)) :
    ofJson? (Json.record members) = some (c.overlay (members.map Prod.fst)) := by
  have hnodup : ((keys.zip c.values).map Prod.fst).Nodup := keys_nodup
  have hfields : (Json.record members).fields? keys
      = some (Json.given (members.map Prod.fst) (keys.zip c.values)) :=
    Json.fields?_record_subperm hnodup h
  rw [ofJson?, hfields, Option.bind_some, ofFields?_given]

theorem ofJson?_array (c : Config) (k : Nat) :
    ofJson? (Json.array (c.values.take k)) = some (c.overlay (keys.take k)) := by
  have hnodup : ((keys.zip c.values).map Prod.fst).Nodup := keys_nodup
  have hfields : (Json.array (c.values.take k)).fields? keys
      = some (Json.given (keys.take k) (keys.zip c.values)) :=
    Json.fields?_array_take hnodup k
  rw [ofJson?, hfields, Option.bind_some, ofFields?_given]

theorem ofJson?_toJson (c : Config) : ofJson? c.toJson = some c := by
  have hall : ofJson? c.toJson = some (c.overlay keys) :=
    c.ofJson?_record List.filter_sublist.subperm
  rw [hall, overlay_keys]

/-- **Given fields lie over the defaults.**  An object that gives some fields of a configuration, in
any order and among any members of other names, is read as these fields over the defaults, and so is
an array that gives the first fields; if the members of other names can be written, so can the
whole.  A configuration is read back from its own compact text.  An object that gives a field twice
is refused. -/
theorem given_fields_lie_over_defaults (c : Config) :
    (∀ members : List (String × Json),
      (members.filter fun m => m.1 ∈ keys).Subperm (keys.zip c.values) →
      (∀ text, Json.parse? text = some (.record members) →
        configOf? text.toUTF8 = some (c.overlay (members.map Prod.fst))) ∧
      ((∀ m ∈ members, m.1 ∉ keys → m.2.Plain) →
        Json.parse? (Json.record members).compact = some (.record members))) ∧
    (∀ k,
      (∀ text, Json.parse? text = some (.array (c.values.take k)) →
        configOf? text.toUTF8 = some (c.overlay (keys.take k))) ∧
      Json.parse? (Json.array (c.values.take k)).compact = some (.array (c.values.take k))) ∧
    configOf? c.toJson.compact.toUTF8 = some c ∧
    ∀ members : List (Json.Text × Json), ∀ key ∈ keys, 2 ≤ Json.occurrences members key →
      ∀ text, Json.parse? text = some (.object members) → configOf? text.toUTF8 = none := by
  have hread : ∀ {text : String} {v : Json} {r : Option Config}, Json.parse? text = some v →
      ofJson? v = r → configOf? text.toUTF8 = r := by
    intro text v r htext hv
    rw [CommandLine.configOf?_toUTF8, htext, Option.bind_some, hv]
  refine ⟨fun members hgiven => ⟨fun text htext => hread htext (c.ofJson?_record hgiven), ?_⟩,
    fun k => ⟨fun text htext => hread htext (c.ofJson?_array k), ?_⟩, ?_, ?_⟩
  · intro hothers
    refine Json.parse?_compact (.record_of_forall fun m hm => ?_)
    by_cases hkey : m.1 ∈ keys
    · have hfield := hgiven.subset (List.mem_filter.mpr ⟨hm, decide_eq_true hkey⟩)
      exact c.values_plain _ (List.of_mem_zip hfield).2
    · exact hothers m hm hkey
  · exact Json.parse?_compact (.array fun v hv => c.values_plain v (List.mem_of_mem_take hv))
  · exact hread (Json.parse?_compact (.record c.values_plain keys)) c.ofJson?_toJson
  · intro members key hkey htwice text htext
    refine hread htext ?_
    rw [ofJson?, Json.fields?_eq_none hkey htwice, Option.bind_none]

/-- A name and a threshold that is off, the other way round and among other members. -/
theorem given_fields_lie_over_defaults_of_two :
    configOf? (Json.record [("hue", .int 3), ("slow_delivery_threshold_ms", .null),
        ("name", .str "ui"), ("hue", .array [])]).compact.toUTF8
      = some { name := "ui", slowDelivery := none } := by
  let c : Config := { name := "ui", priority := .display, slowDelivery := none }
  have hlast : List.Sublist [("slow_delivery_threshold_ms", .null)] ((keys.zip c.values).drop 1) :=
    List.singleton_sublist.mpr (by simp [c, keys, values, Json.option])
  have hgiven : List.Subperm [("slow_delivery_threshold_ms", .null), ("name", .str "ui")]
      (keys.zip c.values) := ⟨_, .swap _ _ _, hlast.cons_cons _⟩
  obtain ⟨hread, hwritten⟩ := (given_fields_lie_over_defaults c).1 [("hue", .int 3),
    ("slow_delivery_threshold_ms", .null), ("name", .str "ui"), ("hue", .array [])] hgiven
  refine hread _ (hwritten fun m hm hother => ?_)
  simp only [List.mem_cons, List.not_mem_nil, or_false] at hm
  rcases hm with rfl | rfl | rfl | rfl
  · exact .int 3
  · exact .null
  · exact .str "ui"
  · exact .array (by simp)

example : (Json.parse? "\x7b\"core\": null, \"hue\": 1.5, \"name\": \"ui\"\x7d").bind ofJson?
    = some { name := "ui" } := by
  decide +kernel

end Config

end Agenda
