import Agenda.Dump
import Agenda.Proofs.Json.Record

/-!
# Dumps are read back from their JSON

What `toJson` writes is a plain value and `ofJson?` reads it back, first for a summary and then for
a dump of any number of them.  The compact text of a dump therefore stands for that dump and for no
other (`json_round_trip`).
-/

namespace Agenda

namespace Summary

theorem toJson_plain (s : Summary) : s.toJson.Plain := by
  refine Json.Plain.record ?_ keys
  have htarget : (Json.option Json.str s.target).Plain := .option Json.Plain.str s.target
  simp only [List.forall_mem_cons]
  exact ⟨.int _, .int _, .int _, .int _, .int _, htarget, .bool _, .bool _, .bool _, by simp⟩

theorem ofJson?_toJson (s : Summary) : ofJson? s.toJson = some s := by
  have htarget : Json.option? Json.string? (Json.option Json.str s.target) = some s.target :=
    Json.option?_option (fun _ => by simp [Json.str]) Json.string?_str s.target
  rw [ofJson?, toJson, Json.fields?_record (by decide) rfl, Option.bind_some]
  simp [ofFields?, Json.required, Json.withDefault, Json.uint64?_nat, Json.int64?_int,
    Json.int32?_int, htarget, Json.bool?_bool]

end Summary

namespace Dump

theorem toJson_plain (d : Dump) : d.toJson.Plain := by
  refine Json.Plain.record ?_ keys
  have hmessages : ∀ v ∈ d.messages.map Summary.toJson, v.Plain := by
    intro v hv
    obtain ⟨s, -, rfl⟩ := List.mem_map.mp hv
    exact s.toJson_plain
  simp only [List.forall_mem_cons]
  exact ⟨.array hmessages, .bool _, .bool _, .int _, by simp⟩

theorem ofJson?_toJson (d : Dump) : ofJson? d.toJson = some d := by
  have hmessages := Json.list?_array Summary.ofJson?_toJson d.messages
  rw [ofJson?, toJson, Json.fields?_record (by decide) rfl, Option.bind_some]
  simp [ofFields?, Json.required, hmessages, Json.bool?_bool, Json.uint64?_nat]

/-- **A dump is read back from the compact text of its JSON, so two dumps never have the same
text.** -/
theorem json_round_trip :
    (∀ d : Dump, ∃ v, Json.parse? d.toJson.compact = some v ∧ ofJson? v = some d) ∧
      Function.Injective fun d : Dump => d.toJson.compact := by
  have hparse : ∀ d : Dump, Json.parse? d.toJson.compact = some d.toJson := fun d =>
    Json.parse?_compact d.toJson_plain
  refine ⟨fun d => ⟨d.toJson, hparse d, d.ofJson?_toJson⟩, ?_⟩
  intro d e (heq : d.toJson.compact = e.toJson.compact)
  have hjson : some d.toJson = some e.toJson := by
    rw [← hparse d, heq, hparse e]
  have hread : some d = some e := by
    rw [← d.ofJson?_toJson, Option.some.inj hjson, e.ofJson?_toJson]
  exact Option.some.inj hread

end Dump

end Agenda
