import Agenda.Json

/-!
# Records in JSON

A record is written as an object with one member per field. Members of other names are skipped, a
field that is named twice is refused. A record may also be written as an array of its fields in
order; then the last fields may be missing.
-/

namespace Agenda.Json

/-- How often a key stands among the members of an object. -/
def occurrences (members : List (Text × Json)) (key : String) : Nat :=
  members.countP fun member => member.1 == .plain key

/-- The value of the first member with a key. -/
def member? (members : List (Text × Json)) (key : String) : Option Json :=
  (members.find? fun member => member.1 == .plain key).map Prod.snd

/-- The fields of a record, in the order of `keys`; a field that is not given is `none`. -/
def fields? (keys : List String) : Json → Option (List (Option Json))
  | .object members =>
    if members.all (fun member => member.1 matches .plain _)
        && keys.all (fun key => occurrences members key ≤ 1) then
      some (keys.map (member? members))
    else none
  | .array items =>
    if items.length ≤ keys.length then
      some (items.map some ++ List.replicate (keys.length - items.length) none)
    else none
  | _ => none

/-- A field that has to be given. -/
def required {α : Type} (f : Json → Option α) (field : Option Json) : Option α :=
  field.bind f

/-- A field that takes a value of its own when it is not given. -/
def withDefault {α : Type} (f : Json → Option α) (default : α) : Option Json → Option α
  | none => some default
  | some v => f v

end Agenda.Json
