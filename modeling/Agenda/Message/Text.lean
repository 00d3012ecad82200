import Agenda.Message
import Agenda.Text.Quoted

/-!
# The text of a message

One line that shows a message in diagnostics: a message for a target with its code or the mark of
its callback, a barrier with its token.
-/

namespace Agenda.Message

/-- The named fields that are shown, each with the text of its value. -/
def shownFields (m : Message) : List (String × String) :=
  let content :=
    match m.target with
    | some target =>
      [("target", Text.quoted target.name),
        if m.callback.isSome then ("callback", "true") else ("what", Text.number m.what.toInt),
        ("arg1", Text.number m.arg1.toInt), ("arg2", Text.number m.arg2.toInt)]
    | none => [("barrier", Text.number m.arg1.toInt)]
  [("when", Text.number m.due.toNat)] ++ content
    ++ [("asynchronous", Text.truth m.async), ("in_use", Text.truth m.inUse)]

/-- A message on one line, fields by name. -/
def text (m : Message) : String :=
  let fields := m.shownFields.map fun field => field.1 ++ ": " ++ field.2
  "Message \x7b " ++ ", ".intercalate fields ++ " \x7d"

end Agenda.Message
