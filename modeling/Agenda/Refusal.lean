import Agenda.Message.Text

/-!
# Refusals

Why an operation on a queue is refused. Sending to a queue that is quitting is no refusal: work that
arrives during a shutdown is expected, and the answer says that it was not taken.
-/

namespace Agenda

/-- A reason to refuse an operation. -/
inductive Refusal where
  /-- A message without a target cannot be sent. -/
  | noTarget
  /-- A message that a queue has taken cannot be sent again. -/
  | inUse (m : Message)
  /-- The queue was made never to quit. -/
  | quitForbidden
  /-- No pending barrier has this token. -/
  | noBarrier (token : Token)
  deriving DecidableEq, Repr

/-- The wording of a refusal. -/
def Refusal.message : Refusal → String
  | .noTarget => "invalid argument: message must have a target"
  | .inUse m => "invalid state: " ++ m.text ++ " is already in use"
  | .quitForbidden => "invalid state: this queue is not allowed to quit"
  | .noBarrier token =>
    "sync barrier " ++ Text.number token.toInt ++ " has not been posted or has already been removed"

end Agenda
