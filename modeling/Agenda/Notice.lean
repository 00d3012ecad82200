import Agenda.Message.Text

/-!
# Notices

What a queue and the loop that drains it report to a log.
-/

namespace Agenda

/-- How much a notice matters. -/
inductive Level where
  | error
  | warn
  | info
  | debug
  | trace
  deriving DecidableEq, Repr

/-- The name of a level. -/
def Level.name : Level → String
  | .error => "ERROR"
  | .warn => "WARN"
  | .info => "INFO"
  | .debug => "DEBUG"
  | .trace => "TRACE"

/-- A report. -/
inductive Notice where
  /-- A message for this target came too late. -/
  | deadTarget (name : String)
  /-- A barrier came too late. -/
  | lateBarrier
  | barrierPosted (token : Token) (due : Time)
  | barrierRemoved (token : Token)
  | dispatching (m : Message)
  | disposed
  | quitting (safe : Bool) (discarded remaining : Nat)
  /-- An idle handler did not return. -/
  | idleFault (reason : String)
  | loopStarted (name : String)
  | slowDelivery (name target : String) (what : Int32) (late : UInt64)
  | slowDispatch (name target : String) (what : Int32) (took : Nat)
  | loopEnded (name : String) (dispatched : Nat)
  deriving DecidableEq, Repr

namespace Notice

/-- The level of a notice. -/
def level : Notice → Level
  | .idleFault _ => .error
  | .deadTarget _ | .lateBarrier | .slowDelivery .. | .slowDispatch .. => .warn
  | .disposed | .quitting .. | .loopStarted _ | .loopEnded .. => .debug
  | .barrierPosted .. | .barrierRemoved _ | .dispatching _ => .trace

/-- The part of a loop's warning that says which message it is about. -/
def about (name kind target : String) (what : Int32) : String :=
  "looper " ++ name ++ ": slow " ++ kind ++ " to " ++ target ++ " what=" ++ Text.number what.toInt

/-- The wording of a notice. -/
def text : Notice → String
  | .deadTarget name => name ++ " sending message to a handler on a dead thread"
  | .lateBarrier => "sync barrier posted to a queue that is quitting"
  | .barrierPosted token due =>
    "posted sync barrier " ++ Text.number token.toInt ++ " at " ++ Text.number due.toNat
  | .barrierRemoved token => "removed sync barrier " ++ Text.number token.toInt
  | .dispatching m => "dispatching " ++ m.text
  | .disposed => "message queue quit and disposed"
  | .quitting safe discarded remaining =>
    "quitting message queue (safe=" ++ Text.truth safe ++ ", discarded=" ++ Text.number discarded
      ++ ", remaining=" ++ Text.number remaining ++ ")"
  | .idleFault reason => "idle handler faulted: " ++ reason
  | .loopStarted name => "looper " ++ name ++ " started"
  | .slowDelivery name target what late =>
    about name "delivery" target what ++ " (" ++ Text.number late.toNat ++ "ms late)"
  | .slowDispatch name target what took =>
    about name "dispatch" target what ++ " took " ++ Text.number took ++ "ms"
  | .loopEnded name dispatched =>
    "looper " ++ name ++ " exited after " ++ Text.number dispatched ++ " messages"

/-- A line of the log. -/
def line (n : Notice) : String :=
  n.level.name ++ " " ++ n.text

end Notice

end Agenda
