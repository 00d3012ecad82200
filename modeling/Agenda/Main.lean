import Agenda.CommandLine

/-!
# The program

Runs the exercise that the command line asks for, and prints its report as JSON.
-/

namespace Agenda.Main

/-- The answer to a call for help. -/
def help : String :=
  "Exercise a message looper from producer threads\n\n"
    ++ "Usage: looper-demo [OPTIONS]\n\n"
    ++ "Options:\n"
    ++ "      --producers <PRODUCERS>        Number of producer threads [default: 4]\n"
    ++ "      --messages <MESSAGES>          Messages sent by each producer [default: 250]\n"
    ++ "      --max-delay-ms <MAX_DELAY_MS>  Upper bound for per-message delays, in milliseconds "
    ++ "[default: 50]\n"
    ++ "      --barrier-ms <BARRIER_MS>      Hold synchronous messages behind a sync barrier "
    ++ "for this long\n"
    ++ "      --mix-async                    Send every other message through an asynchronous "
    ++ "handler\n"
    ++ "      --quit-safely                  Quit safely (finish due messages) instead of "
    ++ "discarding pending work\n"
    ++ "      --dump                         Print the queue dump just before quitting\n"
    ++ "      --config <CONFIG>              JSON file with the configuration of the looper\n"
    ++ "  -h, --help                         Print help\n"

/-- The wording of a failure. -/
def describe : CommandLine.Failure → String
  | .unreadable path => "Error: Os, cannot read " ++ path
  | .notConfig => "Error: Error, not a configuration"
  | .badName name => "the thread name " ++ Text.quoted name ++ " has a null character"
  | .tooManyProducers n => "no room for " ++ Text.number n.toNat ++ " producers"
  | .outOfMemory => "memory allocation failed"
  | .outOfThreads => "Error: Os, cannot start another thread"
  | .refused r => "Error: InvalidState, " ++ r.message

/-- The content of the configuration file of a request, if it can be read. -/
def readConfig (r : CommandLine.Request) : IO (Option ByteArray) := do
  match r.config with
  | none => return none
  | some path =>
    try
      return some (← IO.FS.readBinFile path)
    catch _ => return none

/-- Runs a request. -/
def run (r : CommandLine.Request) : IO UInt32 := do
  let content ← readConfig r
  let (dump, report) := r.run { file := fun _ => content }
  if let some d := dump then
    IO.println d.toJson.pretty
  match report with
  | .ok report =>
    IO.println report.toJson.pretty
    return 0
  | .error e =>
    IO.eprintln (describe e)
    return e.exitCode.getD 134

end Agenda.Main

def main (args : List String) : IO UInt32 := do
  match Agenda.CommandLine.parse args with
  | .help =>
    IO.print Agenda.Main.help
    return 0
  | .mistake =>
    IO.eprintln "error: invalid arguments\n\nFor more information, try '--help'."
    return 2
  | .request r => Agenda.Main.run r
