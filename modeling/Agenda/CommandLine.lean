import Agenda.Exercise
import Agenda.Json.Parser
import Agenda.Json.Printer

/-!
# The command line

Options are long: a flag stands alone, any other option is followed by its value, after an equals
sign or as the next argument. No option may be given twice, and there is nothing but options.
Arguments are read from the left, and the first one that decides, a call for help or a mistake,
wins.
-/

namespace Agenda.CommandLine

/-- What a command line asks for. -/
structure Request where
  options : Exercise.Options := {}
  /-- The file with the configuration. -/
  config : Option String := none
  deriving DecidableEq, Repr, Inhabited

/-- What comes of reading a command line. -/
inductive Parsed where
  | request (r : Request)
  | help
  | mistake
  deriving DecidableEq, Repr

/-- A number of 64 bits in decimal, perhaps with a plus sign. -/
def number? (s : String) : Option UInt64 :=
  let digits :=
    match s.toList with
    | '+' :: cs => cs
    | cs => cs
  if digits.isEmpty || !digits.all Text.isDigit then none
  else
    let n := Text.value digits
    if n ≤ lastTime.toNat then some (UInt64.ofNat n) else none

/-- An option by its name. A flag changes the request, any other option takes a value for that. -/
inductive Kind where
  | flag (set : Request → Request)
  | valued (set : String → Request → Option Request)

/-- An option with a number for its value. -/
def Kind.numeric (set : UInt64 → Exercise.Options → Exercise.Options) : Kind :=
  .valued fun v r => (number? v).map fun n => { r with options := set n r.options }

/-- An option that turns something on. -/
def Kind.switch (set : Exercise.Options → Exercise.Options) : Kind :=
  .flag fun r => { r with options := set r.options }

/-- All options but the call for help. -/
def kinds : List (String × Kind) :=
  [("producers", .numeric fun n o => { o with producers := n }),
    ("messages", .numeric fun n o => { o with messages := n }),
    ("max-delay-ms", .numeric fun n o => { o with maxDelay := n }),
    ("barrier-ms", .numeric fun n o => { o with barrier := some n }),
    ("mix-async", .switch fun o => { o with mixAsync := true }),
    ("quit-safely", .switch fun o => { o with quitSafely := true }),
    ("dump", .switch fun o => { o with dump := true }),
    ("config", .valued fun v r => if v.isEmpty then none else some { r with config := some v })]

/-- The name of a long option, and its value if it follows an equals sign. -/
def splitLong (cs : List Char) : String × Option String :=
  (String.ofList (cs.takeWhile (· ≠ '=')),
    match cs.dropWhile (· ≠ '=') with
    | [] => none
    | _ :: v => some (String.ofList v))

/-- An argument that can be a value: it is no option, and a single hyphen is none. -/
def isValue (arg : String) : Bool :=
  match arg.toList with
  | '-' :: _ :: _ => false
  | _ => true

/-- Reads arguments. The options in `seen` were given before. -/
def read (seen : List String) (r : Request) : List String → Parsed
  | [] => .request r
  | arg :: args =>
    match arg.toList with
    | ['-', '-'] => if args.isEmpty then .request r else .mistake
    | '-' :: '-' :: cs =>
      let (name, attached) := splitLong cs
      if name = "help" then (if attached.isNone then .help else .mistake)
      else if seen.contains name then .mistake
      else
        match kinds.lookup name, attached, args with
        | some (.flag set), none, args => read (name :: seen) (set r) args
        | some (.valued set), some v, args =>
          match set v r with
          | some r => read (name :: seen) r args
          | none => .mistake
        | some (.valued set), none, v :: args =>
          match if isValue v then set v r else none with
          | some r => read (name :: seen) r args
          | none => .mistake
        | _, _, _ => .mistake
    | '-' :: 'h' :: _ => .help
    | _ => .mistake

/-- Reads a command line. -/
def parse (args : List String) : Parsed :=
  read [] {} args

/-- What the program finds where it runs. -/
structure Machine where
  /-- The content of the file at a path, if there is one and it can be read. -/
  file : String → Option ByteArray
  /-- The size of the memory in bytes. -/
  memory : Nat := 34359738368
  /-- The number of threads that can be started before the first of them is waited for. The stack
  of each takes two of the mappings that a program may have. -/
  threads : Nat := 65530 / 2

/-- Why an exercise ends early. -/
inductive Failure where
  /-- The file with the configuration cannot be read. -/
  | unreadable (path : String)
  /-- The file does not hold a configuration. -/
  | notConfig
  /-- No thread can have the loop's name. -/
  | badName (name : String)
  /-- A list of so many producers has no size in bytes. -/
  | tooManyProducers (n : UInt64)
  /-- A list of so many producers has a size, but there is no such memory. -/
  | outOfMemory
  /-- There is room for the list of producers, but not all of them can be started. -/
  | outOfThreads
  /-- The loop's queue refuses to quit. -/
  | refused (r : Refusal)
  deriving Repr

/-- The exit code for a failure. A program that runs out of memory is stopped without one. -/
def Failure.exitCode : Failure → Option UInt32
  | .unreadable _ | .notConfig | .outOfThreads | .refused _ => some 1
  | .badName _ | .tooManyProducers _ => some 101
  | .outOfMemory => none

/-- The configuration of an exercise for which none is given. -/
def defaultConfig : Config :=
  { name := "demo-looper" }

/-- The configuration that a file holds. -/
def configOf? (content : ByteArray) : Option Config := do
  Config.ofJson? (← Json.parse? (← String.fromUTF8? content))

/-- The configuration that a request names. -/
def loadConfig (m : Machine) (r : Request) : Except Failure Config :=
  match r.config with
  | none => .ok defaultConfig
  | some path =>
    match m.file path with
    | none => .error (.unreadable path)
    | some content =>
      match configOf? content with
      | some c => .ok c
      | none => .error .notConfig

/-- The size of the handle that is kept of each producer, in bytes. -/
def handleSize : Nat := 24

/-- The largest size of a list in bytes. -/
def largestList : Nat := 9223372036854775807

/-- Sees to it that an exercise can be set up: that the loop's thread can be named, that there is
room for the producers' handles, and that all producers can be started. -/
def setUp (m : Machine) (c : Config) (o : Exercise.Options) : Except Failure Unit :=
  let producers := o.producers.toNat
  if !c.namesThread then .error (.badName c.name)
  else if largestList < handleSize * producers then .error (.tooManyProducers o.producers)
  else if m.memory < handleSize * producers then .error .outOfMemory
  else if m.threads < producers then .error .outOfThreads
  else .ok ()

/-- What a request comes to: the dump, if one was taken, and the report. -/
def Request.run (m : Machine) (r : Request) : Option Dump × Except Failure Exercise.Report :=
  match loadConfig m r with
  | .error e => (none, .error e)
  | .ok c =>
    match setUp m c r.options with
    | .error e => (none, .error e)
    | .ok () =>
      let (dump, report) := Exercise.run c r.options
      (dump, report.mapError .refused)

end Agenda.CommandLine
