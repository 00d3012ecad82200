import Agenda.Json

/-!
# Priorities

The scheduling classes of a loop's thread, from background work to loops on which a display waits.
Each class has a nice value; a lower one is scheduled first.
-/

namespace Agenda

/-- A scheduling class. -/
inductive Priority where
  | lowest
  | background
  | default
  | foreground
  | display
  | urgentDisplay
  deriving DecidableEq, Repr, Inhabited

namespace Priority

/-- The nice value of a class. -/
def nice : Priority → Int
  | .lowest => 19
  | .background => 10
  | .default => 0
  | .foreground => -2
  | .display => -4
  | .urgentDisplay => -8

/-- Any thread may take a class that is less urgent than the default; only a privileged one may take
one that is more urgent. -/
def isOpenToAll (p : Priority) : Bool :=
  0 < p.nice

/-- All classes, the least urgent first. -/
def all : List Priority :=
  [.lowest, .background, .default, .foreground, .display, .urgentDisplay]

/-- The written name of a class. -/
def name : Priority → String
  | .lowest => "lowest"
  | .background => "background"
  | .default => "default"
  | .foreground => "foreground"
  | .display => "display"
  | .urgentDisplay => "urgent_display"

/-- The class with a name. -/
def ofName? (s : String) : Option Priority :=
  all.find? fun p => p.name == s

/-- A class is written by its name. -/
def toJson (p : Priority) : Json :=
  .str p.name

/-- A class is read from its name, or from an object whose only member has that name and is null. -/
def ofJson? : Json → Option Priority
  | .text (.plain s) => ofName? s
  | .object [(.plain s, .null)] => ofName? s
  | _ => none

end Priority

/-- Cores from this number on cannot be named in a set of cores. -/
def coreLimit : Nat := 1024

/-- Why a thread cannot be bound to a core. -/
inductive CoreRefusal where
  /-- Its number is too large for a set of cores. -/
  | beyondSet (core : Nat)
  /-- The machine has no such core. -/
  | absent
  deriving DecidableEq, Repr

/-- The wording of a refusal. -/
def CoreRefusal.message : CoreRefusal → String
  | .beyondSet core => "core " ++ Text.number core ++ " exceeds CPU_SETSIZE"
  | .absent => "Invalid argument (os error 22)"

/-- Binds a thread to a core of a machine that has `cores` of them. -/
def bindToCore (cores core : Nat) : Except CoreRefusal Unit :=
  if coreLimit ≤ core then .error (.beyondSet core)
  else if cores ≤ core then .error .absent
  else .ok ()

end Agenda
