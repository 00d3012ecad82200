import Agenda.Parker
import Agenda.Scenario

/-!
# Running a scenario

A scenario is run step by step. Steps that are done by a target, a callback, an idle handler or
during a park are nested in the step that led to them; they may lead to further steps, down to a
fixed depth. What happens is reported as events, in order.
-/

namespace Agenda.Scenario

/-- How a park ended. -/
inductive ParkEnd where
  /-- It was immediate. -/
  | poll
  /-- A notification was pending. -/
  | notified
  /-- Steps were done while it lasted. -/
  | script
  /-- The scenario has nothing more that could end it, so the call is given up. -/
  | abort
  deriving DecidableEq, Repr

/-- The answer to a step. -/
inductive Answer where
  | done
  | nothing
  | truth (b : Bool)
  | time (t : Time)
  | message (m : Message)
  | text (s : String)
  | result (r : Operation.Result)
  | size (n : Nat) (isEmpty : Bool)
  | dump (d : Dump)
  | handler (h : Handler)
  /-- The call for a message slept for good. -/
  | blocked (timeout : Timeout)
  | ran (loop : Loop)
  /-- The loop slept for good. -/
  | runBlocked (name : String) (timeout : Timeout)
  /-- The step was nested too deep and not done. -/
  | tooDeep
  /-- No message is kept under the name. -/
  | noMessage
  /-- The step was given up before its end, which its bounds rule out. -/
  | unfinished
  deriving Repr

/-- Something that happened. -/
inductive Event where
  /-- The parker was notified. -/
  | notify
  | park (timeout : Timeout) (how : ParkEnd)
  /-- A target got a message. -/
  | dispatch (target : Target) (m : Message)
  | run (callback : Callback)
  | idle (h : IdleHandler)
  /-- A nested step was done. -/
  | step (a : Answer)
  deriving Repr

/-- The state of a scenario. Events and notices are kept newest first. -/
structure World where
  queue : Queue
  now : Time
  parker : Parker := {}
  /-- The length of the park in which steps are done. -/
  parkLength : Time := 0
  registers : List (Register × Message) := []
  /-- How often each target has noted a message. -/
  noted : Array Nat := #[]
  /-- How often each callback has run. -/
  called : Array Nat := #[]
  /-- How often each idle handler has run. -/
  idled : Array Nat := #[]
  /-- How often each idle handler has returned. -/
  idleReturns : Array Nat := #[]
  events : List Event := []
  notices : List Notice := []

/-- A part of the run of a scenario. -/
abbrev Run := StateM World

/-- Reports an event. -/
def emit (e : Event) : Run Unit :=
  modify fun w => { w with events := e :: w.events }

/-- Reports notices, in order. -/
def note (ns : List Notice) : Run Unit :=
  modify fun w => { w with notices := ns.reverse ++ w.notices }

/-- Does an operation on the queue, with all its effects. -/
def apply {α : Type} (operation : Queue → Reply Queue α) : Run α := do
  let reply := operation (← get).queue
  modify fun w => { w with queue := reply.state }
  note reply.notices
  if reply.wakes then
    modify fun w => { w with parker := w.parker.notify.1 }
    emit .notify
  return reply.value

/-- The message that is kept under a name. -/
def kept? (name : Register) : Run (Option Message) :=
  return (← get).registers.lookup name

/-- Keeps a message under a name. -/
def put (name : Register) (m : Message) : Run Unit :=
  modify fun w =>
    { w with registers := (name, m) :: w.registers.filter fun entry => entry.1 != name }

/-- Takes the message that is kept under a name. -/
def take? (name : Register) : Run (Option Message) := do
  let m ← kept? name
  modify fun w => { w with registers := w.registers.filter fun entry => entry.1 != name }
  return m

/-- One more in a row of counts. -/
def increment (counts : Array Nat) (i : Nat) : Array Nat :=
  let counts := counts ++ Array.replicate (i + 1 - counts.size) 0
  counts.modify i (· + 1)

/-- Does the steps of a body that has run `before` times. -/
def perform (nested : List Step → Run Unit) (b : Body) (before : Nat) : Run Unit := do
  if before < b.times then nested b.steps

/-- A target notes a message. -/
def noteMessage (p : Plan) (nested : List Step → Run Unit) (target : Target) (m : Message) :
    Run Unit := do
  emit (.dispatch target m)
  put "cur" m
  let before := (← get).noted.getD target.id 0
  modify fun w => { w with noted := increment w.noted target.id }
  perform nested (p.actors.getD target.id {}).body before

/-- A callback runs. -/
def runCallback (p : Plan) (nested : List Step → Run Unit) (c : Callback) : Run Unit := do
  emit (.run c)
  let before := (← get).called.getD c 0
  modify fun w => { w with called := increment w.called c }
  perform nested (p.callbacks.getD c {}) before

/-- A target gets a message. -/
def dispatchTo (p : Plan) (nested : List Step → Run Unit) (target : Target) (m : Message) :
    Run Unit :=
  match (p.actors.getD target.id {}).role, m.callback with
  | .listener, some c | .poster, some c => runCallback p nested c
  | .poster, none => pure ()
  | .plain, _ | .listener, none => noteMessage p nested target m

/-- The answer of an idle handler that has returned `before` times. -/
def IdleActor.answer (a : IdleActor) (before : Nat) : IdleOutcome :=
  match a.fault with
  | some cause => .fault cause
  | none => if (a.keep[before]?.or a.keep.getLast?).getD true then .keep else .drop

/-- An idle handler runs. -/
def runIdle (p : Plan) (nested : List Step → Run Unit) (h : IdleHandler) : Run IdleOutcome := do
  emit (.idle h)
  let actor := p.idleActors.getD h {}
  let before := (← get).idled.getD h 0
  modify fun w => { w with idled := increment w.idled h }
  perform nested actor.body before
  let returns := (← get).idleReturns.getD h 0
  if actor.fault.isNone then
    modify fun w => { w with idleReturns := increment w.idleReturns h }
  return actor.answer returns

/-- The handlers of an idle pass run one after the other. -/
def idlePass (p : Plan) (nested : List Step → Run Unit) : List IdleHandler → Run Unit
  | [] => pure ()
  | h :: rest => do
    let outcome ← runIdle p nested h
    discard <| apply fun q => q.afterIdle h rest outcome
    idlePass p nested rest

/-- The length of a park whose end is open. -/
def Timeout.length : Timeout → Time
  | .millis n => n
  | _ => 0

/-- The steps that are done while the consumer waits. -/
def whileParked (nested : List Step → Run Unit) (timeout : Timeout) (steps : List Step) :
    Run Unit := do
  let before ← get
  modify fun w => { w with
    parker := { w.parker with parked := true }, parkLength := Timeout.length timeout }
  nested steps
  modify fun w => { w with
    parker := { w.parker with parked := before.parker.parked }, parkLength := before.parkLength }

/-- The consumer parks. The answer has the parks that remain, or none if this one never ends. -/
def park (nested : List Step → Run Unit) (timeout : Timeout) (parks : List (List Step)) :
    Run (Option (List (List Step))) := do
  let taken := modify fun w => { w with parker := { w.parker with notified := false } }
  if timeout = .immediate then
    emit (.park timeout .poll)
    taken
    return some parks
  else if (← get).parker.notified then
    emit (.park timeout .notified)
    taken
    return some parks
  else
    match parks with
    | steps :: parks =>
      emit (.park timeout .script)
      whileParked nested timeout steps
      taken
      return some parks
    | [] =>
      emit (.park timeout .abort)
      return none

/-- How a call for a message ended. -/
inductive Fetched where
  | message (m : Message)
  /-- The queue has quit. -/
  | over
  /-- The call slept for good. -/
  | asleep (timeout : Timeout)
  | unfinished
  deriving Repr

/-- Brings a call for a message to its end. The answer has the parks that remain. -/
def finish (p : Plan) (nested : List Step → Run Unit) :
    (bound : Nat) → Call → List (List Step) → Run (Fetched × List (List Step))
  | 0, _, parks => return (.unfinished, parks)
  | _, .returned (some m), parks => return (.message m, parks)
  | _, .returned none, parks => return (.over, parks)
  | bound + 1, .awake settled, parks => do
    let now := (← get).now
    finish p nested bound (← apply fun q => q.scan now settled) parks
  | bound + 1, .idle batch, parks => do
    idlePass p nested batch
    finish p nested bound (← apply Queue.endIdlePass) parks
  | bound + 1, .parking timeout settled, parks => do
    match ← park nested timeout parks with
    | some parks => finish p nested bound (.awake settled) parks
    | none => return (.asleep timeout, parks)

/-- Calls for the next message. A call polls twice at most and has one idle pass at most; every
other park uses up one of `parks`. -/
def fetch (p : Plan) (nested : List Step → Run Unit) (parks : List (List Step)) :
    Run (Fetched × List (List Step)) := do
  finish p nested (2 * parks.length + 8) (← get).queue.call parks

/-- Runs a loop until its queue has quit. -/
def runLoop (p : Plan) (nested : List Step → Run Unit) :
    (bound : Nat) → Loop → List (List Step) → Run Answer
  | 0, _, _ => return .unfinished
  | bound + 1, loop, parks => do
    match ← fetch p nested parks with
    | (.message m, parks) =>
      match m.target with
      | none => runLoop p nested bound loop parks
      | some target =>
        let (loop, notices) := loop.deliver (← get).now target m
        note notices
        dispatchTo p nested target m
        let (loop, notices) := loop.dispatched 0 target m
        note notices
        runLoop p nested bound loop parks
    | (.over, _) =>
      note [loop.ended]
      return .ran loop
    | (.asleep timeout, _) => return .runBlocked loop.name timeout
    | (.unfinished, _) => return .unfinished

/-- Uses a message that is kept under a name. -/
def withKept (name : Register) (f : Message → Run Answer) : Run Answer := do
  match ← kept? name with
  | some m => f m
  | none => return .noMessage

/-- Does an operation on the queue; its choice may depend on the clock. -/
def operate (op : Time → Operation) : Run Answer := do
  let now := (← get).now
  return .result (← apply fun q => q.perform now (op now))

/-- Takes a message that is kept under a name, and does an operation with it. -/
def operateWith (name : Register) (op : Time → Message → Operation) : Run Answer := do
  match ← take? name with
  | some m => operate fun now => op now m
  | none => return .noMessage

/-- Some pending message is accepted by a filter. -/
def pendingFor (f : Filter) : Run Answer :=
  return .truth ((← get).queue.has f)

/-- Does a step through a handler. -/
def HandlerStep.exec (h : Handler) : HandlerStep → Run Answer
  | .info => return .handler h
  | .send name => operateWith name h.send
  | .sendDelayed name delay => operateWith name fun now m => h.sendDelayed now m delay
  | .sendAt name due => operateWith name fun _ m => h.sendAt m due
  | .sendFront name => operateWith name fun _ m => h.sendFront m
  | .sendCode what => operate fun now => h.sendCode now what
  | .post c => operate fun now => h.post now c
  | .postDelayed c delay => operate fun now => h.postDelayed now c delay
  | .postAt c due => operate fun _ => h.postAt c due
  | .postFront c => operate fun _ => h.postFront c
  | .remove what => operate fun _ => .remove (h.coded what)
  | .removeCarrying what object => operate fun _ => .remove (h.codedCarrying what object)
  | .removePosts c => operate fun _ => .remove (h.posts c)
  | .removeAll object => operate fun _ => .remove (h.everything object)
  | .has what => pendingFor (h.coded what)
  | .hasPosts c => pendingFor (h.posts c)

/-- Does a step; steps that it leads to are left to `nested`. -/
def Step.exec (p : Plan) (nested : List Step → Run Unit) : Step → Run Answer
  | .now => return .time (← get).now
  | .advance d => do
    modify fun w => { w with now := Clock.advance w.now d }
    return .time (← get).now
  | .set t => do
    modify fun w => { w with now := Clock.set w.now t }
    return .time (← get).now
  | .elapse => do
    modify fun w => { w with now := w.now + w.parkLength }
    return .time (← get).now
  | .keep name m => do
    put name m
    return .message m
  | .edit name changes => withKept name fun m => do
    put name (m.edits changes)
    return .message (m.edits changes)
  | .clone name copy => withKept name fun m => do
    put copy m
    return .message m
  | .duplicate name copy => withKept name fun m => do
    put copy m.duplicate
    return .message m.duplicate
  | .text name => withKept name fun m => return .text m.text
  | .dispatch name => withKept name fun m =>
    match m.target with
    | some target => do
      dispatchTo p nested target m
      return .done
    | none => return .nothing
  | .accepts f name => withKept name fun m => return .truth (f.accepts m)
  | .enqueue name due => operateWith name fun _ m => .enqueue m due
  | .operation op => operate fun _ => op
  | .next parks name => do
    match ← fetch p nested parks with
    | (.message m, _) =>
      put name m
      return .message m
    | (.over, _) => return .nothing
    | (.asleep timeout, _) => return .blocked timeout
    | (.unfinished, _) => return .unfinished
  | .run config parks => do
    let loop := Loop.ofConfig config
    note [loop.started]
    runLoop p nested p.messageBound loop parks
  | .has f => pendingFor f
  | .idling => do
    let w ← get
    return .truth (w.queue.isIdling w.parker.parked)
  | .quitting => return .truth (← get).queue.quitting
  | .size => do
    let q := (← get).queue
    return .size q.size q.isEmpty
  | .dump => do
    let w ← get
    return .dump (w.queue.dump w.now w.parker.parked)
  | .handler h step => step.exec h

/-- Does nested steps, at most `depth` levels deep, and reports the answer to each. -/
def nestedSteps (p : Plan) : (depth : Nat) → List Step → Run Unit
  | 0, steps => steps.forM fun _ => emit (.step .tooDeep)
  | depth + 1, steps => steps.forM fun step => do
    emit (.step (← step.exec p (nestedSteps p depth)))

/-- How deep steps may be nested. -/
def depthLimit : Nat := 6

/-- What one step of a scenario came to, with the queue as it was left. -/
structure Report where
  answer : Answer
  events : List Event
  notices : List Notice
  /-- The number of pending messages. -/
  size : Nat
  dump : Dump

/-- Does one step and reports on it. -/
def report (p : Plan) (w : World) (step : Step) : Report × World :=
  let fresh := { w with events := [], notices := [] }
  let (answer, w) := (step.exec p (nestedSteps p depthLimit)).run fresh
  ({ answer, events := w.events.reverse, notices := w.notices.reverse, size := w.queue.size
     dump := w.queue.dump w.now w.parker.parked }, w)

/-- The reports on some steps, done from a given state on. -/
def reports (p : Plan) (w : World) : List Step → List Report
  | [] => []
  | step :: steps =>
    let (r, w) := report p w step
    r :: reports p w steps

/-- Runs a scenario. -/
def Plan.run (p : Plan) : List Report :=
  reports p { queue := { quittable := p.quittable }, now := p.start } p.steps

end Agenda.Scenario
