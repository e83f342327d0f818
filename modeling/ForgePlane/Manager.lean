import ForgePlane.Threads
import ForgePlane.Wire

/-!
# Power actions and container events

A power action holds the lock of a server's record from its first check to its end, while Docker's events
queue up; the watcher needs the lock for each of them. A single flag, `ExpectedStop`, tells a requested exit
from a crash.
-/

namespace ForgePlane.Manager

/-! ## The record of a server -/

inductive Signal where
  | start
  | stop
  | restart
  | kill
  deriving DecidableEq, Repr

inductive RunningAction where
  | install
  | power (signal : Signal)
  deriving DecidableEq, Repr

inductive PowerState where
  | offline
  | starting
  | running
  | stopping
  deriving DecidableEq, Repr

structure ServerState where
  powerState : PowerState := .offline
  installing : Bool := false
  runningAction : Option RunningAction := none
  rootDir : String := ""
  stopType : String := ""
  stopValue : String := ""
  diskLimitBytes : Int := 0
  configurationSynced : Bool := false
  expectedStop : Bool := false
  lastCrash : Option Nat := none
  suspended : Bool := false
  containerExists : Bool := false
  deriving DecidableEq, Repr

structure Settings where
  crashDetectionEnabled : Bool := true
  crashCooldown : Nat := 60
  detectCleanExitAsCrash : Bool := false
  liveConsole : Bool := true
  deriving DecidableEq, Repr

/-! ## Power actions -/

inductive Call where
  | diskUsage
  | start
  | signal (name : String)
  | kill
  | sendConsole (command : String)
  | waitForStop
  deriving DecidableEq, Repr

abbrev Resp : Call → Type
  | .diskUsage => Except Err Nat
  | .start => Except Err Unit
  | .signal _ => Except Err Unit
  | .kill => Except Err Unit
  | .sendConsole _ => Except Err Unit
  | .waitForStop => Except Err Unit

abbrev Action := Prog Resp

def call (c : Call) : Action (Resp c) := .call c .ret

def contains (message part : List Char) : Bool := message.tails.any fun rest => part.isPrefixOf rest

def isContainerMissing (e : Err) : Bool :=
  let message := e.toList.map Char.toLower
  contains message "no such container".toList || contains message "not found".toList

variable (settings : Settings)

/-- The checks before a start; the ownership of the files and a refresh from the panel, which
no server is set up for, are left out. -/
def onBeforeStart (st : ServerState) : Action (Except Err Unit) := do
  if st.installing then pure (.error "server is installing")
  else if st.suspended then pure (.error "server is suspended")
  else if !st.configurationSynced then pure (.error "server configuration has not been synced")
  else if st.rootDir = "" then pure (.error "server root directory is unknown")
  else if st.diskLimitBytes ≤ 0 then pure (.ok ())
  else
    match ← call .diskUsage with
    | .error e => pure (.error e)
    | .ok usage => pure (if st.diskLimitBytes < usage then .error "server disk usage exceeds limit" else .ok ())

def stopServer (st : ServerState) : Action (Except Err Unit) := do
  let stopType := trimSpace st.stopType
  let stopValue := trimSpace st.stopValue
  if stopType = "command" && stopValue ≠ "" then
    if !settings.liveConsole then pure (.error "configured stop command requires a live console")
    else
      match ← call (.sendConsole stopValue) with
      | .error e => pure (.error ("send stop command: " ++ e))
      | .ok _ => call .waitForStop
  else
    let name := if stopType = "signal" && stopValue ≠ "" then (if equalFold stopValue "C" then "SIGINT" else stopValue) else "SIGTERM"
    if stopType = "signal" && equalFold name "SIGKILL" then call .kill
    else
      match ← call (.signal name) with
      | .error e => pure (.error e)
      | .ok _ => call .waitForStop

def ending (st : ServerState) (done : ServerState) : Except Err Unit → Except Err Unit × ServerState
  | .ok _ => (.ok (), done)
  | .error e => (.error e, if isContainerMissing e then { st with powerState := .offline } else st)

def performStart (st : ServerState) : Action (Except Err Unit × ServerState) := do
  match ← onBeforeStart st with
  | .error e => pure (.error e, st)
  | .ok _ =>
    let st := { st with powerState := .starting, expectedStop := false }
    pure (ending st { st with powerState := .running, containerExists := true } (← call .start))

def performStop (st : ServerState) (takeDown : Action (Except Err Unit)) : Action (Except Err Unit × ServerState) := do
  let st := { st with powerState := .stopping, expectedStop := true }
  pure (ending st { st with powerState := .offline } (← takeDown))

def performRestart (st : ServerState) : Action (Except Err Unit × ServerState) := do
  match ← onBeforeStart st with
  | .error e => pure (.error e, st)
  | .ok _ =>
    let st := { st with powerState := .stopping, expectedStop := true }
    match ← stopServer settings st with
    | .error e => pure (ending st st (.error e))
    | .ok _ => pure (ending st { st with powerState := .running, expectedStop := false } (← call .start))

def perform (signal : Signal) (st : ServerState) : Action (Except Err Unit × ServerState) :=
  match signal with
  | .start => performStart st
  | .stop => performStop st (stopServer settings st)
  | .restart => performRestart settings st
  | .kill => performStop st (call .kill)

def unmark (signal : Signal) (st : ServerState) : ServerState :=
  if st.runningAction = some (.power signal) then { st with runningAction := none } else st

def handlePower (signal : Signal) (st : ServerState) : Action (Except Err Unit × ServerState) := do
  if st.runningAction.isSome then pure (.error "another server action is already running", st)
  else if st.installing then pure (.error "server is installing", st)
  else
    let (r, st) ← perform settings signal { st with runningAction := some (.power signal) }
    pure (r, unmark signal st)

/-! ## Container events -/

inductive EventAction where
  | start
  | die
  | oom
  | stop
  | other
  deriving DecidableEq, Repr

/-- An event of the server's container. `requested` is not part of the event: it tells whether
the exit it reports came while a stop, restart or kill was in progress or because of one. -/
structure ContainerEvent where
  action : EventAction
  exitCode : Int := 0
  oomKilled : Bool := false
  requested : Bool := false
  deriving DecidableEq, Repr

def isExitEvent : EventAction → Bool
  | .die | .oom | .stop => true
  | _ => false

def looksCrashed (e : ContainerEvent) : Bool :=
  settings.crashDetectionEnabled && (e.oomKilled || e.exitCode ≠ 0 || settings.detectCleanExitAsCrash)

def coolingDown (now : Nat) (st : ServerState) : Bool :=
  decide (0 < settings.crashCooldown) && st.lastCrash.any fun t => decide (now < t + settings.crashCooldown)

/-- `HandleContainerEvent` under the lock; the answer is whether it goes on to call the crash
handler and to start the server. -/
def handleContainerEvent (now : Nat) (e : ContainerEvent) (st : ServerState) : ServerState × Bool :=
  if e.action = .start then
    ({ st with containerExists := true, powerState := .running, expectedStop := false }, false)
  else if !isExitEvent e.action then (st, false)
  else if st.expectedStop then
    ({ st with powerState := .offline, expectedStop := false, runningAction := none }, false)
  else if !looksCrashed settings e || coolingDown settings now st then
    ({ st with powerState := .offline, runningAction := none }, false)
  else ({ st with lastCrash := some now, powerState := .offline, runningAction := none }, true)

/-! ## The daemon and its container -/

/-- `doomed`: the container still runs but was told to stop. `restarting`: the watcher has
reported a crash and is about to start the server. -/
structure Node where
  state : ServerState := {}
  action : Option (Signal × Action (Except Err Unit × ServerState)) := none
  running : Bool := false
  doomed : Bool := false
  events : List ContainerEvent := []
  restarting : Bool := false
  usage : Nat := 0
  clock : Nat := 0

namespace Node

def stopping (n : Node) : Bool :=
  match n.action with
  | none | some (.start, _) => false
  | some _ => true

def effect (n : Node) : Call → Node
  | .start => if n.running then n else { n with running := true, doomed := false, events := n.events ++ [{ action := .start }] }
  | .signal _ | .kill | .sendConsole _ | .waitForStop => { n with doomed := n.running }
  | .diskUsage => n

def succeeds (n : Node) : (c : Call) → Resp c
  | .diskUsage => .ok n.usage
  | .start => .ok ()
  | .signal _ => .ok ()
  | .kill => .ok ()
  | .sendConsole _ => .ok ()
  | .waitForStop => .ok ()

def fails (e : Err) : (c : Call) → Resp c
  | .diskUsage => .error e
  | .start => .error e
  | .signal _ => .error e
  | .kill => .error e
  | .sendConsole _ => .error e
  | .waitForStop => .error e

def answer (n : Node) (c : Call) : Outcome → Option (Resp c × Node)
  | .delivered => if c = .waitForStop ∧ n.running = true then none else some (n.succeeds c, n.effect c)
  | .lost e => some (fails e c, n)
  | .ambiguous e => some (fails e c, n.effect c)

end Node

structure ExitEvent where
  action : EventAction
  exitCode : Int
  oomKilled : Bool
  deriving DecidableEq, Repr

inductive Label where
  | power (signal : Signal)
  | act (o : Outcome)
  | release
  | exit (caused : Bool) (first : ExitEvent) (more : List ExitEvent)
  | deliver
  | autostart
  | tick (d : Nat)
  deriving DecidableEq, Repr

def ExitEvent.valid (e : ExitEvent) : Bool := isExitEvent e.action

namespace Node

def start (n : Node) (signal : Signal) : Node :=
  match handlePower settings signal n.state with
  | .ret (_, st) => { n with state := st }
  | p => { n with action := some (signal, p) }

def request (n : Node) (signal : Signal) : Node := if n.action.isSome then n else n.start settings signal

def exit (n : Node) (caused : Bool) (events : List ExitEvent) : Node :=
  { n with
    running := false
    doomed := false
    events := n.events ++ events.map fun e => ⟨e.action, e.exitCode, e.oomKilled, caused || n.stopping⟩ }

def next (n : Node) : Label → Option Node
  | .power signal => some (n.request settings signal)
  | .act o =>
    match n.action with
    | some (signal, .call c k) => (n.answer c o).map fun a => { a.2 with action := some (signal, k a.1) }
    | _ => none
  | .release =>
    match n.action with
    | some (_, .ret (_, st)) => some { n with state := st, action := none }
    | _ => none
  | .exit caused first more =>
    if n.running && (!caused || n.doomed) && (first :: more).all ExitEvent.valid then some (n.exit caused (first :: more)) else none
  | .deliver =>
    if n.action.isSome || n.restarting then none
    else
      match n.events with
      | [] => none
      | e :: rest =>
        let handled := handleContainerEvent settings n.clock e n.state
        some { n with state := handled.1, events := rest, restarting := handled.2 }
  | .autostart => if n.restarting then some { n.request settings .start with restarting := false } else none
  | .tick d => some { n with clock := n.clock + d }

end Node

end ForgePlane.Manager
