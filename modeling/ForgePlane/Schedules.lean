import ForgePlane.Table
import ForgePlane.Threads
import ForgePlane.Wire

/-!
# Schedules

Every panel process has a runner that looks for due schedules, takes a lease on one of them, starts a run and
works through its tasks; a user can start a run by hand. Identifiers of runs come from a counter, times are
seconds.
-/

namespace ForgePlane.Schedules

/-! ## Cron expressions -/

structure Cron where
  minute : String := "*"
  hour : String := "*"
  dayOfMonth : String := "*"
  month : String := "*"
  dayOfWeek : String := "*"
  deriving DecidableEq, Repr

def Cron.expression (c : Cron) : String :=
  String.intercalate " " ([c.minute, c.hour, c.dayOfMonth, c.month, c.dayOfWeek].map trimSpace)

/-- The parser of cron expressions, of which `Next` is taken to be right: what it answers
is an occurrence of the expression. -/
structure CronParser where
  occurs : String → Nat → Prop
  next : String → Nat → Except Err Nat
  next_occurs : ∀ {expression after t}, next expression after = .ok t → occurs expression t

/-! ## Tables -/

structure Task where
  id : String
  scheduleID : String
  sequence : Nat
  timeOffsetSeconds : Nat := 0
  continueOnFailure : Bool := true
  deriving DecidableEq, Repr

structure Schedule where
  id : String
  serverID : String
  name : String := ""
  cron : Cron := {}
  onlyWhenOnline : Bool := false
  enabled : Bool := true
  lastRunAt : Option Nat := none
  nextRunAt : Option Nat := none
  deriving DecidableEq, Repr

structure ScheduleRow extends Schedule where
  leaseOwner : Option String := none
  leaseExpiresAt : Option Nat := none
  deriving DecidableEq, Repr

inductive RunStatus where
  | running
  | success
  | failed
  | partlyFailed
  | skipped
  deriving DecidableEq, Repr

inductive Trigger where
  | scheduler
  | manual
  deriving DecidableEq, Repr

structure RunRow where
  id : Nat
  scheduleID : String
  serverID : String
  status : RunStatus := .running
  trigger : Trigger
  workerID : String
  error : Option Err := none
  leaseExpiresAt : Option Nat
  finishedAt : Option Nat := none
  deriving DecidableEq, Repr

structure DB where
  schedules : List ScheduleRow := []
  runs : List RunRow := []
  tasks : List Task := []
  online : List String := []
  nextRun : Nat := 0
  deriving DecidableEq, Repr

structure ClaimedSchedule where
  schedule : Schedule
  tasks : List Task
  runID : Nat
  workerID : String
  deriving DecidableEq, Repr

def scheduleLeaseDuration : Nat := 5 * 60

def before (t : Option Nat) (now : Nat) : Bool := t.any fun t => decide (t < now)

namespace DB

/-! ## Leases -/

def expire (now : Nat) (db : DB) : DB :=
  { db with
    runs := updateWhere (fun r => r.status = .running && before r.leaseExpiresAt now)
      (fun r => { r with status := .failed, error := some "worker lease expired before completion", finishedAt := some now }) db.runs
    schedules := updateWhere (fun s => before s.leaseExpiresAt now)
      (fun s => { s with leaseOwner := none, leaseExpiresAt := none }) db.schedules }

def awake (db : DB) (s : ScheduleRow) : Bool := !s.onlyWhenOnline || decide (s.serverID ∈ db.online)

def dueSchedule (db : DB) (at_ : Nat) : Option ScheduleRow :=
  let due := db.schedules.filter fun s =>
    s.enabled && s.nextRunAt.any (fun t => decide (t ≤ at_)) && s.leaseOwner.isNone && db.awake s
  due.find? fun s => due.all fun s' => decide (s.nextRunAt.getD 0 ≤ s'.nextRunAt.getD 0)

def splitManualKey (value : List Char) : String × String :=
  (String.ofList (value.takeWhile (· ≠ ':')), String.ofList ((value.dropWhile (· ≠ ':')).drop 1))

def manualSchedule (db : DB) (manualKey : String) : Option ScheduleRow :=
  let parts := splitManualKey manualKey.toList
  db.schedules.find? fun s => s.id = parts.1 && s.serverID = parts.2 && s.leaseOwner.isNone && db.awake s

def tasksOf (db : DB) (scheduleID : String) : List Task :=
  (db.tasks.filter fun t => t.scheduleID = scheduleID).insertionSort fun a b => a.sequence ≤ b.sequence

def take (db : DB) (s : ScheduleRow) (now : Nat) (workerID : String) (trigger : Trigger) : ClaimedSchedule × DB :=
  (⟨s.toSchedule, db.tasksOf s.id, db.nextRun, workerID⟩,
    { db with
      schedules := updateWhere (fun r => r.id = s.id)
        (fun r => { r with leaseOwner := some workerID, leaseExpiresAt := some (now + scheduleLeaseDuration) }) db.schedules
      runs := db.runs ++ [{ id := db.nextRun, scheduleID := s.id, serverID := s.serverID, trigger, workerID,
                            leaseExpiresAt := some (now + scheduleLeaseDuration) }]
      nextRun := db.nextRun + 1 })

/-- `claimSchedule` at the time `clock` of the database. Where no schedule is found the
transaction is rolled back, and with it the expiry of other leases. -/
def claimSchedule (db : DB) (clock now : Nat) (workerID : String) (trigger : Trigger) (manualKey : String) :
    Option ClaimedSchedule × DB :=
  let expired := db.expire clock
  match if manualKey = "" then expired.dueSchedule now else expired.manualSchedule manualKey with
  | none => (none, db)
  | some s => ((expired.take s now workerID trigger).1, (expired.take s now workerID trigger).2)

def claimDueSchedule (db : DB) (clock now : Nat) (workerID : String) : Option ClaimedSchedule × DB :=
  db.claimSchedule clock now workerID .scheduler ""

def claimManualSchedule (db : DB) (clock now : Nat) (workerID serverID scheduleID : String) : Option ClaimedSchedule × DB :=
  db.claimSchedule clock now workerID .manual (scheduleID ++ ":" ++ serverID)

def isRunning (c : ClaimedSchedule) (r : RunRow) : Bool :=
  r.id = c.runID && r.scheduleID = c.schedule.id && r.workerID = c.workerID && r.status = .running

def isLeased (c : ClaimedSchedule) (s : ScheduleRow) : Bool := s.id = c.schedule.id && s.leaseOwner = some c.workerID

/-- One statement: the lease of the schedule is moved whether or not the run is still running. -/
def extendScheduleLease (db : DB) (c : ClaimedSchedule) (until_ : Nat) : Except Err Unit × DB :=
  let mine : RunRow → Bool := fun r => r.id = c.runID && r.workerID = c.workerID && r.status = .running
  let leased := db.schedules.any (isLeased c)
  (if leased && db.runs.any mine then .ok () else .error "schedule lease is no longer owned by this worker",
    { db with
      schedules := updateWhere (isLeased c) (fun s => { s with leaseExpiresAt := some until_ }) db.schedules
      runs := if leased then updateWhere mine (fun r => { r with leaseExpiresAt := some until_ }) db.runs else db.runs })

def endRun (db : DB) (clock : Nat) (c : ClaimedSchedule) (status : RunStatus) (error : Option Err) : DB :=
  { db with
    runs := updateWhere (isRunning c)
      (fun r => { r with status, error, finishedAt := some clock, leaseExpiresAt := none }) db.runs }

def finishScheduleClaim (db : DB) (clock : Nat) (c : ClaimedSchedule) (status : RunStatus) (error : Option Err)
    (lastRunAt nextRunAt : Nat) : Except Err Unit × DB :=
  if !db.runs.any (isRunning c) then (.error "schedule run lease was lost", db)
  else if !db.schedules.any (isLeased c) then (.error "schedule lease was lost", db)
  else
    (.ok (), { db.endRun clock c status error with
      schedules := updateWhere (isLeased c)
        (fun s => { s with lastRunAt := some lastRunAt, nextRunAt := some nextRunAt, leaseOwner := none, leaseExpiresAt := none })
        db.schedules })

def failScheduleClaim (db : DB) (clock : Nat) (c : ClaimedSchedule) (message : Err) : DB :=
  { db.endRun clock c .failed (some message) with
    schedules := updateWhere (isLeased c) (fun s => { s with leaseOwner := none, leaseExpiresAt := none }) db.schedules }

/-! ## Schedules and their tasks -/

def listDueSchedules (db : DB) (now limit : Nat) : List Schedule :=
  let due := db.schedules.filter fun s => s.enabled && s.nextRunAt.all (fun t => decide (t ≤ now)) && db.awake s
  ((due.insertionSort fun a b =>
      a.nextRunAt.isNone || (b.nextRunAt.isSome && decide (a.nextRunAt.getD 0 ≤ b.nextRunAt.getD 0))).take limit).map (·.toSchedule)

def updateNextRun (db : DB) (scheduleID : String) (nextRunAt : Nat) : DB :=
  { db with schedules := updateWhere (fun s => s.id = scheduleID) (fun s => { s with nextRunAt := some nextRunAt }) db.schedules }

def orEvery (field : String) : String := if trimSpace field = "" then "*" else field

structure CreateScheduleRequest where
  name : String
  cron : Cron
  onlyWhenOnline : Bool := false
  enabled : Bool := true
  deriving DecidableEq, Repr

def createSchedule (db : DB) (id serverID : String) (req : CreateScheduleRequest) : Except Err Unit × DB :=
  if trimSpace req.name = "" then (.error "name is required", db)
  else if db.schedules.any fun s => s.id = id then (.error "duplicate key value violates unique constraint", db)
  else
    let cron : Cron := ⟨orEvery req.cron.minute, orEvery req.cron.hour, orEvery req.cron.dayOfMonth, orEvery req.cron.month,
      orEvery req.cron.dayOfWeek⟩
    (.ok (), { db with schedules := db.schedules ++ [{
      id, serverID, name := trimSpace req.name, cron, onlyWhenOnline := req.onlyWhenOnline, enabled := req.enabled }] })

structure PatchScheduleRequest where
  name : Option String := none
  minute : Option String := none
  hour : Option String := none
  dayOfMonth : Option String := none
  month : Option String := none
  dayOfWeek : Option String := none
  onlyWhenOnline : Option Bool := none
  enabled : Option Bool := none
  deriving DecidableEq, Repr

def PatchScheduleRequest.cron (req : PatchScheduleRequest) (c : Cron) : Cron :=
  ⟨req.minute.getD c.minute, req.hour.getD c.hour, req.dayOfMonth.getD c.dayOfMonth, req.month.getD c.month,
    req.dayOfWeek.getD c.dayOfWeek⟩

def PatchScheduleRequest.row (req : PatchScheduleRequest) (s : ScheduleRow) : ScheduleRow :=
  { s with
    name := req.name.getD s.name
    cron := req.cron s.cron
    onlyWhenOnline := req.onlyWhenOnline.getD s.onlyWhenOnline
    enabled := req.enabled.getD s.enabled }

def patchSchedule (db : DB) (serverID scheduleID : String) (req : PatchScheduleRequest) : Except Err Unit × DB :=
  let named : ScheduleRow → Bool := fun s => s.id = scheduleID && s.serverID = serverID
  if !db.schedules.any named then (.error "schedule not found", db)
  else (.ok (), { db with schedules := updateWhere named req.row db.schedules })

def deleteSchedule (db : DB) (serverID scheduleID : String) : Except Err Unit × DB :=
  if !db.schedules.any fun s => s.id = scheduleID && s.serverID = serverID then (.error "schedule not found", db)
  else
    (.ok (), { db with
      schedules := deleteWhere (fun s => s.id = scheduleID) db.schedules
      runs := deleteWhere (fun r => r.scheduleID = scheduleID) db.runs
      tasks := deleteWhere (fun t => t.scheduleID = scheduleID) db.tasks })

def createScheduleTask (db : DB) (t : Task) : Except Err Unit × DB :=
  if !db.schedules.any (fun s => s.id = t.scheduleID) then (.error "schedule not found", db)
  else if db.tasks.any fun t' => t'.scheduleID = t.scheduleID && t'.sequence = t.sequence then
    (.error "duplicate key value violates unique constraint", db)
  else (.ok (), { db with tasks := db.tasks ++ [t] })

def setOnline (db : DB) (serverID : String) (running : Bool) : DB :=
  { db with online := if running then serverID :: db.online else db.online.filter (· ≠ serverID) }

end DB

/-! ## Calls -/

inductive TaskRunStatus where
  | success
  | failed
  | skipped
  deriving DecidableEq, Repr

/-- `initNextRun` carries the schedule the value was computed from, of which the statement
uses the identifier. `wait` answers how often the lease is renewed before the timer fires;
`timer` and `context` fail where the runner's context is cancelled. -/
inductive Call where
  | now
  | context
  | wait (seconds : Nat)
  | timer
  | listDue (at_ : Nat) (limit : Nat)
  | initNextRun (schedule : Schedule) (next : Nat)
  | claimDue (at_ : Nat) (workerID : String)
  | claimManual (at_ : Nat) (workerID serverID scheduleID : String)
  | extend (claimed : ClaimedSchedule) (until_ : Nat)
  | finish (claimed : ClaimedSchedule) (status : RunStatus) (error : Option Err) (lastRunAt nextRunAt : Nat)
  | fail (claimed : ClaimedSchedule) (message : Err)
  | executeTask (serverID : String) (task : Task)
  | recordTask (runID : Nat) (taskID : String) (status : TaskRunStatus) (error : Option Err)
  | create (id serverID : String) (req : DB.CreateScheduleRequest)
  | patch (serverID scheduleID : String) (req : DB.PatchScheduleRequest)
  | delete (serverID scheduleID : String)
  | createTask (task : Task)
  | setOnline (serverID : String) (running : Bool)
  deriving DecidableEq, Repr

abbrev Resp : Call → Type
  | .now => Nat
  | .context => Except Err Unit
  | .wait _ => Nat
  | .timer => Except Err Unit
  | .listDue .. => Except Err (List Schedule)
  | .initNextRun .. => Except Err Unit
  | .claimDue .. => Except Err (Option ClaimedSchedule)
  | .claimManual .. => Except Err (Option ClaimedSchedule)
  | .extend .. => Except Err Unit
  | .finish .. => Except Err Unit
  | .fail .. => Except Err Unit
  | .executeTask .. => Except Err Unit
  | .recordTask .. => Except Err Unit
  | .create .. => Except Err Unit
  | .patch .. => Except Err Unit
  | .delete .. => Except Err Unit
  | .createTask _ => Except Err Unit
  | .setOnline .. => Except Err Unit

structure World where
  db : DB
  clock : Nat := 0
  renewals : List Nat := []
  deriving DecidableEq, Repr

def World.handle (w : World) : (c : Call) → Resp c × World
  | .now => (w.clock, w)
  | .context => (.ok (), w)
  | .wait _ => (w.renewals.headD 0, { w with renewals := w.renewals.tail })
  | .timer => (.ok (), w)
  | .listDue at_ limit => (.ok (w.db.listDueSchedules at_ limit), w)
  | .initNextRun schedule next => (.ok (), { w with db := w.db.updateNextRun schedule.id next })
  | .claimDue at_ workerID =>
    (.ok (w.db.claimDueSchedule w.clock at_ workerID).1, { w with db := (w.db.claimDueSchedule w.clock at_ workerID).2 })
  | .claimManual at_ workerID serverID scheduleID =>
    (.ok (w.db.claimManualSchedule w.clock at_ workerID serverID scheduleID).1,
      { w with db := (w.db.claimManualSchedule w.clock at_ workerID serverID scheduleID).2 })
  | .extend claimed until_ =>
    ((w.db.extendScheduleLease claimed until_).1, { w with db := (w.db.extendScheduleLease claimed until_).2 })
  | .finish claimed status error lastRunAt nextRunAt =>
    ((w.db.finishScheduleClaim w.clock claimed status error lastRunAt nextRunAt).1,
      { w with db := (w.db.finishScheduleClaim w.clock claimed status error lastRunAt nextRunAt).2 })
  | .fail claimed message => (.ok (), { w with db := w.db.failScheduleClaim w.clock claimed message })
  | .executeTask .. => (.ok (), w)
  | .recordTask .. => (.ok (), w)
  | .create id serverID req => ((w.db.createSchedule id serverID req).1, { w with db := (w.db.createSchedule id serverID req).2 })
  | .patch serverID scheduleID req =>
    ((w.db.patchSchedule serverID scheduleID req).1, { w with db := (w.db.patchSchedule serverID scheduleID req).2 })
  | .delete serverID scheduleID =>
    ((w.db.deleteSchedule serverID scheduleID).1, { w with db := (w.db.deleteSchedule serverID scheduleID).2 })
  | .createTask task => ((w.db.createScheduleTask task).1, { w with db := (w.db.createScheduleTask task).2 })
  | .setOnline serverID running => (.ok (), { w with db := w.db.setOnline serverID running })

def fault : (c : Call) → Err → Option (Resp c)
  | .now, _ => none
  | .wait _, _ => none
  | .context, e => some (.error e)
  | .timer, e => some (.error e)
  | .listDue .., e => some (.error e)
  | .initNextRun .., e => some (.error e)
  | .claimDue .., e => some (.error e)
  | .claimManual .., e => some (.error e)
  | .extend .., e => some (.error e)
  | .finish .., e => some (.error e)
  | .fail .., e => some (.error e)
  | .executeTask .., e => some (.error e)
  | .recordTask .., e => some (.error e)
  | .create .., e => some (.error e)
  | .patch .., e => some (.error e)
  | .delete .., e => some (.error e)
  | .createTask _, e => some (.error e)
  | .setOnline .., e => some (.error e)

abbrev Action := Prog Resp

def call (c : Call) : Action (Resp c) := .call c .ret

/-! ## The runner -/

def failClaim (claimed : ClaimedSchedule) (message : Err) : Action Unit := do
  let _ ← call (.fail claimed message)

def extendScheduleLease (claimed : ClaimedSchedule) : Action (Except Err Unit) := do
  let now ← call .now
  call (.extend claimed (now + scheduleLeaseDuration))

def renewing (claimed : ClaimedSchedule) : Nat → Action (Except Err Unit)
  | 0 => call .timer
  | n + 1 => do
    match ← extendScheduleLease claimed with
    | .error e => pure (.error e)
    | .ok _ => renewing claimed n

def waitOffset (claimed : ClaimedSchedule) (delay : Nat) : Action (Except Err Unit) := do
  if delay = 0 then call .context
  else renewing claimed (← call (.wait delay))

def skipTasks (claimed : ClaimedSchedule) : List Task → Action Unit
  | [] => pure ()
  | t :: rest => do
    let _ ← call (.recordTask claimed.runID t.id .skipped (some "skipped after prior task failure"))
    skipTasks claimed rest

def runTasks (claimed : ClaimedSchedule) : List Task → Bool → Bool → Action (Except Err (Bool × Bool))
  | [], hadFailure, hadSuccess => pure (.ok (hadFailure, hadSuccess))
  | task :: rest, hadFailure, hadSuccess => do
    match ← waitOffset claimed task.timeOffsetSeconds with
    | .error e =>
      failClaim claimed ("execution canceled: " ++ e)
      pure (.error e)
    | .ok _ =>
    match ← extendScheduleLease claimed with
    | .error e =>
      failClaim claimed e
      pure (.error e)
    | .ok _ =>
    match ← call (.executeTask claimed.schedule.serverID task) with
    | .ok _ =>
      let _ ← call (.recordTask claimed.runID task.id .success none)
      runTasks claimed rest hadFailure true
    | .error e =>
      let _ ← call (.recordTask claimed.runID task.id .failed (some e))
      if task.continueOnFailure then runTasks claimed rest true hadSuccess
      else
        skipTasks claimed rest
        pure (.ok (true, hadSuccess))

def scheduleRunOutcome (hadSuccess hadFailure : Bool) : RunStatus × Option Err :=
  if hadFailure && hadSuccess then (.partlyFailed, some "one or more tasks failed")
  else if hadFailure then (.failed, some "execution halted after task failure")
  else if !hadSuccess then (.skipped, some "schedule has no runnable tasks")
  else (.success, none)

section
variable (parser : CronParser)

def nextScheduleRun (schedule : Schedule) (after : Nat) : Except Err Nat := parser.next schedule.cron.expression after

def runClaim (now : Nat) (claimed : ClaimedSchedule) : Action Unit :=
  match nextScheduleRun parser claimed.schedule now with
  | .error e => failClaim claimed e
  | .ok nextRun => do
    match ← runTasks claimed claimed.tasks false false with
    | .error _ => pure ()
    | .ok (hadFailure, hadSuccess) =>
      let outcome := scheduleRunOutcome hadSuccess hadFailure
      let _ ← call (.finish claimed outcome.1 outcome.2 now nextRun)

def runNow (workerID serverID scheduleID : String) : Action Unit := do
  let now ← call .now
  match ← call (.claimManual now workerID serverID scheduleID) with
  | .error _ => pure ()
  | .ok none => pure ()
  | .ok (some claimed) => runClaim parser now claimed

def initialise (now : Nat) : List Schedule → Action Unit
  | [] => pure ()
  | s :: rest => do
    if s.nextRunAt.isNone then
      match nextScheduleRun parser s now with
      | .ok next =>
        let _ ← call (.initNextRun s next)
        initialise now rest
      | .error _ => initialise now rest
    else initialise now rest

def claimLoop (now : Nat) (workerID : String) : Nat → Action Unit
  | 0 => pure ()
  | n + 1 => do
    match ← call .context with
    | .error _ => pure ()
    | .ok _ =>
    match ← call (.claimDue now workerID) with
    | .error _ => pure ()
    | .ok none => pure ()
    | .ok (some claimed) =>
      runClaim parser now claimed
      claimLoop now workerID n

def tick (workerID : String) : Action Unit := do
  let now ← call .now
  match ← call (.listDue now 64) with
  | .error _ => pure ()
  | .ok schedules =>
    initialise parser now schedules
    claimLoop parser now workerID 64

/-! ## The system -/

inductive Job where
  | tick (workerID : String)
  | runNow (workerID serverID scheduleID : String)
  | createSchedule (id serverID : String) (req : DB.CreateScheduleRequest)
  | patchSchedule (serverID scheduleID : String) (req : DB.PatchScheduleRequest)
  | deleteSchedule (serverID scheduleID : String)
  | createScheduleTask (task : Task)
  | serverStatus (serverID : String) (running : Bool)
  deriving DecidableEq, Repr

def statement (c : Call) : Action Unit := do
  let _ ← call c

def Job.program : Job → Action Unit
  | .tick workerID => Schedules.tick parser workerID
  | .runNow workerID serverID scheduleID => Schedules.runNow parser workerID serverID scheduleID
  | .createSchedule id serverID req => statement (.create id serverID req)
  | .patchSchedule serverID scheduleID req => statement (.patch serverID scheduleID req)
  | .deleteSchedule serverID scheduleID => statement (.delete serverID scheduleID)
  | .createScheduleTask task => statement (.createTask task)
  | .serverStatus serverID running => statement (.setOnline serverID running)

def panels : System Resp Job World where
  program := Job.program parser
  handle := World.handle
  fault := fault
  tick w d := { w with clock := w.clock + d }

end

/-! ## What the programs send -/

section
variable (parser : CronParser)

def Call.Proper : Call → Prop
  | .finish claimed status _ _ next => status ≠ .running ∧ parser.occurs claimed.schedule.cron.expression next
  | .initNextRun schedule next => parser.occurs schedule.cron.expression next
  | _ => True

def Call.Routine : Call → Prop
  | .now | .context | .wait _ | .timer | .extend .. | .fail .. | .executeTask .. | .recordTask .. => True
  | _ => False

theorem scheduleRunOutcome_final (hadSuccess hadFailure : Bool) : (scheduleRunOutcome hadSuccess hadFailure).1 ≠ .running := by
  cases hadSuccess <;> cases hadFailure <;> decide

theorem Call.Routine.proper {c : Call} (h : c.Routine) : c.Proper parser := by
  cases c with
  | finish | initNextRun => exact h.elim
  | _ => trivial

theorem routine_failClaim (claimed : ClaimedSchedule) (message : Err) :
    All Call.Routine (failClaim claimed message) := ⟨trivial, fun _ => trivial⟩

theorem routine_extendScheduleLease (claimed : ClaimedSchedule) :
    All Call.Routine (extendScheduleLease claimed) := ⟨trivial, fun _ => ⟨trivial, fun _ => trivial⟩⟩

theorem routine_renewing (claimed : ClaimedSchedule) : ∀ n, All Call.Routine (renewing claimed n)
  | 0 => ⟨trivial, fun _ => trivial⟩
  | n + 1 => by
    refine (routine_extendScheduleLease claimed).ok fun _ => ?_
    exact routine_renewing claimed n

theorem routine_waitOffset (claimed : ClaimedSchedule) (delay : Nat) : All Call.Routine (waitOffset claimed delay) := by
  unfold waitOffset
  split
  · exact ⟨trivial, fun _ => trivial⟩
  · exact ⟨trivial, fun n => routine_renewing claimed n⟩

theorem routine_skipTasks (claimed : ClaimedSchedule) : ∀ tasks, All Call.Routine (skipTasks claimed tasks)
  | [] => trivial
  | _ :: rest => ⟨trivial, fun _ => routine_skipTasks claimed rest⟩

theorem routine_runTasks (claimed : ClaimedSchedule) : ∀ tasks hadFailure hadSuccess,
    All Call.Routine (runTasks claimed tasks hadFailure hadSuccess)
  | [], _, _ => trivial
  | task :: rest, hadFailure, hadSuccess => by
    refine (routine_waitOffset claimed _).bind fun r => ?_
    cases r with
    | error => exact (routine_failClaim claimed _).bind fun _ => trivial
    | ok =>
    refine (routine_extendScheduleLease claimed).bind fun r => ?_
    cases r with
    | error => exact (routine_failClaim claimed _).bind fun _ => trivial
    | ok =>
    refine ⟨trivial, fun r => ?_⟩
    cases r with
    | ok => exact ⟨trivial, fun _ => routine_runTasks claimed rest _ _⟩
    | error =>
      refine ⟨trivial, fun _ => ?_⟩
      cases task.continueOnFailure with
      | true => exact routine_runTasks claimed rest _ _
      | false => exact (routine_skipTasks claimed rest).bind fun _ => trivial

theorem proper_runClaim (now : Nat) (claimed : ClaimedSchedule) :
    All (Call.Proper parser) (runClaim parser now claimed) := by
  unfold runClaim
  cases hnext : nextScheduleRun parser claimed.schedule now with
  | error => exact ⟨trivial, fun _ => trivial⟩
  | ok =>
    refine ((routine_runTasks claimed _ _ _).mono fun _ h => h.proper parser).ok fun _ => ?_
    exact ⟨⟨scheduleRunOutcome_final _ _, parser.next_occurs hnext⟩, fun _ => trivial⟩

theorem proper_initialise (now : Nat) : ∀ schedules, All (Call.Proper parser) (initialise parser now schedules)
  | [] => trivial
  | s :: rest => by
    unfold initialise
    split
    · cases hnext : nextScheduleRun parser s now with
      | ok => exact ⟨parser.next_occurs hnext, fun _ => proper_initialise now rest⟩
      | error => exact proper_initialise now rest
    · exact proper_initialise now rest

theorem proper_claimLoop (now : Nat) (workerID : String) : ∀ n, All (Call.Proper parser) (claimLoop parser now workerID n)
  | 0 => trivial
  | n + 1 => by
    refine All.ok ⟨trivial, fun _ => trivial⟩ fun _ => ?_
    refine ⟨trivial, fun r => ?_⟩
    match r with
    | .error _ => trivial
    | .ok none => trivial
    | .ok (some claimed) => exact (proper_runClaim parser now claimed).bind fun _ => proper_claimLoop now workerID n

theorem proper_program (j : Job) : All (Call.Proper parser) (j.program parser) := by
  cases j with
  | tick workerID =>
    refine ⟨trivial, fun now => ⟨trivial, fun r => ?_⟩⟩
    cases r with
    | error => trivial
    | ok schedules => exact (proper_initialise parser now schedules).bind fun _ => proper_claimLoop parser now workerID 64
  | runNow =>
    refine ⟨trivial, fun now => ⟨trivial, fun r => ?_⟩⟩
    match r with
    | .error _ => trivial
    | .ok none => trivial
    | .ok (some claimed) => exact proper_runClaim parser now claimed
  | _ => exact ⟨trivial, fun _ => trivial⟩

end

def hourly : CronParser where
  occurs expression t := (expression = "0 * * * *" ∧ t % 3600 = 0) ∨ (expression = "30 * * * *" ∧ t % 3600 = 1800)
  next expression after :=
    if expression = "0 * * * *" then .ok ((after / 3600 + 1) * 3600)
    else if expression = "30 * * * *" then .ok ((after + 1800) / 3600 * 3600 + 1800)
    else .error "expected exactly 5 fields"
  next_occurs {expression after t} h := by
    split at h
    · rename_i he
      cases h
      exact .inl ⟨he, by omega⟩
    split at h
    · rename_i he
      cases h
      exact .inr ⟨he, by omega⟩
    · cases h

end ForgePlane.Schedules
