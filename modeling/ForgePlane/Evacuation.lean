import ForgePlane.Store
import ForgePlane.Threads

/-!
# The evacuation planner

A plan moves the servers of a node elsewhere, one migration for each item and at most two at a time.
`ExecutePlan` claims the plan and starts the first items; an observer in each panel process settles them and
starts more.
-/

namespace ForgePlane.Evacuation

inductive PlanStatus where
  | pending
  | running
  | completed
  | failed
  | cancelled
  deriving DecidableEq, Repr

inductive ItemStatus where
  | pending
  | preparing
  | running
  | completed
  | failed
  deriving DecidableEq, Repr

structure PlanRow where
  id : String
  status : PlanStatus := .pending
  deriving DecidableEq, Repr

structure Item where
  id : String
  planID : String
  serverID : String := ""
  sourceNodeID : String := ""
  targetNodeID : String := ""
  eligible : Bool := true
  migrationID : Option Nat := none
  status : ItemStatus := .pending
  error : Option Err := none
  deriving DecidableEq, Repr

def ItemStatus.isActive : ItemStatus → Bool
  | .preparing => true
  | .running => true
  | _ => false

def Item.isActive (i : Item) : Bool := i.status.isActive

def Item.set (migrationID : Option Nat) (status : ItemStatus) (error : Option Err) (i : Item) : Item :=
  { i with migrationID := migrationID, status := status, error := error }

/-! ## Calls -/

/-- `GetEvacuationPlan` is `planRow` and then `planItems`; `acts` says that the caller goes on to act
on what it reads. The item of `createMigration` is the one the migration is for. -/
inductive Call where
  | startPlan (planID : String)
  | planRow (planID : String) (acts : Bool)
  | planItems (planID : String) (acts : Bool)
  | setPlan (planID : String) (status : PlanStatus)
  | cancelPlan (planID : String)
  | setItem (itemID : String) (migrationID : Option Nat) (status : ItemStatus) (error : Option Err)
  | createMigration (item : Item)
  | prepareMigration (id : Nat)
  | executeMigration (id : Nat)
  | cancelMigration (id : Nat)
  | migrationStatus (id : Nat)
  | setMigration (id : Nat) (status : MigrationStatus)
  | sleep
  deriving DecidableEq, Repr

abbrev Resp : Call → Type
  | .startPlan _ => Except Err Bool
  | .planRow .. => Except Err PlanRow
  | .planItems .. => Except Err (List Item)
  | .setPlan .. => Except Err Unit
  | .cancelPlan _ => Except Err Bool
  | .setItem .. => Except Err Unit
  | .createMigration _ => Except Err Nat
  | .prepareMigration _ => Except Err Unit
  | .executeMigration _ => Except Err Unit
  | .cancelMigration _ => Except Err Unit
  | .migrationStatus _ => Except Err MigrationStatus
  | .setMigration .. => Unit
  | .sleep => Unit

abbrev Action := Prog Resp

def call (c : Call) : Action (Resp c) := .call c .ret

/-! ## The store -/

abbrev Plan := PlanRow × List Item

def getEvacuationPlan (planID : String) (acts : Bool) : Action (Except Err Plan) := do
  match ← call (.planRow planID acts) with
  | .error e => pure (.error e)
  | .ok row =>
    match ← call (.planItems planID acts) with
    | .error e => pure (.error e)
    | .ok items => pure (.ok (row, items))

def startEvacuationPlan (planID : String) : Action (Except Err (Plan × Bool)) := do
  match ← call (.startPlan planID) with
  | .error e => pure (.error e)
  | .ok started =>
    match ← getEvacuationPlan planID started with
    | .error e => pure (.error e)
    | .ok plan => pure (.ok (plan, started))

def cancelEvacuationPlan (planID : String) : Action (Except Err Plan) := do
  match ← call (.cancelPlan planID) with
  | .error e => pure (.error e)
  | .ok false => pure (.error "evacuation plan is not running")
  | .ok true => getEvacuationPlan planID false

def updateEvacuationPlanStatus (planID : String) (status : PlanStatus) : Action (Except Err Plan) := do
  match ← call (.setPlan planID status) with
  | .error e => pure (.error e)
  | .ok _ => getEvacuationPlan planID false

def updateEvacuationItemExecution (itemID : String) (migrationID : Option Nat) (status : ItemStatus) (error : Option Err) :
    Action (Except Err Unit) :=
  call (.setItem itemID migrationID status error)

/-! ## Starting items -/

def maxConcurrentEvacuationMigrations : Nat := 2

def activeCount (items : List Item) : Nat := items.countP Item.isActive

def startItems : Nat → List Item → Action (Except Err Unit)
  | _, [] => pure (.ok ())
  | active, item :: items => do
    if active ≥ maxConcurrentEvacuationMigrations then pure (.ok ())
    else if !item.eligible || item.status ≠ .pending then startItems active items
    else if item.targetNodeID = "" then
      match ← updateEvacuationItemExecution item.id none .failed (some "eligible evacuation item has no target node") with
      | .error e => pure (.error e)
      | .ok _ => startItems active items
    else
    match ← call (.createMigration item) with
    | .error e =>
      match ← updateEvacuationItemExecution item.id none .failed (some ("create migration: " ++ e)) with
      | .error e => pure (.error e)
      | .ok _ => startItems active items
    | .ok migrationID =>
    match ← updateEvacuationItemExecution item.id (some migrationID) .preparing none with
    | .error e => pure (.error e)
    | .ok _ =>
    match ← call (.prepareMigration migrationID) with
    | .error e =>
      match ← updateEvacuationItemExecution item.id (some migrationID) .failed (some ("prepare migration: " ++ e)) with
      | .error e => pure (.error e)
      | .ok _ => startItems active items
    | .ok _ =>
    match ← call (.executeMigration migrationID) with
    | .error e =>
      match ← updateEvacuationItemExecution item.id (some migrationID) .failed (some ("execute migration: " ++ e)) with
      | .error e => pure (.error e)
      | .ok _ => startItems active items
    | .ok _ =>
    match ← updateEvacuationItemExecution item.id (some migrationID) .running none with
    | .error e => pure (.error e)
    | .ok _ => startItems (active + 1) items

def startAvailableItems (plan : Plan) : Action (Except Err Unit) := startItems (activeCount plan.2) plan.2

def failPlan (planID : String) : Action (Except Err Plan) := do
  match ← updateEvacuationPlanStatus planID .failed with
  | .error e => pure (.error e)
  | .ok _ => getEvacuationPlan planID false

def executePlan (planID : String) : Action (Except Err Plan) := do
  match ← startEvacuationPlan planID with
  | .error e => pure (.error e)
  | .ok (plan, false) => pure (.ok plan)
  | .ok (plan, true) =>
    match ← startAvailableItems plan with
    | .error _ => failPlan planID
    | .ok _ => getEvacuationPlan planID false

/-! ## Observing -/

def statusText : MigrationStatus → String
  | .planned => "planned"
  | .preparing => "preparing"
  | .transferring => "transferring"
  | .restoring => "restoring"
  | .completed => "completed"
  | .failed => "failed"
  | .cancelled => "cancelled"

def evacuationMigrationOutcome : MigrationStatus → Option ItemStatus
  | .completed => some .completed
  | .failed => some .failed
  | .cancelled => some .failed
  | _ => none

def outcomeError (status : MigrationStatus) : ItemStatus → Option Err
  | .failed => some ("migration ended with status " ++ statusText status)
  | _ => none

def reconcileItems : List Item → Action (Except Err Unit)
  | [] => pure (.ok ())
  | item :: items => do
    if !item.isActive then reconcileItems items
    else
    match item.migrationID with
    | none => reconcileItems items
    | some migrationID =>
    match ← call (.migrationStatus migrationID) with
    | .error e =>
      updateEvacuationItemExecution item.id (some migrationID) .failed (some ("get migration status: " ++ e))
    | .ok status =>
    match evacuationMigrationOutcome status with
    | none => reconcileItems items
    | some outcome =>
      match ← updateEvacuationItemExecution item.id (some migrationID) outcome (outcomeError status outcome) with
      | .error e => pure (.error e)
      | .ok _ => reconcileItems items

def evacuationPlanFinished (items : List Item) : Bool := items.all fun i => i.status ≠ .pending && !i.isActive

def completePlan (plan : Plan) : Action Unit := do
  let _ ← updateEvacuationPlanStatus plan.1.id (if plan.2.any fun i => i.status = .failed then .failed else .completed)

def observePlan (planID : String) : Nat → Action Unit
  | 0 => pure ()
  | rounds + 1 => do
    match ← getEvacuationPlan planID true with
    | .error _ => pure ()
    | .ok plan =>
    if plan.1.status ≠ .running then pure ()
    else
    match ← reconcileItems plan.2 with
    | .error _ => let _ ← failPlan planID
    | .ok _ =>
    match ← getEvacuationPlan planID true with
    | .error _ => pure ()
    | .ok plan =>
    if evacuationPlanFinished plan.2 then completePlan plan
    else
    match ← startAvailableItems plan with
    | .error _ => let _ ← failPlan planID
    | .ok _ =>
    call .sleep
    observePlan planID rounds

/-! ## Cancelling -/

def cancelItems : List Item → Action (Except Err Unit)
  | [] => pure (.ok ())
  | item :: items => do
    if !item.isActive then cancelItems items
    else
    match item.migrationID with
    | none => cancelItems items
    | some migrationID =>
    match ← call (.cancelMigration migrationID) with
    | .error e => pure (.error ("cancel migration " ++ toString migrationID ++ ": " ++ e))
    | .ok _ => cancelItems items

def cancelPlan (planID : String) : Action (Except Err Plan) := do
  match ← getEvacuationPlan planID true with
  | .error e => pure (.error e)
  | .ok plan =>
  if plan.1.status ≠ .running then pure (.error "evacuation plan is not running")
  else
  match ← cancelItems plan.2 with
  | .error e => pure (.error e)
  | .ok _ => cancelEvacuationPlan planID

/-! ## The panels -/

/-- An observer of `process` is started by `ExecutePlan` or by the look for running plans every half
minute. `progress` stands for the work of the migration service. -/
inductive Task where
  | execute (planID : String)
  | observe (process : Nat) (planID : String) (rounds : Nat)
  | cancel (planID : String)
  | progress (id : Nat) (status : MigrationStatus)
  deriving DecidableEq, Repr

def Task.program : Task → Action Unit
  | .execute planID => do let _ ← executePlan planID
  | .observe _ planID rounds => observePlan planID rounds
  | .cancel planID => do let _ ← Evacuation.cancelPlan planID
  | .progress id status => call (.setMigration id status)

structure Creation where
  planID : String
  itemID : String
  migrationID : Nat
  deriving DecidableEq, Repr

structure World where
  plans : List PlanRow := []
  items : List Item := []
  migrations : List (Nat × MigrationStatus) := []
  nextID : Nat := 0
  created : List Creation := []
  executed : List Nat := []
  asked : List Nat := []

namespace World

def planStatus (w : World) (planID : String) : Option PlanStatus := (rowAt (·.id) w.plans planID).map (·.status)

def planItems (w : World) (planID : String) : List Item := w.items.filter fun i => i.planID = planID

def migration (w : World) (id : Nat) : Option MigrationStatus := (rowAt (·.1) w.migrations id).map (·.2)

def ended (w : World) (id : Nat) : Bool := (w.migration id).any MigrationStatus.terminal

def setPlans (w : World) (planID : String) (p : PlanStatus → Bool) (status : PlanStatus) : World :=
  { w with plans := updateWhere (fun r => decide (r.id = planID) && p r.status) (fun r => { r with status := status }) w.plans }

def setItem (w : World) (itemID : String) (migrationID : Option Nat) (status : ItemStatus) (error : Option Err) : World :=
  { w with items := updateWhere (fun i => i.id = itemID) (Item.set migrationID status error) w.items }

def setMigration (w : World) (id : Nat) (status : MigrationStatus) : World :=
  { w with migrations := updateWhere (fun m => decide (m.1 = id) && !m.2.terminal) (fun m => (m.1, status)) w.migrations }

def preparable (w : World) (id : Nat) : Bool := w.migration id = some .planned || w.migration id = some .preparing

/-- Of the migration service: a migration is prepared and executed from its first states only,
and one that has ended is not cancelled. -/
def handle (w : World) : (c : Call) → Resp c × World
  | .startPlan planID => (.ok (decide (w.planStatus planID = some .pending)), w.setPlans planID (fun s => s = .pending) .running)
  | .planRow planID _ => (match rowAt (·.id) w.plans planID with | some row => .ok row | none => .error errNoRows, w)
  | .planItems planID _ => (.ok (w.planItems planID), w)
  | .setPlan planID status => (.ok (), w.setPlans planID (fun _ => true) status)
  | .cancelPlan planID => (.ok (decide (w.planStatus planID = some .running)), w.setPlans planID (fun s => s = .running) .cancelled)
  | .setItem itemID migrationID status error => (.ok (), w.setItem itemID migrationID status error)
  | .createMigration item =>
    (.ok w.nextID, { w with
      migrations := w.migrations ++ [(w.nextID, .planned)]
      nextID := w.nextID + 1
      created := ⟨item.planID, item.id, w.nextID⟩ :: w.created })
  | .prepareMigration id =>
    if w.preparable id then (.ok (), w.setMigration id .preparing)
    else (.error "migration is not in a preparable state", w)
  | .executeMigration id =>
    if w.preparable id then (.ok (), { w.setMigration id .preparing with executed := id :: w.executed })
    else (.error "migration is not in a preparable state", w)
  | .cancelMigration id =>
    if w.ended id then (.error "terminal migration cannot be cancelled", { w with asked := id :: w.asked })
    else (.ok (), { w.setMigration id .cancelled with asked := id :: w.asked })
  | .migrationStatus id => (match w.migration id with | some status => .ok status | none => .error errNoRows, w)
  | .setMigration id status => ((), w.setMigration id status)
  | .sleep => ((), w)

end World

def fault : (c : Call) → Err → Option (Resp c)
  | .startPlan _, e => some (.error e)
  | .planRow .., e => some (.error e)
  | .planItems .., e => some (.error e)
  | .setPlan .., e => some (.error e)
  | .cancelPlan _, e => some (.error e)
  | .setItem .., e => some (.error e)
  | .createMigration _, e => some (.error e)
  | .prepareMigration _, e => some (.error e)
  | .executeMigration _, e => some (.error e)
  | .cancelMigration _, e => some (.error e)
  | .migrationStatus _, e => some (.error e)
  | .setMigration .., _ => none
  | .sleep, _ => none

def panels : System Resp Task World where
  program := Task.program
  handle := World.handle
  fault := fault
  tick w _ := w

def unfinished (x : Task × Action Unit) : Bool :=
  match x.2 with
  | .call .. => true
  | .ret _ => false

def registry (s : Config Resp Task World) : Label Task → Bool
  | .start (.observe process planID _) => s.threads.all fun x =>
      match x.1 with
      | .observe p q _ => p ≠ process || q ≠ planID || !unfinished x
      | _ => true
  | _ => true

end ForgePlane.Evacuation
