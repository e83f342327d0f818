import ForgePlane.Tx
import ForgePlane.Threads

/-!
# The recovery coordinator

A recovery plan restores the servers of a lost node from their backups on other nodes, one item for each
server; reading a plan that is executing reconciles it first.
-/

namespace ForgePlane.Coordinator

/-! ## Calls -/

/-- `GetRecoveryPlan` is `planRow` and then `planItems`. `markFailed` and `cancelMigration` are
calls of the migration service, which are atomic here. -/
inductive Call where
  | startPlan (planID : String)
  | planRow (planID : String)
  | planItems (planID : String)
  | planIDs
  | setPlan (planID : String) (status : RecoveryPlanStatus) (reason : String)
  | setItem (itemID : String) (status : RecoveryItemStatus) (reason : String)
  | itemRow (itemID : String)
  | setItems (planID : String) (status : RecoveryItemStatus) (reason : String)
  | setReservation (id : String) (status : ReservationStatus)
  | beginRestore (item : RecoveryItem)
  | endRestore (item : RecoveryItem)
  | getMigration (id : String)
  | markFailed (id reason : String)
  | cancelMigration (id : String)
  | setMigration (id : String) (status : MigrationStatus) (reason : String)
  deriving DecidableEq, Repr

abbrev Resp : Call → Type
  | .startPlan _ => Except Err Unit
  | .planRow _ => Except Err RecoveryPlanRow
  | .planItems _ => Except Err (List RecoveryItem)
  | .planIDs => Except Err (List String)
  | .setPlan .. => Except Err Unit
  | .setItem .. => Except Err Unit
  | .itemRow _ => Except Err RecoveryItem
  | .setItems .. => Except Err Unit
  | .setReservation .. => Except Err Unit
  | .beginRestore _ => Unit
  | .endRestore _ => Except Err Unit
  | .getMigration _ => Except Err MigrationStatus
  | .markFailed .. => Except Err Unit
  | .cancelMigration _ => Except Err Unit
  | .setMigration .. => Except Err Unit

abbrev Action := Prog Resp

def call (c : Call) : Action (Resp c) := .call c .ret

/-! ## The store -/

abbrev Plan := RecoveryPlanRow × List RecoveryItem

def getRecoveryPlan (planID : String) : Action (Except Err Plan) := do
  match ← call (.planRow planID) with
  | .error e => pure (.error e)
  | .ok row =>
    match ← call (.planItems planID) with
    | .error e => pure (.error e)
    | .ok items => pure (.ok (row, items))

def updateRecoveryPlanStatus (planID : String) (status : RecoveryPlanStatus) (reason : String) : Action (Except Err Plan) := do
  match ← call (.setPlan planID status reason) with
  | .error e => pure (.error e)
  | .ok _ => getRecoveryPlan planID

def updateRecoveryItemStatus (itemID : String) (status : RecoveryItemStatus) (reason : String) :
    Action (Except Err RecoveryItem) := do
  match ← call (.setItem itemID status reason) with
  | .error e => pure (.error e)
  | .ok _ => call (.itemRow itemID)

def startRecoveryPlan (planID : String) : Action (Except Err Plan) := do
  match ← call (.startPlan planID) with
  | .error e => pure (.error e)
  | .ok _ => getRecoveryPlan planID

def getPlans : List String → Action (Except Err (List Plan))
  | [] => pure (.ok [])
  | id :: ids => do
    match ← getRecoveryPlan id with
    | .error e => pure (.error e)
    | .ok plan =>
      match ← getPlans ids with
      | .error e => pure (.error e)
      | .ok plans => pure (.ok (plan :: plans))

def listRecoveryPlans : Action (Except Err (List Plan)) := do
  match ← call .planIDs with
  | .error e => pure (.error e)
  | .ok ids => getPlans ids

/-! ## Failing -/

def join (errs : List Err) : Err := String.intercalate "\n" errs

def noted {α : Type} (text : String) : Except Err α → List Err
  | .ok _ => []
  | .error e => [text ++ ": " ++ e]

def cancelReservation (item : RecoveryItem) : Action (List Err) := do
  if item.reservationID = "" then pure []
  else pure (noted ("cancel recovery reservation " ++ item.reservationID) (← call (.setReservation item.reservationID .cancelled)))

def failItems (reason : String) : List RecoveryItem → Action Unit
  | [] => pure ()
  | item :: items => do
    if item.status = .failed then failItems reason items
    else
      let _ ← cancelReservation item
      if item.migrationID = "" then failItems reason items
      else
        let _ ← call (.setMigration item.migrationID .failed reason)
        failItems reason items

def failPlan (planID reason : String) : Action (Except Err Plan) := do
  match ← getRecoveryPlan planID with
  | .error _ => updateRecoveryPlanStatus planID .failed reason
  | .ok existing =>
    failItems reason existing.2
    let _ ← call (.setItems planID .failed reason)
    updateRecoveryPlanStatus planID .failed reason

def failRecoveryItem (item : RecoveryItem) (cause : Err) : Action (Except Err Plan) := do
  let marked ← (if item.migrationID = "" then pure []
    else do pure (noted ("mark migration " ++ item.migrationID ++ " failed") (← call (.markFailed item.migrationID cause))) :
    Action (List Err))
  let cancelled ← cancelReservation item
  let updated ← updateRecoveryItemStatus item.id .failed cause
  let plan ← failPlan item.planID ("recovery migration failed: " ++ cause)
  let cleanup := marked ++ cancelled ++ noted ("mark recovery item " ++ item.id ++ " failed") updated ++
    noted "mark recovery plan failed" plan
  pure (.error (join (cause :: cleanup)))

/-! ## Cancelling -/

variable (executor : Bool)

def cancelItems : List RecoveryItem → Action (List Err)
  | [] => pure []
  | item :: items => do
    let cancelled ← cancelReservation item
    if item.migrationID = "" then pure (cancelled ++ (← cancelItems items))
    else
      let r ← (if executor then call (.cancelMigration item.migrationID)
        else call (.setMigration item.migrationID .cancelled "recovery plan cancelled") : Action (Except Err Unit))
      pure (cancelled ++ noted ("cancel migration " ++ item.migrationID) r ++ (← cancelItems items))

def cancelPlan (planID : String) : Action (Except Err Plan) := do
  match ← getRecoveryPlan planID with
  | .error e => pure (.error e)
  | .ok existing =>
    let cleanup ← cancelItems executor existing.2
    let marked ← call (.setItems planID .cancelled "recovery plan cancelled")
    let cleanup := cleanup ++ noted "mark recovery items cancelled" marked
    match ← updateRecoveryPlanStatus planID .cancelled "recovery plan cancelled" with
    | .error e => pure (.error (join (cleanup ++ ["mark recovery plan cancelled: " ++ e])))
    | .ok plan => pure (if cleanup = [] then .ok plan else .error (join cleanup))

def cancelRecoveryItem (item : RecoveryItem) : Action (Except Err Plan) := do
  match ← cancelReservation item with
  | e :: _ => pure (.error e)
  | [] =>
    match ← updateRecoveryItemStatus item.id .cancelled "migration cancelled" with
    | .error e => pure (.error ("mark recovery item " ++ item.id ++ " cancelled: " ++ e))
    | .ok _ => cancelPlan executor item.planID

/-! ## Reconciling -/

def reconcileItems : List RecoveryItem → Action (Option (Except Err Plan))
  | [] => pure none
  | item :: items => do
    if item.status ≠ .executing then reconcileItems items
    else if item.migrationID = "" then pure (some (← failRecoveryItem item "recovery item has no migration"))
    else
      match ← call (.getMigration item.migrationID) with
      | .error e => pure (some (.error ("get migration " ++ item.migrationID ++ " for recovery item " ++ item.id ++ ": " ++ e)))
      | .ok .completed =>
        match ← updateRecoveryItemStatus item.id .completed "migration completed" with
        | .error e => pure (some (.error ("mark recovery item " ++ item.id ++ " completed: " ++ e)))
        | .ok _ =>
          if item.reservationID = "" then reconcileItems items
          else
            match ← call (.setReservation item.reservationID .completed) with
            | .error e => pure (some (.error ("complete recovery reservation " ++ item.reservationID ++ ": " ++ e)))
            | .ok _ => reconcileItems items
      | .ok .failed => pure (some (← failRecoveryItem item "migration ended with status failed"))
      | .ok .cancelled => pure (some (← cancelRecoveryItem executor item))
      | .ok _ => reconcileItems items

def allCompleted (items : List RecoveryItem) : Bool :=
  !items.isEmpty && items.all fun i => i.status = .completed || i.status = .skipped

def reconcilePlan (planID : String) : Action (Except Err Plan) := do
  if !executor then pure (.error "recovery migration executor unavailable")
  else
  match ← getRecoveryPlan planID with
  | .error e => pure (.error e)
  | .ok plan =>
  if plan.1.status ≠ .executing then pure (.ok plan)
  else
  match ← reconcileItems executor plan.2 with
  | some r => pure r
  | none =>
  match ← getRecoveryPlan planID with
  | .error e => pure (.error e)
  | .ok plan =>
    if allCompleted plan.2 then updateRecoveryPlanStatus plan.1.id .completed "all recovery migrations completed"
    else pure (.ok plan)

/-! ## Executing -/

def verifyAndRestore (item : RecoveryItem) : Action (Except Err Unit) := do
  call (.beginRestore item)
  call (.endRestore item)

def finishBackupRestorePlan (planID : String) : Action (Except Err Plan) := do
  match ← getRecoveryPlan planID with
  | .error e => pure (.error e)
  | .ok plan =>
    if plan.2.any fun i => i.status ≠ .restored && i.status ≠ .skipped then pure (.ok plan)
    else if plan.2.any fun i => i.status = .restored then
      updateRecoveryPlanStatus plan.1.id .restored "verified backup recovery restored; ownership was not migrated"
    else updateRecoveryPlanStatus plan.1.id .completed "no verified backup restore sources were available"

def executeItems (planID : String) : List RecoveryItem → Action (Except Err Plan)
  | [] => finishBackupRestorePlan planID
  | item :: items => do
    if item.status ≠ .executing then executeItems planID items
    else
      match ← verifyAndRestore item with
      | .error e =>
        match ← updateRecoveryItemStatus item.id .failed ("backup restore failed: " ++ e) with
        | .error e => pure (.error e)
        | .ok _ => failPlan planID ("backup recovery failed: " ++ e)
      | .ok _ =>
        match ← updateRecoveryItemStatus item.id .restored
            "verified backup restored on target; server ownership was not migrated" with
        | .error e => pure (.error e)
        | .ok _ => executeItems planID items

def executePlan (planID : String) : Action (Except Err Plan) := do
  match ← startRecoveryPlan planID with
  | .error e => pure (.error ("start recovery plan: " ++ e))
  | .ok plan =>
    if plan.2.isEmpty then updateRecoveryPlanStatus plan.1.id .completed "no recovery migrations to execute"
    else executeItems plan.1.id plan.2

/-! ## Reading -/

def getPlan (planID : String) : Action (Except Err Plan) := do
  match ← getRecoveryPlan planID with
  | .error e => pure (.error e)
  | .ok plan => if plan.1.status ≠ .executing || !executor then pure (.ok plan) else reconcilePlan executor planID

def reconcileAll : List Plan → Action (Except Err (List Plan))
  | [] => pure (.ok [])
  | plan :: plans => do
    match ← (if plan.1.status ≠ .executing || !executor then pure (.ok plan) else reconcilePlan executor plan.1.id :
        Action (Except Err Plan)) with
    | .error e => pure (.error e)
    | .ok plan =>
      match ← reconcileAll plans with
      | .error e => pure (.error e)
      | .ok plans => pure (.ok (plan :: plans))

def listPlans : Action (Except Err (List Plan)) := do
  match ← listRecoveryPlans with
  | .error e => pure (.error e)
  | .ok plans => reconcileAll executor plans

/-! ## The panels -/

inductive Task where
  | execute (planID : String)
  | reconcile (planID : String)
  | cancel (planID : String)
  | failPlan (planID reason : String)
  | failItem (item : RecoveryItem) (cause : Err)
  | getPlan (planID : String)
  | listPlans
  | migrate (id : String) (status : MigrationStatus)
  deriving DecidableEq, Repr

def ignore {α : Type} (p : Action α) : Action Unit := do
  let _ ← p

def Task.program : Task → Action Unit
  | .execute planID => ignore (executePlan planID)
  | .reconcile planID => ignore (reconcilePlan executor planID)
  | .cancel planID => ignore (cancelPlan executor planID)
  | .failPlan planID reason => ignore (Coordinator.failPlan planID reason)
  | .failItem item cause => ignore (failRecoveryItem item cause)
  | .getPlan planID => ignore (Coordinator.getPlan executor planID)
  | .listPlans => ignore (Coordinator.listPlans executor)
  | .migrate id status => ignore (call (.setMigration id status ""))

/-- `restores` lists the items of the restores begun, the last first, and `restoring` those of
the restores not yet ended. -/
structure World where
  db : DB := {}
  restores : List String := []
  restoring : List String := []

namespace World

def planStatus (w : World) (planID : String) : Option RecoveryPlanStatus := (rowAt (·.id) w.db.recoveryPlans planID).map (·.status)

def items (w : World) (planID : String) : List RecoveryItem := w.db.recoveryItems.filter fun i => i.planID = planID

def statusText : RecoveryPlanStatus → String
  | .pending => "pending"
  | .planning => "planning"
  | .planned => "planned"
  | .executing => "executing"
  | .completed => "completed"
  | .restored => "restored"
  | .cancelled => "cancelled"
  | .failed => "failed"

def started (db : DB) (planID : String) : DB :=
  (db.updateRecoveryPlanStatus planID .executing "executing recovery migrations").setRecoveryItems
    (fun i => decide (i.planID = planID) && decide (i.status = .planned)) .executing "migration execution started"

def startPlan (db : DB) (planID : String) : Except Err Unit × DB :=
  match rowAt (·.id) db.recoveryPlans planID with
  | none => (.error errNoRows, db)
  | some plan =>
    if plan.status ≠ .planned ∧ plan.status ≠ .executing then (.error ("recovery plan is not executable from status \"" ++ statusText plan.status ++ "\""), db)
    else (.ok (), started db planID)

def setMigration (db : DB) (id : String) (status : MigrationStatus) : DB :=
  { db with migrations := updateWhere (fun m => m.id = id) (fun m => { m with status := status }) db.migrations }

def handle (w : World) : (c : Call) → Resp c × World
  | .startPlan planID => ((startPlan w.db planID).1, { w with db := (startPlan w.db planID).2 })
  | .planRow planID => (orNoRows (rowAt (·.id) w.db.recoveryPlans planID), w)
  | .planItems planID => (.ok (w.db.recoveryItems.filter fun i => i.planID = planID), w)
  | .planIDs => (.ok (w.db.recoveryPlans.map (·.id)).reverse, w)
  | .setPlan planID status reason => (.ok (), { w with db := w.db.updateRecoveryPlanStatus planID status reason })
  | .setItem itemID status reason => (.ok (), { w with db := w.db.updateRecoveryItemStatus itemID status reason })
  | .itemRow itemID => (orNoRows (rowAt (·.id) w.db.recoveryItems itemID), w)
  | .setItems planID status reason => (.ok (), { w with db := w.db.updateRecoveryItemsForPlanStatus planID status reason })
  | .setReservation id status =>
    ((commit w.db (w.db.updatePlacementReservationStatus id status)).1,
      { w with db := (commit w.db (w.db.updatePlacementReservationStatus id status)).2 })
  | .beginRestore item => ((), { w with restores := item.id :: w.restores, restoring := item.id :: w.restoring })
  | .endRestore item => (.ok (), { w with restoring := w.restoring.erase item.id })
  | .getMigration id => (orNoRows ((w.db.migration id).map (·.status)), w)
  | .markFailed id _ => (.ok (), { w with db := setMigration w.db id .failed })
  | .cancelMigration id => (.ok (), { w with db := setMigration w.db id .cancelled })
  | .setMigration id status _ => (.ok (), { w with db := setMigration w.db id status })

end World

theorem World.startPlan_cases (db : DB) (planID : String) :
    (∃ e, World.startPlan db planID = (.error e, db)) ∨
    ∃ plan, rowAt (·.id) db.recoveryPlans planID = some plan ∧ (plan.status = .planned ∨ plan.status = .executing) ∧
      World.startPlan db planID = (.ok (), World.started db planID) := by
  unfold World.startPlan
  split
  · exact .inl ⟨_, rfl⟩
  rename_i plan hplan
  split
  · exact .inl ⟨_, rfl⟩
  · rename_i hstatus
    refine .inr ⟨plan, hplan, ?_, rfl⟩
    by_contra hne
    exact hstatus ⟨fun h => hne (.inl h), fun h => hne (.inr h)⟩

theorem planStatus_setPlan (w : World) (planID id : String) (status : RecoveryPlanStatus) (reason : String) :
    ({ w with db := w.db.updateRecoveryPlanStatus planID status reason } : World).planStatus id =
      if id = planID then (w.planStatus id).map fun _ => status else w.planStatus id := by
  simp only [World.planStatus, DB.updateRecoveryPlanStatus]
  rw [rowAt_updateAt planID]
  · split
    · rw [Option.map_map, Option.map_map]
      rfl
    · rfl
  · exact fun _ => rfl

theorem setReservation_plans (db : DB) (id : String) (status : ReservationStatus) :
    (commit db (db.updatePlacementReservationStatus id status)).2.recoveryPlans = db.recoveryPlans := by
  unfold DB.updatePlacementReservationStatus
  split <;> rfl

def fault : (c : Call) → Err → Option (Resp c)
  | .startPlan _, e => some (.error e)
  | .planRow _, e => some (.error e)
  | .planItems _, e => some (.error e)
  | .planIDs, e => some (.error e)
  | .setPlan .., e => some (.error e)
  | .setItem .., e => some (.error e)
  | .itemRow _, e => some (.error e)
  | .setItems .., e => some (.error e)
  | .setReservation .., e => some (.error e)
  | .beginRestore _, _ => none
  | .endRestore _, e => some (.error e)
  | .getMigration _, e => some (.error e)
  | .markFailed .., e => some (.error e)
  | .cancelMigration _, e => some (.error e)
  | .setMigration .., e => some (.error e)

def panels : System Resp Task World where
  program := Task.program executor
  handle := World.handle
  fault := fault
  tick w _ := w

/-! ## Outcomes -/

def isOutcome : RecoveryPlanStatus → Bool
  | .completed => true
  | .restored => true
  | .cancelled => true
  | .failed => true
  | _ => false

def isItemOutcome : RecoveryItemStatus → Bool
  | .completed => true
  | .restored => true
  | .cancelled => true
  | .failed => true
  | .skipped => true
  | _ => false

def Call.Quiet : Call → Prop
  | .startPlan _ => False
  | .beginRestore _ => False
  | .setPlan _ status _ => isOutcome status
  | .setItem _ status _ => isItemOutcome status
  | .setItems _ status _ => isItemOutcome status
  | _ => True

def Aside : Call → Prop
  | .itemRow _ => True
  | .setReservation .. => True
  | .getMigration _ => True
  | .markFailed .. => True
  | .cancelMigration _ => True
  | .setMigration .. => True
  | _ => False

theorem Aside.quiet (c : Call) (h : Aside c) : c.Quiet := by
  cases c <;> trivial

theorem aside_cancelReservation (item : RecoveryItem) : All Aside (cancelReservation item) := by
  unfold cancelReservation
  split
  · trivial
  · exact ⟨trivial, fun _ => trivial⟩

theorem aside_failItems (reason : String) : ∀ items, All Aside (failItems reason items)
  | [] => trivial
  | item :: items => by
    unfold failItems
    split
    · exact aside_failItems reason items
    · refine (aside_cancelReservation item).bind fun _ => ?_
      split
      · exact aside_failItems reason items
      · exact ⟨trivial, fun _ => aside_failItems reason items⟩

theorem aside_cancelItems : ∀ items, All Aside (cancelItems executor items)
  | [] => trivial
  | item :: items => by
    refine (aside_cancelReservation item).bind fun _ => ?_
    split
    · exact (aside_cancelItems items).bind fun _ => trivial
    · refine All.bind ?_ fun _ => (aside_cancelItems items).bind fun _ => trivial
      split <;> exact ⟨trivial, fun _ => trivial⟩

theorem quiet_getRecoveryPlan (planID : String) : All Call.Quiet (getRecoveryPlan planID) := by
  refine All.ok ⟨trivial, fun _ => trivial⟩ (fun row => ?_) fun _ => trivial
  refine ⟨trivial, fun r => ?_⟩
  cases r <;> trivial

theorem quiet_updateRecoveryPlanStatus (planID : String) (status : RecoveryPlanStatus) (h : isOutcome status) (reason : String) :
    All Call.Quiet (updateRecoveryPlanStatus planID status reason) := by
  refine All.ok ⟨h, fun _ => trivial⟩ (fun _ => ?_) fun _ => trivial
  exact quiet_getRecoveryPlan planID

theorem quiet_updateRecoveryItemStatus (itemID : String) (status : RecoveryItemStatus) (h : isItemOutcome status)
    (reason : String) : All Call.Quiet (updateRecoveryItemStatus itemID status reason) := by
  refine All.ok ⟨h, fun _ => trivial⟩ (fun _ => ?_) fun _ => trivial
  exact ⟨trivial, fun _ => trivial⟩

theorem quiet_getPlans : ∀ ids, All Call.Quiet (getPlans ids)
  | [] => trivial
  | id :: ids => by
    refine (quiet_getRecoveryPlan id).ok (fun plan => ?_) fun _ => trivial
    refine (quiet_getPlans ids).bind fun r => ?_
    cases r <;> trivial

theorem quiet_failPlan (planID reason : String) : All Call.Quiet (failPlan planID reason) := by
  refine (quiet_getRecoveryPlan planID).bind fun r => ?_
  cases r with
  | error => exact quiet_updateRecoveryPlanStatus planID _ rfl reason
  | ok existing =>
    refine ((aside_failItems reason existing.2).mono Aside.quiet).bind fun _ => ⟨rfl, fun _ => ?_⟩
    exact quiet_updateRecoveryPlanStatus planID _ rfl reason

theorem quiet_failRecoveryItem (item : RecoveryItem) (cause : Err) : All Call.Quiet (failRecoveryItem item cause) := by
  unfold failRecoveryItem
  refine All.bind ?_ fun _ => ((aside_cancelReservation item).mono Aside.quiet).bind fun _ =>
    (quiet_updateRecoveryItemStatus item.id _ rfl cause).bind fun _ => (quiet_failPlan item.planID _).bind fun _ => trivial
  split
  · trivial
  · exact ⟨trivial, fun _ => trivial⟩

theorem quiet_cancelPlan (planID : String) : All Call.Quiet (cancelPlan executor planID) := by
  refine (quiet_getRecoveryPlan planID).ok (fun existing => ?_) fun _ => trivial
  refine ((aside_cancelItems executor existing.2).mono Aside.quiet).bind fun _ => ⟨rfl, fun _ => ?_⟩
  refine (quiet_updateRecoveryPlanStatus planID _ rfl _).bind fun r => ?_
  cases r <;> trivial

theorem quiet_cancelRecoveryItem (item : RecoveryItem) : All Call.Quiet (cancelRecoveryItem executor item) := by
  refine ((aside_cancelReservation item).mono Aside.quiet).bind fun errs => ?_
  cases errs with
  | cons => trivial
  | nil =>
    refine (quiet_updateRecoveryItemStatus item.id _ rfl _).ok (fun _ => ?_) fun _ => trivial
    exact quiet_cancelPlan executor item.planID

theorem quiet_reconcileItems : ∀ items, All Call.Quiet (reconcileItems executor items)
  | [] => trivial
  | item :: items => by
    unfold reconcileItems
    split
    · exact quiet_reconcileItems items
    split
    · exact (quiet_failRecoveryItem item _).bind fun _ => trivial
    refine All.ok ⟨trivial, fun _ => trivial⟩ (fun status => ?_) fun _ => trivial
    cases status with
    | completed =>
      refine (quiet_updateRecoveryItemStatus item.id _ rfl _).ok (fun _ => ?_) fun _ => trivial
      dsimp only
      split
      · exact quiet_reconcileItems items
      refine All.ok ⟨trivial, fun _ => trivial⟩ (fun _ => ?_) fun _ => trivial
      exact quiet_reconcileItems items
    | failed => exact (quiet_failRecoveryItem item _).bind fun _ => trivial
    | cancelled => exact (quiet_cancelRecoveryItem executor item).bind fun _ => trivial
    | _ => exact quiet_reconcileItems items

theorem quiet_reconcilePlan (planID : String) : All Call.Quiet (reconcilePlan executor planID) := by
  unfold reconcilePlan
  split
  · trivial
  refine (quiet_getRecoveryPlan planID).ok (fun plan => ?_) fun _ => trivial
  dsimp only
  split
  · trivial
  refine (quiet_reconcileItems executor plan.2).bind fun r => ?_
  cases r with
  | some => trivial
  | none =>
    refine (quiet_getRecoveryPlan planID).ok (fun plan => ?_) fun _ => trivial
    dsimp only
    split
    · exact quiet_updateRecoveryPlanStatus plan.1.id _ rfl _
    · trivial

theorem quiet_finishBackupRestorePlan (planID : String) : All Call.Quiet (finishBackupRestorePlan planID) := by
  refine (quiet_getRecoveryPlan planID).ok (fun plan => ?_) fun _ => trivial
  dsimp only
  split
  · trivial
  split <;> exact quiet_updateRecoveryPlanStatus plan.1.id _ rfl _

theorem quiet_getPlan (planID : String) : All Call.Quiet (getPlan executor planID) := by
  refine (quiet_getRecoveryPlan planID).ok (fun plan => ?_) fun _ => trivial
  dsimp only
  split
  · trivial
  · exact quiet_reconcilePlan executor planID

theorem quiet_reconcileAll : ∀ plans, All Call.Quiet (reconcileAll executor plans)
  | [] => trivial
  | plan :: plans => by
    unfold reconcileAll
    refine All.bind ?_ fun r => ?_
    · split
      · trivial
      · exact quiet_reconcilePlan executor plan.1.id
    cases r with
    | error => trivial
    | ok =>
      refine (quiet_reconcileAll plans).bind fun r => ?_
      cases r <;> trivial

theorem quiet_listPlans : All Call.Quiet (listPlans executor) := by
  refine All.bind ⟨trivial, fun r => ?_⟩ fun r => ?_
  · cases r with
    | error => trivial
    | ok ids => exact quiet_getPlans ids
  · cases r with
    | error => trivial
    | ok plans => exact quiet_reconcileAll executor plans

theorem quiet_program {t : Task} (h : ∀ planID, t ≠ .execute planID) : All Call.Quiet (t.program executor) := by
  cases t with
  | execute planID => exact absurd rfl (h planID)
  | reconcile planID => exact (quiet_reconcilePlan executor planID).bind fun _ => trivial
  | cancel planID => exact (quiet_cancelPlan executor planID).bind fun _ => trivial
  | failPlan planID reason => exact (quiet_failPlan planID reason).bind fun _ => trivial
  | failItem item cause => exact (quiet_failRecoveryItem item cause).bind fun _ => trivial
  | getPlan planID => exact (quiet_getPlan executor planID).bind fun _ => trivial
  | listPlans => exact (quiet_listPlans executor).bind fun _ => trivial
  | migrate => exact ⟨trivial, fun _ => trivial⟩

def twoServers : DB where
  placementReservations := [{ id := "r", nodeID := "n", reservationType := .recovery, expiresAt := 1800 }]
  recoveryPlans := [{ id := "p", status := .planned }]
  recoveryItems := [{ id := "a", planID := "p", reservationID := "r", status := .planned },
    { id := "b", planID := "p", status := .skipped }]

end ForgePlane.Coordinator
