import ForgePlane.Service

/-!
# Cancellation, cleanup, creation and recovery

The other programs that touch a migration, and the tasks a panel process can be
asked to carry out.
-/

namespace ForgePlane

namespace Service

/-! ## Cancellation

The cancelled worker context of the same process shows up as lost calls of that worker. -/

def rotateAndCancel (H : Sha256) (migration : Migration) (id : String) (target : ServerProvisionTarget)
    (direction : Direction) (expires : Nat) : Action Unit := do
  let credential ← credentialOrEmpty
  match ← daemon target.nodeURL (.registerTransferCredential target.nodeToken
      ⟨claims migration direction expires, credentialHash H credential⟩) with
  | .error _ => pure ()
  | .ok _ => ignore (daemon target.nodeURL (.cancelTransfer id credential))

def cancelTransfers (H : Sha256) (migration : Migration) (id : String) : Action Unit := do
  match ← Store.migrationProvisionTargets id with
  | .error _ => pure ()
  | .ok targets =>
    let expires := (← timeNow) + 5 * 60
    rotateAndCancel H migration id targets.1 .sourceControl expires
    rotateAndCancel H migration id targets.2 .destinationUpload expires

def recordCancelled (id : String) : Action (Except Err Migration) := do
  ignore (tx (.cancelMigrationRun id))
  match ← Store.updateMigrationStatus id .cancelled "migration cancelled" with
  | .error e => pure (.error e)
  | .ok migration =>
    ignore (tx (.updatePlacementReservationsForMigration migration.id .cancelled))
    pure (.ok migration)

def cancelMigration (H : Sha256) (id : String) : Action (Except Err Migration) := do
  match ← Store.getMigration id with
  | .error e => pure (.error e)
  | .ok migration =>
    if migration.status.terminal then pure (.error "terminal migration cannot be cancelled")
    else
      cancelTransfers H migration id
      recordCancelled id

/-! ## Cleanup of a committed migration -/

def cleanupMigration (H : Sha256) (id : String) : Action (Except Err Unit) := do
  match ← Store.getMigration id with
  | .error e => pure (.error e)
  | .ok migration =>
  if migration.status ≠ .completed || !migration.cleanupPending then pure (.ok ())
  else
  match ← Store.migrationProvisionTargets id with
  | .error e => pure (.error e)
  | .ok targets =>
  let expires := (← timeNow) + 5 * 60
  match ← newCredential with
  | .error e => pure (.error e)
  | .ok sourceCredential =>
  match ← newCredential with
  | .error e => pure (.error e)
  | .ok destinationCredential =>
  match ← daemon targets.1.nodeURL (.registerTransferCredential targets.1.nodeToken
      ⟨claims migration .sourceControl expires, credentialHash H sourceCredential⟩) with
  | .error e => pure (.error e)
  | .ok _ =>
  match ← daemon targets.2.nodeURL (.registerTransferCredential targets.2.nodeToken
      ⟨claims migration .destinationUpload expires, credentialHash H destinationCredential⟩) with
  | .error e => pure (.error e)
  | .ok _ =>
  match ← daemon targets.2.nodeURL (.finalizeTransferDestination id destinationCredential) with
  | .error e => pure (.error e)
  | .ok _ =>
  match ← daemon targets.1.nodeURL (.cleanupTransferSource id sourceCredential) with
  | .error e => pure (.error e)
  | .ok _ => tx (.markMigrationCleanupComplete id)

/-! ## Creation and preparation -/

def validateMigration (req : CreateMigrationRequest) : Action (Except Err CreateMigrationRequest) := do
  let serverID := trimSpace req.serverID
  if serverID = "" then pure (.error "serverId is required")
  else
  match ← tx (.getServer serverID) with
  | .error e => pure (.error e)
  | .ok server =>
  match ← (if trimSpace req.sourceNodeID = "" then tx (.serverNodeID serverID)
      else pure (.ok (trimSpace req.sourceNodeID)) : Action (Except Err String)) with
  | .error e => pure (.error e)
  | .ok sourceNodeID =>
  match ← tx (.getNode sourceNodeID) with
  | .error e => pure (.error e)
  | .ok source =>
  match ← (if trimSpace req.targetNodeID = "" then planTarget server source
      else pure (.ok (trimSpace req.targetNodeID)) : Action (Except Err String)) with
  | .error e => pure (.error e)
  | .ok targetNodeID =>
  if sourceNodeID = targetNodeID then pure (.error "target node must be different from source node")
  else
  match ← tx (.getNode targetNodeID) with
  | .error e => pure (.error e)
  | .ok target =>
  match ← validateTarget server source target with
  | .error e => pure (.error e)
  | .ok _ => pure (.ok ⟨serverID, sourceNodeID, targetNodeID⟩)

def createReservation (req : CreatePlacementReservationRequest) : Action (Except Err PlacementReservation) := do
  let id ← newUUID
  match ← tx (.createPlacementReservation id req) with
  | .error e => pure (.error e)
  | .ok _ => tx (.getPlacementReservation id)

def createMigration (req : CreateMigrationRequest) : Action (Except Err Migration) := do
  match ← validateMigration req with
  | .error e => pure (.error e)
  | .ok normalized =>
  match ← Store.createMigration normalized with
  | .error e => pure (.error e)
  | .ok migration =>
  match ← tx (.getServer normalized.serverID) with
  | .error e =>
    ignore (Store.updateMigrationStatus migration.id .failed "migration reservation server lookup failed")
    pure (.error e)
  | .ok (server : ServerRow) =>
  let expires := (← timeNow) + 30 * 60
  match ← createReservation {
      nodeID := migration.targetNodeID, serverID := migration.serverID, migrationID := migration.id
      reservationType := .migration, cpu := server.cpuShares, memory := server.memoryMB, disk := server.diskMB
      status := .active, expiresAt := some expires } with
  | .error e =>
    ignore (Store.updateMigrationStatus migration.id .failed "migration reservation failed")
    pure (.error e)
  | .ok _ => pure (.ok migration)

def prepareMigration (id : String) : Action (Except Err Migration) := do
  match ← Store.getMigration id with
  | .error e => pure (.error e)
  | .ok migration =>
  if migration.status ≠ .planned && migration.status ≠ .preparing then
    pure (.error "migration is not in a preparable state")
  else
  match ← Store.ensureMigrationRun id transferProtocolVersion with
  | .error e => pure (.error e)
  | .ok _ =>
  match ← (if migration.status = .planned then Store.updateMigrationStatus id .preparing "real transfer run prepared"
      else pure (.ok migration) : Action (Except Err Migration)) with
  | .error e => pure (.error e)
  | .ok _ => Store.getMigration id

end Service

/-! ## The recovery coordinator -/

namespace Recovery

def cancelReservationOf (item : RecoveryItem) : Action Unit :=
  if item.reservationID = "" then pure ()
  else ignore (tx (.updatePlacementReservationStatus item.reservationID .cancelled))

def failPlanItem (reason : String) (item : RecoveryItem) : Action Unit := do
  if item.status = .failed then pure ()
  else
    cancelReservationOf item
    if item.migrationID = "" then pure ()
    else ignore (Store.updateMigrationStatus item.migrationID .failed reason)

def failPlanItems (reason : String) : List RecoveryItem → Action Unit
  | [] => pure ()
  | item :: items => do
    failPlanItem reason item
    failPlanItems reason items

def failItemsOf (planID reason : String) : Action Unit := do
  match ← tx (.recoveryPlanItems planID) with
  | .error _ => pure ()
  | .ok items =>
    failPlanItems reason items
    ignore (tx (.updateRecoveryItemsForPlanStatus planID .failed reason))

def failPlan (planID reason : String) : Action Unit := do
  failItemsOf planID reason
  ignore (tx (.updateRecoveryPlanStatus planID .failed reason))

def failRecoveryItem (item : RecoveryItem) (cause : Err) : Action Unit := do
  if item.migrationID = "" then pure () else ignore (Service.markFailed item.migrationID cause)
  cancelReservationOf item
  ignore (tx (.updateRecoveryItemStatus item.id .failed cause))
  failPlan item.planID ("recovery migration failed: " ++ cause)

end Recovery

inductive Task where
  | create (req : CreateMigrationRequest)
  | createRecord (req : CreateMigrationRequest)
  | prepare (id : String)
  | run (worker id : String)
  | cancel (id : String)
  | cleanup (id : String)
  | markFailed (id reason : String)
  | failPlan (planID reason : String)
  | failRecoveryItem (item : RecoveryItem) (cause : Err)
  deriving DecidableEq, Repr

def Task.program (H : Sha256) : Task → Action Unit
  | .create req => ignore (Service.createMigration req)
  | .createRecord req => ignore (Store.createMigration req)
  | .prepare id => ignore (Service.prepareMigration id)
  | .run worker id => Service.run H worker id
  | .cancel id => ignore (Service.cancelMigration H id)
  | .cleanup id => ignore (Service.cleanupMigration H id)
  | .markFailed id reason => ignore (Service.markFailed id reason)
  | .failPlan planID reason => Recovery.failPlan planID reason
  | .failRecoveryItem item cause => Recovery.failRecoveryItem item cause

def panel {D : Type} (H : Sha256) (P : Platform D) : System Resp Task (World D) where
  program := Task.program H
  handle := P.handle
  fault := Platform.fault
  tick := Platform.tick

end ForgePlane
