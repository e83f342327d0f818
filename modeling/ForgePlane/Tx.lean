import ForgePlane.Store

/-!
# Transactions of the store

The statements of the migration, reservation and recovery stores. A composite
store function (an update followed by a read of the row) is a program over these
and stands with the service that calls it.
-/

namespace ForgePlane

structure CreateMigrationRequest where
  serverID : String
  sourceNodeID : String := ""
  targetNodeID : String := ""
  deriving DecidableEq, Repr

structure Migration where
  id : String
  serverID : String
  sourceNodeID : String
  targetNodeID : String
  status : MigrationStatus
  failureReason : String
  transferPhase : Option RunPhase
  idempotencyKey : String
  archiveSize : Nat
  archiveChecksum : String
  cleanupPending : Bool
  deriving DecidableEq, Repr

structure ServerRuntimeAllocation where
  id : String
  ip : String
  port : Nat
  deriving DecidableEq, Repr

structure ServerProvisionTarget where
  serverID : String := ""
  eggID : String := ""
  name : String := ""
  nodeURL : String := ""
  nodeToken : String := ""
  image : String := ""
  startupCommand : String := ""
  configJSON : Json := .obj []
  fileDenylist : List String := []
  environment : List (String × String) := []
  mounts : List Mount := []
  memoryMB : Int := 0
  swapMB : Nat := 0
  cpuShares : Int := 0
  cpuLimit : Nat := 0
  diskMB : Int := 0
  ioWeight : Nat := 0
  threads : String := ""
  oomDisabled : Bool := false
  allocationIP : String := ""
  allocationPort : Nat := 0
  allocations : List ServerRuntimeAllocation := []

structure CreatePlacementReservationRequest where
  nodeID : String
  serverID : String := ""
  migrationID : String := ""
  reservationType : ReservationType := .placement
  cpu : Int := 0
  memory : Int := 0
  disk : Int := 0
  status : ReservationStatus := .active
  expiresAt : Option Nat := none
  deriving DecidableEq, Repr

def CreatePlacementReservationRequest.amount (req : CreatePlacementReservationRequest) : Resource → Int
  | .cpu => req.cpu
  | .memory => req.memory
  | .disk => req.disk

def CreatePlacementReservationRequest.row (req : CreatePlacementReservationRequest) (id : String) (expiresAt : Nat) :
    PlacementReservation :=
  ⟨id, req.nodeID, req.serverID, req.migrationID, req.reservationType, req.cpu, req.memory, req.disk, req.status, expiresAt⟩

namespace DB

/-! ## Migrations -/

def createMigration (db : DB) (id : String) (req : CreateMigrationRequest) : Except Err DB :=
  if (db.migration id).isSome then .error errDuplicate
  else if (db.server req.serverID).isNone || (db.node req.sourceNodeID).isNone || (db.node req.targetNodeID).isNone then
    .error errForeignKey
  else .ok { db with
    migrations := db.migrations ++ [⟨id, req.serverID, req.sourceNodeID, req.targetNodeID, .planned, ""⟩]
    history := db.history ++ [⟨id, none, .planned, "migration created"⟩] }

/-- The row of `GetMigration`; a migration without a run has the zero values for the run's columns. -/
def selectMigration (db : DB) (id : String) : Except Err Migration :=
  match db.migration id with
  | none => .error errNoRows
  | some m =>
    let r := db.run id
    .ok ⟨m.id, m.serverID, m.sourceNodeID, m.targetNodeID, m.status, m.failureReason, r.map (·.phase),
      (r.map (·.idempotencyKey)).getD "", (r.map (·.archiveSize)).getD 0, (r.map (·.archiveChecksum)).getD "",
      (r.map (·.cleanupPending)).getD false⟩

def listMigrationHistory (db : DB) (id : String) : List MigrationHistory :=
  db.history.filter fun h => h.migrationID = id

def updateMigrationStatus (db : DB) (id : String) (status : MigrationStatus) (reason : String) : Except Err DB :=
  match db.migration id with
  | none => .error errNoRows
  | some m => .ok { db with
      migrations := updateWhere (fun m => m.id = id) (fun m => { m with
        status := status, failureReason := if status = .failed then reason else m.failureReason }) db.migrations
      history := db.history ++ [⟨id, some m.status, status, reason⟩] }

def firstAllocation : List Allocation → Option Allocation
  | [] => none
  | a :: as =>
    match firstAllocation as with
    | none => some a
    | some b => if a.id ≤ b.id then some a else some b

def insertMigrationRun (db : DB) (id protocolVersion idempotencyKey : String) : Except Err DB :=
  match db.migration id with
  | none => .error "target node has no available allocation"
  | some m =>
    match firstAllocation (db.allocations.filter fun a => decide (a.nodeID = m.targetNodeID) && a.serverID.isNone &&
        db.allocationReservations.all fun r => decide (r.allocationID ≠ a.id)) with
    | none => .error "target node has no available allocation"
    | some a =>
      if (db.run id).isSome || db.runs.any (fun r => r.idempotencyKey = idempotencyKey) ||
          db.allocationReservations.any (fun r => r.migrationID = id) then .error errDuplicate
      else .ok { db with
        runs := db.runs ++ [{ migrationID := id, protocolVersion := protocolVersion, idempotencyKey := idempotencyKey,
                              targetAllocationID := some a.id }]
        allocationReservations := db.allocationReservations ++ [⟨a.id, id⟩] }

def updateRun (db : DB) (id : String) (f : MigrationRun → MigrationRun) : DB :=
  { db with runs := updateWhere (fun r => r.migrationID = id) f db.runs }

/-- The rows `ClaimMigrationRun` updates: an unfinished run whose lease is free, over or the worker's own. -/
def claimable (r : MigrationRun) (worker : String) (now : Nat) : Bool :=
  !r.phase.terminal && (match r.leaseExpiresAt with
    | none => true
    | some t => decide (t < now) || decide (r.leaseOwner = some worker))

def claimMigrationRun (db : DB) (now : Nat) (id worker : String) (lease : Nat) : Except Err DB :=
  match db.run id with
  | none => .error "migration run is already claimed"
  | some r =>
    if claimable r worker now then
      .ok (db.updateRun id fun r => { r with
        leaseOwner := some worker, leaseExpiresAt := some (now + lease), attempt := r.attempt + 1 })
    else .error "migration run is already claimed"

def leaseSeconds : Nat := 120

def updateMigrationRun (db : DB) (now : Nat) (id : String) (phase : RunPhase) (lastError : String)
    (archiveSize : Nat) (checksum : String) : DB :=
  db.updateRun id fun r => { r with
    phase := phase, lastError := lastError
    archiveSize := if 0 < archiveSize then archiveSize else r.archiveSize
    archiveChecksum := if checksum ≠ "" then checksum else r.archiveChecksum
    leaseExpiresAt := some (now + leaseSeconds) }

def setMigrationCredentialHashes (db : DB) (id sourceHash destinationHash : String) (expiresAt : Nat) : DB :=
  db.updateRun id fun r => { r with
    sourceCredentialHash := sourceHash, destinationCredentialHash := destinationHash
    credentialExpiresAt := some expiresAt }

/-! ## Provisioning targets -/

def nodeDaemonCredential (n : NodeRow) : String :=
  if n.daemonTokenID ≠ "" && n.daemonToken ≠ "" then n.daemonTokenID ++ "." ++ n.daemonToken else ""

def serverProvisionTarget (db : DB) (id : String) : Except Err ServerProvisionTarget :=
  match db.server id with
  | none => .error errNoRows
  | some s =>
    match db.node s.nodeID with
    | none => .error errNoRows
    | some n =>
      let primary := s.primaryAllocationID.bind db.allocation
      .ok {
        serverID := s.id, eggID := s.eggID, name := s.name, nodeURL := n.baseURL, nodeToken := nodeDaemonCredential n
        image := s.image, startupCommand := s.startupCommand, configJSON := s.configJSON, fileDenylist := s.fileDenylist
        environment := s.environment, mounts := s.mounts, memoryMB := s.memoryMB, swapMB := s.swapMB
        cpuShares := s.cpuShares, cpuLimit := s.cpuLimit, diskMB := s.diskMB, ioWeight := s.ioWeight
        threads := s.threads, oomDisabled := s.oomDisabled
        allocationIP := (primary.map (·.ip)).getD "", allocationPort := (primary.map (·.port)).getD 0
        allocations := (db.allocations.filter fun a => a.serverID = some s.id).map fun a => ⟨a.id, a.ip, a.port⟩ }

def targetAllocation (db : DB) (allocationID : Option String) (nodeID serverID : String) : Except Err (String × Nat) :=
  match allocationID.bind db.allocation with
  | some a =>
    if a.nodeID = nodeID && (a.serverID = none || a.serverID = some serverID) then .ok (a.ip, a.port)
    else .error errNoRows
  | none => .error errNoRows

/-! ## The ownership commit -/

def commitOwnership (db : DB) (m : MigrationRow) (allocationID : String) : DB :=
  let taken := updateWhere (fun a => decide (a.id = allocationID) && decide (a.nodeID = m.targetNodeID) &&
    a.serverID.isNone) (fun a => { a with serverID := some m.serverID }) db.allocations
  { db with
    allocations := updateWhere (fun a => decide (a.serverID = some m.serverID) && decide (a.nodeID = m.sourceNodeID))
      (fun a => { a with serverID := none }) taken
    servers := updateWhere (fun s => s.id = m.serverID) (fun s => { s with
      nodeID := m.targetNodeID, primaryAllocationID := some allocationID
      transferring := false, transferState := .completed, configSyncPending := false }) db.servers
    migrations := updateWhere (fun x => x.id = m.id) (fun x => { x with status := .completed, failureReason := "" })
      db.migrations
    allocationReservations := deleteWhere (fun r => r.migrationID = m.id) db.allocationReservations
    runs := updateWhere (fun r => r.migrationID = m.id) (fun r => { r with
      phase := .completed, cleanupPending := true, leaseOwner := none, leaseExpiresAt := none }) db.runs
    history := db.history ++ [⟨m.id, some .restoring, .completed,
      "destination verified, restored, and container created; ownership committed"⟩] }

def finalizeMigration (db : DB) (id : String) : Except Err DB :=
  match db.migration id, db.run id with
  | some m, some r =>
    match r.targetAllocationID with
    | none => .error errScanNull
    | some allocationID =>
      if r.phase = .completed then .ok db
      else if r.phase ≠ .destinationCreated then .error "destination has not reported restored and created"
      else
        match db.server m.serverID with
        | none => .error errNoRows
        | some s =>
          if s.nodeID ≠ m.sourceNodeID then .error "server source ownership changed during migration"
          else if db.allocations.countP (fun a => decide (a.id = allocationID) &&
              decide (a.nodeID = m.targetNodeID) && a.serverID.isNone) ≠ 1 then
            .error "target allocation is no longer available"
          else .ok (db.commitOwnership m allocationID)
  | _, _ => .error errNoRows

def markMigrationCleanupComplete (db : DB) (id : String) : DB :=
  { db with
    runs := updateWhere (fun r => decide (r.migrationID = id) && decide (r.phase = .completed))
      (fun r => { r with cleanupPending := false }) db.runs }

def endRun (db : DB) (id : String) (phase : RunPhase) (f : MigrationRun → MigrationRun) : DB :=
  { db with
    allocationReservations := deleteWhere (fun r => r.migrationID = id) db.allocationReservations
    runs := updateWhere (fun r => decide (r.migrationID = id) && decide (r.phase ≠ .completed)) (fun r => { f r with
      phase := phase, cleanupPending := false, leaseOwner := none, leaseExpiresAt := none }) db.runs }

def cancelMigrationRun (db : DB) (id : String) : DB := db.endRun id .cancelled fun r => r

def failMigrationRun (db : DB) (id reason : String) : DB :=
  db.endRun id .failed fun r => { r with lastError := reason }

/-! ## Placement reservations -/

def openReservation (r : PlacementReservation) : Bool :=
  decide (r.status = .pending) || decide (r.status = .active)

def holds (now : Nat) (r : PlacementReservation) : Bool := openReservation r && decide (now < r.expiresAt)

def availableResource (total allocated : Int) : Int :=
  if total ≤ 0 then 0
  else if total - allocated < 0 then 0
  else total - allocated

def sums (amounts : List (Resource → Int)) : Except Err (Resource → Int) :=
  let total k := (amounts.map fun a => a k).sum
  if int4 (total .cpu) && int4 (total .memory) && int4 (total .disk) then .ok total else .error errOutOfRange

def serversOn (db : DB) (nodeID : String) : List ServerRow :=
  db.servers.filter fun s => decide (s.nodeID = nodeID) && decide (s.status ≠ "deleted")

def reservationsOn (db : DB) (now : Nat) (nodeID : String) : List PlacementReservation :=
  db.placementReservations.filter fun r => decide (r.nodeID = nodeID) && holds now r

def activeReservedCapacity (db : DB) (now : Nat) (nodeID : String) : Except Err (Resource → Int) :=
  sums ((db.reservationsOn now nodeID).map (·.amount))

structure NodeUsage where
  total : Resource → Int
  allocated : Resource → Int

def nodeUsage (db : DB) (nodeID : String) : Except Err NodeUsage :=
  match db.node nodeID with
  | none => .error errNoRows
  | some n => (sums ((db.serversOn nodeID).map (·.amount))).map fun allocated => ⟨n.total, allocated⟩

structure NodeCapacitySnapshot extends NodeUsage where
  available : Resource → Int

def NodeUsage.snapshot (u : NodeUsage) (reserved : Resource → Int) : NodeCapacitySnapshot where
  toNodeUsage := u
  available k := availableResource (u.total k) (u.allocated k + reserved k)

def nodeCapacitySnapshot (db : DB) (now : Nat) (nodeID : String) : Except Err NodeCapacitySnapshot := do
  let usage ← db.nodeUsage nodeID
  let reserved ← db.activeReservedCapacity now nodeID
  return usage.snapshot reserved

def checkCapacity (available requested : Resource → Int) : Except Err Unit :=
  if 0 < requested .cpu && available .cpu < requested .cpu then .error "reserved cpu exceeds available capacity"
  else if 0 < requested .memory && available .memory < requested .memory then
    .error "reserved memory exceeds available capacity"
  else if 0 < requested .disk && available .disk < requested .disk then .error "reserved disk exceeds available capacity"
  else .ok ()

def expirePlacementReservations (db : DB) (now : Nat) : DB :=
  { db with
    placementReservations := updateWhere (fun r => openReservation r && decide (r.expiresAt ≤ now))
      (fun r => { r with status := .expired }) db.placementReservations }

def reserved (db : DB) (now : Nat) (p : PlacementReservation → Bool) : Bool :=
  db.placementReservations.any fun r => p r && holds now r

/-- `INSERT INTO placement_reservations`: the amounts are `integer`s, the id is the primary key, and the
node, server and migration named must exist. -/
def insertReservation (db : DB) (r : PlacementReservation) : Except Err DB :=
  if !(int4 r.cpu && int4 r.memory && int4 r.disk) then .error errOutOfRange
  else if db.placementReservations.any (fun r' => r'.id = r.id) then .error errDuplicate
  else if (db.node r.nodeID).isNone || (r.serverID ≠ "" && (db.server r.serverID).isNone) ||
      (r.migrationID ≠ "" && (db.migration r.migrationID).isNone) then .error errForeignKey
  else .ok { db with placementReservations := db.placementReservations ++ [r] }

def createPlacementReservation (db : DB) (now : Nat) (id : String) (req : CreatePlacementReservationRequest) :
    Except Err DB :=
  if req.nodeID = "" then .error "nodeId is required"
  else
    let db := db.expirePlacementReservations now
    if (db.node req.nodeID).isNone then .error "node not found"
    else if req.serverID ≠ "" && db.reserved now (fun r => r.serverID = req.serverID) then
      .error "server already has an active placement reservation"
    else if req.migrationID ≠ "" && db.reserved now (fun r => r.migrationID = req.migrationID) then
      .error "migration already has an active placement reservation"
    else
      match db.nodeCapacitySnapshot now req.nodeID with
      | .error e => .error e
      | .ok capacity =>
        match checkCapacity capacity.available req.amount with
        | .error e => .error e
        | .ok () => db.insertReservation (req.row id (req.expiresAt.getD (now + 600)))

def updatePlacementReservationsForMigration (db : DB) (id : String) (status : ReservationStatus) : DB :=
  { db with
    placementReservations := updateWhere (fun r => decide (r.migrationID = id) && openReservation r)
      (fun r => { r with status := status }) db.placementReservations }

def updatePlacementReservationStatus (db : DB) (id : String) (status : ReservationStatus) : Except Err DB :=
  if db.placementReservations.any (fun r => decide (r.id = id) && openReservation r) then
    .ok { db with
      placementReservations := updateWhere (fun r => decide (r.id = id) && openReservation r)
        (fun r => { r with status := status }) db.placementReservations }
  else .error "reservation not found or already terminal"

/-! ## Recovery -/

def recoveryPlanItems (db : DB) (planID : String) : Except Err (List RecoveryItem) :=
  match rowAt (·.id) db.recoveryPlans planID with
  | none => .error errNoRows
  | some _ => .ok (db.recoveryItems.filter fun i => i.planID = planID)

def updateRecoveryPlanStatus (db : DB) (planID : String) (status : RecoveryPlanStatus) (reason : String) : DB :=
  { db with recoveryPlans := updateWhere (fun p => p.id = planID) (fun p => { p with
      status := status, reason := if reason = "" then p.reason else reason }) db.recoveryPlans }

def setRecoveryItems (db : DB) (p : RecoveryItem → Bool) (status : RecoveryItemStatus) (reason : String) : DB :=
  { db with recoveryItems := updateWhere p (fun i => { i with
      status := status, reason := if reason = "" then i.reason else reason }) db.recoveryItems }

def updateRecoveryItemStatus (db : DB) (itemID : String) (status : RecoveryItemStatus) (reason : String) : DB :=
  db.setRecoveryItems (fun i => i.id = itemID) status reason

def updateRecoveryItemsForPlanStatus (db : DB) (planID : String) (status : RecoveryItemStatus) (reason : String) : DB :=
  db.setRecoveryItems (fun i => decide (i.planID = planID) && (decide (i.status = .pending) ||
    decide (i.status = .planned) || decide (i.status = .executing))) status reason

end DB

/-! ## One step of the database -/

inductive Tx where
  | createMigration (id : String) (req : CreateMigrationRequest)
  | selectMigration (id : String)
  | listMigrationHistory (id : String)
  | updateMigrationStatus (id : String) (status : MigrationStatus) (reason : String)
  | getServer (id : String)
  | getNode (id : String)
  | serverNodeID (id : String)
  | getMigrationRun (id : String)
  | insertMigrationRun (id protocolVersion idempotencyKey : String)
  | claimMigrationRun (id worker : String) (lease : Nat)
  | updateMigrationRun (id : String) (phase : RunPhase) (lastError : String) (archiveSize : Nat) (checksum : String)
  | setMigrationCredentialHashes (id sourceHash destinationHash : String) (expiresAt : Nat)
  | serverProvisionTarget (id : String)
  | nodeBaseURL (id : String)
  | nodeDaemonCredential (id : String)
  | targetAllocation (allocationID : Option String) (nodeID serverID : String)
  | finalizeMigration (id : String)
  | markMigrationCleanupComplete (id : String)
  | cancelMigrationRun (id : String)
  | failMigrationRun (id reason : String)
  | createPlacementReservation (id : String) (req : CreatePlacementReservationRequest)
  | getPlacementReservation (id : String)
  | updatePlacementReservationsForMigration (id : String) (status : ReservationStatus)
  | updatePlacementReservationStatus (id : String) (status : ReservationStatus)
  | recoveryPlanItems (planID : String)
  | updateRecoveryPlanStatus (planID : String) (status : RecoveryPlanStatus) (reason : String)
  | updateRecoveryItemStatus (itemID : String) (status : RecoveryItemStatus) (reason : String)
  | updateRecoveryItemsForPlanStatus (planID : String) (status : RecoveryItemStatus) (reason : String)

abbrev Tx.Val : Tx → Type
  | .selectMigration _ => Migration
  | .listMigrationHistory _ => List MigrationHistory
  | .getServer _ => ServerRow
  | .getNode _ => NodeRow
  | .serverNodeID _ => String
  | .getMigrationRun _ => MigrationRun
  | .serverProvisionTarget _ => ServerProvisionTarget
  | .nodeBaseURL _ => String
  | .nodeDaemonCredential _ => String
  | .targetAllocation .. => String × Nat
  | .getPlacementReservation _ => PlacementReservation
  | .recoveryPlanItems _ => List RecoveryItem
  | _ => Unit

def commit (db : DB) : Except Err DB → Except Err Unit × DB
  | .ok db' => (.ok (), db')
  | .error e => (.error e, db)

def Tx.exec (now : Nat) (db : DB) : (t : Tx) → Except Err t.Val × DB
  | .createMigration id req => commit db (db.createMigration id req)
  | .selectMigration id => (db.selectMigration id, db)
  | .listMigrationHistory id => (.ok (db.listMigrationHistory id), db)
  | .updateMigrationStatus id status reason => commit db (db.updateMigrationStatus id status reason)
  | .getServer id => (orNoRows (db.server id), db)
  | .getNode id => (orNoRows (db.node id), db)
  | .serverNodeID id => (orNoRows ((db.server id).map (·.nodeID)), db)
  | .getMigrationRun id => (orNoRows (db.run id), db)
  | .insertMigrationRun id version key => commit db (db.insertMigrationRun id version key)
  | .claimMigrationRun id worker lease => commit db (db.claimMigrationRun now id worker lease)
  | .updateMigrationRun id phase lastError size checksum =>
    (.ok (), db.updateMigrationRun now id phase lastError size checksum)
  | .setMigrationCredentialHashes id src dst expires => (.ok (), db.setMigrationCredentialHashes id src dst expires)
  | .serverProvisionTarget id => (db.serverProvisionTarget id, db)
  | .nodeBaseURL id => (orNoRows ((db.node id).map (·.baseURL)), db)
  | .nodeDaemonCredential id => (orNoRows ((db.node id).map DB.nodeDaemonCredential), db)
  | .targetAllocation allocationID nodeID serverID => (db.targetAllocation allocationID nodeID serverID, db)
  | .finalizeMigration id => commit db (db.finalizeMigration id)
  | .markMigrationCleanupComplete id => (.ok (), db.markMigrationCleanupComplete id)
  | .cancelMigrationRun id => (.ok (), db.cancelMigrationRun id)
  | .failMigrationRun id reason => (.ok (), db.failMigrationRun id reason)
  | .createPlacementReservation id req => commit db (db.createPlacementReservation now id req)
  | .getPlacementReservation id => (orNoRows (rowAt (·.id) db.placementReservations id), db)
  | .updatePlacementReservationsForMigration id status =>
    (.ok (), db.updatePlacementReservationsForMigration id status)
  | .updatePlacementReservationStatus id status => commit db (db.updatePlacementReservationStatus id status)
  | .recoveryPlanItems planID => (db.recoveryPlanItems planID, db)
  | .updateRecoveryPlanStatus planID status reason => (.ok (), db.updateRecoveryPlanStatus planID status reason)
  | .updateRecoveryItemStatus itemID status reason => (.ok (), db.updateRecoveryItemStatus itemID status reason)
  | .updateRecoveryItemsForPlanStatus planID status reason =>
    (.ok (), db.updateRecoveryItemsForPlanStatus planID status reason)

end ForgePlane
