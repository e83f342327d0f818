import ForgePlane.Table
import ForgePlane.Wire

/-!
# The panel's database

The tables a migration touches and the statements run on them. Each function is
one SQL transaction of the store: it commits the database it returns, or reports
an error and leaves the database alone. Times are seconds.
-/

namespace ForgePlane

/-! ## Rows -/

inductive MigrationStatus where
  | planned
  | preparing
  | transferring
  | restoring
  | completed
  | failed
  | cancelled
  deriving DecidableEq, Repr

def MigrationStatus.terminal : MigrationStatus → Bool
  | completed | failed | cancelled => true
  | _ => false

inductive RunPhase where
  | planned
  | credentialsRegistered
  | sourceArchived
  | destinationVerified
  | destinationRestored
  | destinationConfigured
  | destinationCreated
  | completed
  | failed
  | cancelled
  deriving DecidableEq, Repr

def RunPhase.terminal : RunPhase → Bool
  | completed | failed | cancelled => true
  | _ => false

structure MigrationRow where
  id : String
  serverID : String
  sourceNodeID : String
  targetNodeID : String
  status : MigrationStatus := .planned
  failureReason : String := ""
  deriving DecidableEq, Repr

structure MigrationHistory where
  migrationID : String
  fromStatus : Option MigrationStatus
  toStatus : MigrationStatus
  reason : String
  deriving DecidableEq, Repr

structure MigrationRun where
  migrationID : String
  protocolVersion : String := transferProtocolVersion
  phase : RunPhase := .planned
  idempotencyKey : String := ""
  attempt : Nat := 0
  leaseOwner : Option String := none
  leaseExpiresAt : Option Nat := none
  targetAllocationID : Option String := none
  archiveSize : Nat := 0
  archiveChecksum : String := ""
  sourceCredentialHash : String := ""
  destinationCredentialHash : String := ""
  credentialExpiresAt : Option Nat := none
  cleanupPending : Bool := false
  lastError : String := ""
  deriving DecidableEq, Repr

structure AllocationReservation where
  allocationID : String
  migrationID : String
  deriving DecidableEq, Repr

structure Allocation where
  id : String
  nodeID : String
  ip : String := "127.0.0.1"
  port : Nat := 25565
  serverID : Option String := none
  deriving DecidableEq, Repr

structure NodeRow where
  id : String
  baseURL : String
  daemonTokenID : String := ""
  daemonToken : String := ""
  cpuThreads : Int := 0
  memoryMB : Int := 0
  diskMB : Int := 0
  deriving DecidableEq, Repr

inductive ServerTransferState where
  | idle
  | queued
  | running
  | completed
  | failed
  deriving DecidableEq, Repr

/-- A server joined with its egg, its variables and its mounts, as `ServerProvisionTarget`
reads them. -/
structure ServerRow where
  id : String
  nodeID : String
  ownerID : String := ""
  primaryAllocationID : Option String := none
  status : String := ""
  eggID : String := ""
  name : String := ""
  image : String := ""
  startupCommand : String := ""
  configJSON : Json := .obj []
  fileDenylist : List String := []
  environment : List (String × String) := []
  mounts : List Mount := []
  memoryMB : Int := 0
  swapMB : Nat := 0
  cpuShares : Int := 0
  cpuLimit : Nat := 0
  diskMB : Int := 0
  ioWeight : Nat := 0
  threads : String := ""
  oomDisabled : Bool := false
  transferring : Bool := false
  transferState : ServerTransferState := .idle
  configSyncPending : Bool := false

inductive ReservationStatus where
  | pending
  | active
  | completed
  | cancelled
  | expired
  deriving DecidableEq, Repr

inductive ReservationType where
  | placement
  | migration
  | recovery
  deriving DecidableEq, Repr

structure PlacementReservation where
  id : String
  nodeID : String
  serverID : String := ""
  migrationID : String := ""
  reservationType : ReservationType := .placement
  cpu : Int := 0
  memory : Int := 0
  disk : Int := 0
  status : ReservationStatus := .active
  expiresAt : Nat
  deriving DecidableEq, Repr

inductive RecoveryItemStatus where
  | pending
  | planned
  | executing
  | completed
  | restored
  | cancelled
  | failed
  | skipped
  deriving DecidableEq, Repr

inductive RecoveryPlanStatus where
  | pending
  | planning
  | planned
  | executing
  | completed
  | restored
  | cancelled
  | failed
  deriving DecidableEq, Repr

structure RecoveryItem where
  id : String
  planID : String
  reservationID : String := ""
  migrationID : String := ""
  status : RecoveryItemStatus := .pending
  reason : String := ""
  deriving DecidableEq, Repr

structure RecoveryPlanRow where
  id : String
  status : RecoveryPlanStatus := .pending
  reason : String := ""
  deriving DecidableEq, Repr

inductive Resource where
  | cpu
  | memory
  | disk
  deriving DecidableEq, Repr

def NodeRow.total (n : NodeRow) : Resource → Int
  | .cpu => n.cpuThreads * 1024
  | .memory => n.memoryMB
  | .disk => n.diskMB

def ServerRow.amount (s : ServerRow) : Resource → Int
  | .cpu => s.cpuShares
  | .memory => s.memoryMB
  | .disk => s.diskMB

def PlacementReservation.amount (r : PlacementReservation) : Resource → Int
  | .cpu => r.cpu
  | .memory => r.memory
  | .disk => r.disk

structure DB where
  migrations : List MigrationRow := []
  history : List MigrationHistory := []
  runs : List MigrationRun := []
  allocationReservations : List AllocationReservation := []
  allocations : List Allocation := []
  nodes : List NodeRow := []
  servers : List ServerRow := []
  placementReservations : List PlacementReservation := []
  recoveryPlans : List RecoveryPlanRow := []
  recoveryItems : List RecoveryItem := []

namespace DB

def migration (db : DB) (id : String) : Option MigrationRow := rowAt (·.id) db.migrations id
def run (db : DB) (id : String) : Option MigrationRun := rowAt (·.migrationID) db.runs id
def server (db : DB) (id : String) : Option ServerRow := rowAt (·.id) db.servers id
def node (db : DB) (id : String) : Option NodeRow := rowAt (·.id) db.nodes id
def allocation (db : DB) (id : String) : Option Allocation := rowAt (·.id) db.allocations id

end DB

/-! ## Errors of the driver -/

def errNoRows : Err := "no rows in result set"
def errDuplicate : Err := "duplicate key value violates unique constraint"
def errForeignKey : Err := "insert or update violates foreign key constraint"
def errOutOfRange : Err := "integer out of range"
def errScanNull : Err := "cannot scan NULL into *string"

def orNoRows {α : Type} : Option α → Except Err α
  | some a => .ok a
  | none => .error errNoRows

def int4 (n : Int) : Bool := decide (-2147483648 ≤ n) && decide (n ≤ 2147483647)

end ForgePlane
