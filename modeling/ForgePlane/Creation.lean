import ForgePlane.Scheduler

/-!
# Creating a server

`CreateServer` of the cluster manager places a server, reserves the capacity, writes its row and has
the node create the workload. Each of its calls may fail; what it has done by then it undoes itself.
-/

namespace ForgePlane

structure EggRow where
  id : String
  defaultMemoryMB : Int := 1024
  image : String := ""
  rules : List (String × String) := []

structure CreateServerRequest where
  name : String
  nodeID : String := ""
  ownerID : String
  templateID : String
  allocationID : String := ""
  additionalAllocationIDs : List String := []
  memoryMB : Int
  cpuShares : Int
  cpuLimit : Int := 0
  diskMB : Int
  databaseLimit : Int := 0
  backupLimit : Int := 0
  allocationLimit : Int := 0
  ioWeight : Int := 500
  swapMB : Int := 0
  threads : String := ""
  oomDisabled : Bool := false
  dockerImage : String := ""
  startupCommand : String := ""
  startupVariables : List (String × String) := []

def CreateServerRequest.row (req : CreateServerRequest) (id : String) (memoryMB : Int) : ServerRow where
  id := id
  nodeID := req.nodeID
  ownerID := req.ownerID
  primaryAllocationID := some req.allocationID
  status := "provisioning"
  eggID := req.templateID
  name := trimSpace req.name
  image := trimSpace req.dockerImage
  startupCommand := trimSpace req.startupCommand
  memoryMB := memoryMB
  swapMB := req.swapMB.toNat
  cpuShares := req.cpuShares
  cpuLimit := req.cpuLimit.toNat
  diskMB := req.diskMB
  ioWeight := req.ioWeight.toNat
  threads := trimSpace req.threads
  oomDisabled := req.oomDisabled

def CreateServerRequest.invalid (req : CreateServerRequest) (memoryMB : Int) : Bool :=
  memoryMB ≤ 0 || req.cpuShares ≤ 0 || req.cpuLimit < 0 || req.diskMB ≤ 0 || req.databaseLimit < 0 ||
    req.backupLimit < 0 || req.allocationLimit < 0 || req.ioWeight < 10 || 1000 < req.ioWeight || req.swapMB < 0

namespace Cluster

open Scheduler (PlacementRequest)

structure PlacementDecision where
  nodeID : String
  allocationID : String := ""
  deriving DecidableEq, Repr

structure ServerControlTarget where
  serverID : String
  nodeURL : String
  nodeToken : String := ""
  deriving DecidableEq, Repr

/-! ## Calls -/

/-- `CreatePlacementReservation`, `CreateServer` and a new status of a reservation are a write and then a read. A read
is told from the others by what was written before it. -/
inductive Call where
  | placeServer (req : PlacementRequest)
  | findAvailableAllocation (nodeID : String)
  | insertReservation (id : String) (req : CreatePlacementReservationRequest)
  | setReservation (id : String) (status : ReservationStatus)
  | getReservation (id : String) (written : ReservationStatus)
  | insertServer (id : String) (req : CreateServerRequest)
  | getServer (id : String) (inserted : Bool)
  | provisionTarget (id : String)
  | syncConfiguration (target : ServerProvisionTarget)
  | markConfigSynced (id : String)
  | markConfigSyncFailed (id : String) (message : Err)
  | createWorkload (target : ServerProvisionTarget)
  | setProvisioned (id : String)
  | controlTarget (id : String)
  | deleteWorkload (target : ServerControlTarget)
  | hardDelete (id : String) (orphan : Option (String × Err))

abbrev Resp : Call → Type
  | .placeServer _ => Except Err PlacementDecision
  | .findAvailableAllocation _ => Except Err Allocation
  | .insertReservation .. => Except Err Unit
  | .setReservation .. => Except Err Nat
  | .getReservation .. => Except Err PlacementReservation
  | .insertServer .. => Except Err Unit
  | .getServer .. => Except Err ServerRow
  | .provisionTarget _ => Except Err ServerProvisionTarget
  | .syncConfiguration _ => Except Err Unit
  | .markConfigSynced _ => Except Err Unit
  | .markConfigSyncFailed .. => Except Err Unit
  | .createWorkload _ => Except Err Bool
  | .setProvisioned _ => Except Err Unit
  | .controlTarget _ => Except Err ServerControlTarget
  | .deleteWorkload _ => Except Err Unit
  | .hardDelete .. => Except Err Unit

abbrev Action := Prog Resp

def call (c : Call) : Action (Resp c) := .call c .ret

/-! ## The store -/

def createPlacementReservation (id : String) (req : CreatePlacementReservationRequest) :
    Action (Except Err PlacementReservation) := do
  match ← call (.insertReservation id req) with
  | .error e => pure (.error e)
  | .ok _ => call (.getReservation id .active)

def updatePlacementReservationStatus (id : String) (status : ReservationStatus) : Action (Except Err PlacementReservation) := do
  match ← call (.setReservation id status) with
  | .error e => pure (.error e)
  | .ok 0 => pure (.error "reservation not found or already terminal")
  | .ok _ => call (.getReservation id status)

def storeCreateServer (id : String) (req : CreateServerRequest) : Action (Except Err ServerRow) := do
  match ← call (.insertServer id req) with
  | .error e => pure (.error e)
  | .ok _ => call (.getServer id true)

/-! ## Provisioning -/

def syncProvisionTarget (target : ServerProvisionTarget) : Action (Except Err Unit) := do
  match ← call (.syncConfiguration target) with
  | .error e =>
    let _ ← call (.markConfigSyncFailed target.serverID e)
    pure (.error e)
  | .ok _ => call (.markConfigSynced target.serverID)

def provisionServer (serverID : String) : Action (Bool × Except Err Unit) := do
  match ← call (.provisionTarget serverID) with
  | .error e => pure (false, .error e)
  | .ok target =>
  match ← syncProvisionTarget target with
  | .error e => pure (false, .error e)
  | .ok _ =>
  match ← call (.createWorkload target) with
  | .error e => pure (false, .error e)
  | .ok false => pure (false, .error "runtime rejected server creation")
  | .ok true =>
  match ← call (.setProvisioned serverID) with
  | .error e => pure (true, .error e)
  | .ok _ => pure (true, .ok ())

/-! ## Compensation -/

def join (errs : List Err) : Err := String.intercalate "\n" errs

def compensateCreateFailure (serverID : String) (workloadCreated : Bool) (cause : Err) : Action Err := do
  match ← call (.controlTarget serverID) with
  | .error e => pure (join [cause, e])
  | .ok target =>
    let deleted ← if workloadCreated then call (.deleteWorkload target) else pure (.ok ())
    match deleted with
    | .error e =>
      match ← call (.hardDelete serverID (some (target.nodeURL, e))) with
      | .error e' => pure (join [cause, e, e'])
      | .ok _ => pure (join [cause, e])
    | .ok _ =>
      match ← call (.hardDelete serverID none) with
      | .error e => pure (join [cause, e])
      | .ok _ => pure cause

def cancelReservation : Option String → Action Unit
  | none => pure ()
  | some id => do let _ ← updatePlacementReservationStatus id .cancelled

/-! ## Creation -/

def firstNonEmpty (values : List String) : String := ((values.map trimSpace).find? fun v => v ≠ "").getD ""

def firstNonZero (values : List Int) : Int := (values.find? fun v => v ≠ 0).getD 0

def placementRequest (req : CreateServerRequest) (placement : PlacementRequest) : PlacementRequest := { placement with
  nodeID := firstNonEmpty [placement.nodeID, req.nodeID]
  requiredNode := firstNonEmpty [placement.requiredNode, req.nodeID]
  allocationID := firstNonEmpty [placement.allocationID, req.allocationID]
  memoryMB := firstNonZero [placement.memoryMB, req.memoryMB]
  cpuShares := firstNonZero [placement.cpuShares, req.cpuShares]
  diskMB := firstNonZero [placement.diskMB, req.diskMB] }

def reservationRequest (req : CreateServerRequest) (placement : PlacementRequest) : CreatePlacementReservationRequest where
  nodeID := req.nodeID
  reservationType := .placement
  cpu := firstNonZero [placement.cpu, placement.cpuShares, req.cpuShares]
  memory := firstNonZero [placement.memoryMB, req.memoryMB]
  disk := firstNonZero [placement.diskMB, req.diskMB]
  status := .active

structure Setup where
  runtime : Bool := true
  reserves : Bool := true
  serverID : String
  reservationID : String

def errRuntimeUnavailable : Err := "runtime unavailable"

section
variable (s : Setup)

def chooseAllocation (decision : PlacementDecision) : Action (Except Err String) := do
  if decision.allocationID ≠ "" then pure (.ok decision.allocationID)
  else
  match ← call (.findAvailableAllocation decision.nodeID) with
  | .error e => pure (.error e)
  | .ok allocation => pure (.ok allocation.id)

def reserve (req : CreateServerRequest) (placement : PlacementRequest) : Action (Except Err (Option String)) := do
  if !s.reserves then pure (.ok none)
  else
  match ← createPlacementReservation s.reservationID (reservationRequest req placement) with
  | .error e => pure (.error e)
  | .ok reservation => pure (.ok (some reservation.id))

def confirmReservation : Option String → Action (Except Err Unit)
  | none => pure (.ok ())
  | some id => do
    match ← updatePlacementReservationStatus id .completed with
    | .error e => pure (.error e)
    | .ok _ => pure (.ok ())

def abandon (reservation : Option String) (serverID : String) (created : Bool) (cause : Err) : Action (Except Err ServerRow) := do
  cancelReservation reservation
  pure (.error (← compensateCreateFailure serverID created cause))

def conclude (reservation : Option String) (serverID : String) : Action (Except Err ServerRow) := do
  match ← confirmReservation reservation with
  | .error e => abandon reservation serverID true e
  | .ok _ => call (.getServer serverID false)

def furnish (reservation : Option String) (serverID : String) : Action (Except Err ServerRow) := do
  if s.runtime then
    match ← provisionServer serverID with
    | (created, .error e) => abandon reservation serverID created e
    | (_, .ok _) => conclude reservation serverID
  else abandon reservation serverID false errRuntimeUnavailable

def insertAndFurnish (reservation : Option String) (req : CreateServerRequest) : Action (Except Err ServerRow) := do
  match ← storeCreateServer s.serverID req with
  | .error e =>
    cancelReservation reservation
    pure (.error e)
  | .ok server => furnish s reservation server.id

def createOn (req : CreateServerRequest) (placement : PlacementRequest) : Action (Except Err ServerRow) := do
  match ← reserve s req placement with
  | .error e => pure (.error e)
  | .ok reservation => insertAndFurnish s reservation req

def createServer (req : CreateServerRequest) (placement : PlacementRequest) : Action (Except Err ServerRow) := do
  if trimSpace req.name = "" || trimSpace req.templateID = "" then pure (.error "name and templateId are required")
  else if trimSpace req.ownerID = "" then pure (.error "ownerId is required")
  else
  let placement := placementRequest req placement
  match ← call (.placeServer placement) with
  | .error e => pure (.error e)
  | .ok decision =>
  match ← chooseAllocation decision with
  | .error e => pure (.error e)
  | .ok allocationID => createOn s { req with nodeID := decision.nodeID, allocationID := allocationID } placement

end

end Cluster

end ForgePlane
