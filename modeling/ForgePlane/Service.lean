import ForgePlane.Calls

/-!
# The migration service

The worker that moves a server (`run`), its commit (`finalize`) and its compensation (`fail`), as
programs over the calls of a panel process.
-/

namespace ForgePlane

/-! ## Store functions made of several statements -/

namespace Store

def getMigration (id : String) : Action (Except Err Migration) := do
  match ← tx (.selectMigration id) with
  | .error e => pure (.error e)
  | .ok migration =>
    match ← tx (.listMigrationHistory id) with
    | .error e => pure (.error e)
    | .ok _ => pure (.ok migration)

def createMigration (req : CreateMigrationRequest) : Action (Except Err Migration) := do
  let id ← newUUID
  match ← tx (.createMigration id req) with
  | .error e => pure (.error e)
  | .ok _ => getMigration id

def updateMigrationStatus (id : String) (status : MigrationStatus) (reason : String) :
    Action (Except Err Migration) := do
  match ← tx (.updateMigrationStatus id status reason) with
  | .error e => pure (.error e)
  | .ok _ => getMigration id

def getMigrationRun (id : String) : Action (Except Err MigrationRun) := tx (.getMigrationRun id)

def ensureMigrationRun (id protocolVersion : String) : Action (Except Err MigrationRun) := do
  match ← getMigrationRun id with
  | .ok run => pure (.ok run)
  | .error e =>
    if e ≠ errNoRows then pure (.error e)
    else
      let key ← newUUID
      match ← tx (.insertMigrationRun id protocolVersion key) with
      | .error e => pure (.error e)
      | .ok _ => getMigrationRun id

def claimMigrationRun (id worker : String) (lease : Nat) : Action (Except Err MigrationRun) := do
  match ← tx (.claimMigrationRun id worker lease) with
  | .error e => pure (.error e)
  | .ok _ => getMigrationRun id

def updateMigrationRun (id : String) (phase : RunPhase) (lastError : String) (archiveSize : Nat) (checksum : String) :
    Action (Except Err MigrationRun) := do
  match ← tx (.updateMigrationRun id phase lastError archiveSize checksum) with
  | .error e => pure (.error e)
  | .ok _ => getMigrationRun id

/-- The source is wherever the server's row points when this runs; the target is that record
with the address, the credential and the reserved allocation of the target node. -/
def migrationProvisionTargets (id : String) :
    Action (Except Err (ServerProvisionTarget × ServerProvisionTarget)) := do
  match ← getMigration id with
  | .error e => pure (.error e)
  | .ok migration =>
  match ← getMigrationRun id with
  | .error e => pure (.error e)
  | .ok run =>
  match ← tx (.serverProvisionTarget migration.serverID) with
  | .error e => pure (.error e)
  | .ok source =>
  match ← tx (.nodeBaseURL migration.targetNodeID) with
  | .error e => pure (.error e)
  | .ok (url : String) =>
  match ← tx (.nodeDaemonCredential migration.targetNodeID) with
  | .error e => pure (.error e)
  | .ok (token : String) =>
  match ← tx (.targetAllocation run.targetAllocationID migration.targetNodeID migration.serverID) with
  | .error e => pure (.error e)
  | .ok (address : String × Nat) =>
    let source : ServerProvisionTarget := source
    pure (.ok (source, { source with
      nodeURL := url, nodeToken := token, allocationIP := address.1, allocationPort := address.2
      allocations := [⟨run.targetAllocationID.getD "", address.1, address.2⟩] }))

end Store

/-! ## Provisioning requests -/

namespace Service

def mapSet (m : List (String × String)) (kv : String × String) : List (String × String) :=
  m.filter (fun b => b.1 ≠ kv.1) ++ [kv]

def environment (target : ServerProvisionTarget) : List (String × String) :=
  target.environment.foldl mapSet
    [("SERVER_MEMORY", toString target.memoryMB), ("SERVER_IP", target.allocationIP),
     ("SERVER_PORT", toString target.allocationPort)]

def sortedEnv (target : ServerProvisionTarget) : List String :=
  (sortedByKey (environment target)).map fun b => b.1 ++ "=" ++ b.2

def minecraftImage (image : String) : Bool := decide ("itzg/minecraft-server".toList <:+: image.toList)

def runtimeCreateRequest (target : ServerProvisionTarget) : CreateRequest := {
  serverID := target.serverID
  image := target.image
  command := if minecraftImage target.image then [] else ["/bin/sh", "-lc", target.startupCommand]
  env := sortedEnv target ++ if minecraftImage target.image then ["EULA=TRUE"] else []
  ports := target.allocations.map fun a => ⟨a.ip, a.port, a.port, "tcp"⟩
  mounts := target.mounts
  memoryMB := target.memoryMB, swapMB := target.swapMB, cpuShares := target.cpuShares, cpuPercent := target.cpuLimit
  ioWeight := target.ioWeight, cpuSet := target.threads, oomKillDisabled := target.oomDisabled
  networkName := "gamepanel" }

def portMappings (allocations : List ServerRuntimeAllocation) : List (String × Json) :=
  (allocations.map (·.ip)).dedup.map fun ip =>
    (ip, .arr ((allocations.filter fun a => a.ip = ip).map fun a => .num a.port))

def runtimeConfiguration (target : ServerProvisionTarget) : Json := .obj [
  ("uuid", .str target.serverID),
  ("name", .str target.name),
  ("suspended", .bool false),
  ("environment", .obj ((environment target).map fun b => (b.1, .str b.2))),
  ("invocation", .str target.startupCommand),
  ("dockerImage", .str target.image),
  ("egg", .obj [("id", .str target.eggID), ("fileDenylist", .arr (target.fileDenylist.map .str))]),
  ("build", .obj [("memoryLimit", .num target.memoryMB), ("diskSpace", .num target.diskMB),
    ("cpuShares", .num target.cpuShares), ("cpuLimit", .num target.cpuLimit), ("ioWeight", .num target.ioWeight),
    ("swapMb", .num target.swapMB), ("threads", .str target.threads), ("oomDisabled", .bool target.oomDisabled)]),
  ("allocations", .obj [
    ("default", .obj [("ip", .str target.allocationIP), ("port", .num target.allocationPort)]),
    ("mappings", .obj (portMappings target.allocations))]),
  ("config", match target.configJSON with | .obj fields => .obj fields | _ => .obj []),
  ("mounts", .arr (target.mounts.map fun m =>
    .obj [("source", .str m.source), ("target", .str m.target), ("read_only", .bool m.readOnly)])),
  ("provider", .str "docker")]

/-! ## The worker -/

def markFailed (id reason : String) : Action (Except Err Migration) := do
  match ← Store.updateMigrationStatus id .failed reason with
  | .error e => pure (.error e)
  | .ok migration =>
    ignore (tx (.updatePlacementReservationsForMigration migration.id .cancelled))
    pure (.ok migration)

structure Attempt where
  id : String
  migration : Migration
  run : MigrationRun
  source : ServerProvisionTarget
  target : ServerProvisionTarget
  sourceCredential : String
  destinationCredential : String

def sendIf (b : Bool) (url : String) (q : DaemonReq) : Action Unit :=
  if b then ignore (daemon url q) else pure ()

def fail (id : String) (cause : Err) (source target : ServerProvisionTarget) (destinationCreated : Bool)
    (sourceCredential destinationCredential : String) : Action Unit := do
  sendIf (destinationCredential ≠ "" && target.nodeURL ≠ "") target.nodeURL (.cancelTransfer id destinationCredential)
  sendIf (destinationCreated && target.nodeURL ≠ "") target.nodeURL (.deleteServer target.nodeToken target.serverID)
  sendIf (sourceCredential ≠ "" && source.nodeURL ≠ "") source.nodeURL (.cancelTransfer id sourceCredential)
  sendIf (source.nodeURL ≠ "") source.nodeURL (.startServer source.nodeToken source.serverID)
  ignore (tx (.failMigrationRun id cause))
  ignore (markFailed id cause)

def Attempt.fail (x : Attempt) (cause : Err) (destinationCreated : Bool) : Action Unit :=
  Service.fail x.id cause x.source x.target destinationCreated x.sourceCredential x.destinationCredential

def releaseSource (x : Attempt) : Action Unit := do
  match ← daemon x.target.nodeURL (.finalizeTransferDestination x.id x.destinationCredential) with
  | .error _ => pure ()
  | .ok _ =>
    match ← daemon x.source.nodeURL (.cleanupTransferSource x.id x.sourceCredential) with
    | .error _ => pure ()
    | .ok _ => ignore (tx (.markMigrationCleanupComplete x.id))

def finalize (x : Attempt) : Action Unit := do
  match ← tx (.finalizeMigration x.id) with
  | .error e => x.fail ("commit migration ownership: " ++ e) true
  | .ok _ =>
    releaseSource x
    ignore (tx (.updatePlacementReservationsForMigration x.id .completed))

def phaseOrder : RunPhase → Nat
  | .planned => 0
  | .credentialsRegistered => 1
  | .sourceArchived => 2
  | .destinationVerified => 3
  | .destinationRestored => 4
  | .destinationConfigured => 5
  | .destinationCreated => 6
  | .completed => 7
  | .failed => 0
  | .cancelled => 0

def phaseAtLeast (current expected : RunPhase) : Bool := phaseOrder expected ≤ phaseOrder current

def claims (migration : Migration) (direction : Direction) (expires : Nat) : TransferCredentialClaims :=
  ⟨transferProtocolVersion, migration.id, migration.serverID, migration.sourceNodeID, migration.targetNodeID, direction,
    expires⟩

def credentialOrEmpty : Action String := do
  match ← newCredential with
  | .ok credential => pure credential
  | .error _ => pure ""

/-! The stages of a run. A stage that failed has already compensated and returns `none`. -/

section
variable (H : Sha256)

def registerStage (x : Attempt) (expires : Nat) : Action (Option Unit) := do
  let sourceRegistration := ⟨claims x.migration .sourceControl expires, credentialHash H x.sourceCredential⟩
  let destinationRegistration :=
    ⟨claims x.migration .destinationUpload expires, credentialHash H x.destinationCredential⟩
  match ← tx (.setMigrationCredentialHashes x.id (credentialHash H x.sourceCredential)
      (credentialHash H x.destinationCredential) expires) with
  | .error e => x.fail e false; pure none
  | .ok _ =>
  match ← daemon x.source.nodeURL (.registerTransferCredential x.source.nodeToken sourceRegistration) with
  | .error e => x.fail ("register source credential: " ++ e) false; pure none
  | .ok _ =>
  match ← daemon x.target.nodeURL (.registerTransferCredential x.target.nodeToken destinationRegistration) with
  | .error e => x.fail ("register destination credential: " ++ e) false; pure none
  | .ok _ =>
    if phaseAtLeast x.run.phase .sourceArchived then pure (some ())
    else
      ignore (Store.updateMigrationRun x.id .credentialsRegistered "" 0 "")
      pure (some ())

end

def archiveStage (x : Attempt) : Action (Option TransferMetadata) := do
  if phaseAtLeast x.run.phase .sourceArchived then
    pure (some { phase := .archived, archiveSize := x.run.archiveSize, checksum := x.run.archiveChecksum })
  else
    match ← daemon x.source.nodeURL (.prepareTransferSource x.id x.sourceCredential) with
    | .error e => x.fail ("prepare source: " ++ e) false; pure none
    | .ok (archive : TransferMetadata) =>
      if archive.phase ≠ .archived || archive.archiveSize = 0 || archive.checksum = "" then
        x.fail "source did not report a complete archive" false; pure none
      else
        ignore (Store.updateMigrationStatus x.id .transferring "source stopped and archive created")
        ignore (Store.updateMigrationRun x.id .sourceArchived "" archive.archiveSize archive.checksum)
        pure (some archive)

def pushStage (x : Attempt) (archive : TransferMetadata) : Action (Option Unit) := do
  if phaseAtLeast x.run.phase .destinationVerified then pure (some ())
  else
    match ← daemon x.source.nodeURL (.pushTransferSource x.id x.sourceCredential
        ⟨x.target.nodeURL, x.destinationCredential, x.migration.idempotencyKey ++ ":upload"⟩) with
    | .error e => x.fail ("transfer archive: " ++ e) false; pure none
    | .ok (verified : TransferMetadata) =>
      if verified.phase ≠ .verified || verified.offset ≠ archive.archiveSize ||
          !equalFold verified.checksum archive.checksum then
        x.fail "destination verification report is inconsistent with source archive" false; pure none
      else
        ignore (Store.updateMigrationRun x.id .destinationVerified "" verified.archiveSize verified.checksum)
        ignore (Store.updateMigrationStatus x.id .restoring "destination checksum verified")
        pure (some ())

def restoreStage (x : Attempt) : Action (Option Unit) := do
  if phaseAtLeast x.run.phase .destinationRestored then pure (some ())
  else
    match ← daemon x.target.nodeURL (.restoreTransferDestination x.id x.destinationCredential) with
    | .error e => x.fail ("restore destination: " ++ e) false; pure none
    | .ok (restored : TransferMetadata) =>
      if restored.phase ≠ .restored then
        x.fail "restore destination: destination did not report restored" false; pure none
      else
        ignore (Store.updateMigrationRun x.id .destinationRestored "" 0 "")
        pure (some ())

def configureStage (x : Attempt) : Action (Option Unit) := do
  if phaseAtLeast x.run.phase .destinationConfigured then pure (some ())
  else
    match ← daemon x.target.nodeURL
        (.syncServerConfiguration x.target.nodeToken x.target.serverID (runtimeConfiguration x.target)) with
    | .error e => x.fail ("sync destination configuration: " ++ e) false; pure none
    | .ok _ =>
      ignore (Store.updateMigrationRun x.id .destinationConfigured "" 0 "")
      pure (some ())

def createStage (x : Attempt) : Action (Option Unit) := do
  match ← daemon x.target.nodeURL
      (.createServer x.target.nodeToken (runtimeCreateRequest x.target) x.target.diskMB) with
  | .error e => x.fail ("create destination container: " ++ e) false; pure none
  | .ok (accepted : Bool) =>
    if !accepted then
      x.fail "create destination container: destination rejected container creation" false; pure none
    else
      ignore (Store.updateMigrationRun x.id .destinationCreated "" 0 "")
      pure (some ())

def transfer (x : Attempt) : Action Unit := do
  if x.run.phase = .destinationCreated then finalize x
  else
    match ← archiveStage x with
    | none => pure ()
    | some archive =>
    match ← pushStage x archive with
    | none => pure ()
    | some _ =>
    match ← restoreStage x with
    | none => pure ()
    | some _ =>
    match ← configureStage x with
    | none => pure ()
    | some _ =>
    match ← createStage x with
    | none => pure ()
    | some _ => finalize x

def run (H : Sha256) (worker id : String) : Action Unit := do
  match ← Store.claimMigrationRun id worker DB.leaseSeconds with
  | .error _ => pure ()
  | .ok run =>
  match ← Store.getMigration id with
  | .error e => fail id e {} {} false "" ""
  | .ok migration =>
  match ← Store.migrationProvisionTargets id with
  | .error e => fail id e {} {} false "" ""
  | .ok targets =>
    let sourceCredential ← credentialOrEmpty
    let destinationCredential ← credentialOrEmpty
    let expires := (← timeNow) + 30 * 60
    let x : Attempt := ⟨id, migration, run, targets.1, targets.2, sourceCredential, destinationCredential⟩
    match ← registerStage H x expires with
    | none => pure ()
    | some _ => transfer x

end Service

end ForgePlane
