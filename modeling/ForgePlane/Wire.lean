import Mathlib

/-!
# What the panel and a node's daemon say to each other

The values carried by the requests of a migration: the scoped credential that opens a transfer on a
daemon, the report a daemon gives of it, the request that creates a container and the configuration
of a server.
-/

namespace ForgePlane

abbrev Err := String

inductive Json where
  | null
  | bool (b : Bool)
  | num (n : Int)
  | str (s : String)
  | arr (xs : List Json)
  | obj (fields : List (String × Json))

def Json.field (j : Json) (key : String) : Option Json :=
  match j with
  | .obj fields => (fields.find? fun f => f.1 = key).map (·.2)
  | _ => none

/-! ## Text -/

def isSpace (c : Char) : Bool :=
  decide (c.toNat ∈ [9, 10, 11, 12, 13, 32, 0x85, 0xA0, 0x1680, 0x2028, 0x2029, 0x202F, 0x205F, 0x3000]) ||
    (decide (0x2000 ≤ c.toNat) && decide (c.toNat ≤ 0x200A))

@[irreducible] def trimSpace (s : String) : String :=
  String.ofList (((s.toList.dropWhile isSpace).reverse.dropWhile isSpace).reverse)

@[irreducible] def equalFold (a b : String) : Bool := a.toList.map Char.toLower = b.toList.map Char.toLower

def sortedByKey {β : Type} (m : List (String × β)) : List (String × β) := m.insertionSort fun a b => a.1 ≤ b.1

def hexEncode (bytes : List UInt8) : String :=
  String.ofList (bytes.flatMap fun b => [Nat.digitChar (b.toNat / 16), Nat.digitChar (b.toNat % 16)])

structure Sha256 where
  sum : String → Vector UInt8 32

def credentialHash (H : Sha256) (value : String) : String := hexEncode (H.sum value).toList

/-! ## Transfers -/

def transferProtocolVersion : String := "forge-beacon-transfer/v1"

inductive Direction where
  | sourceControl
  | destinationUpload
  deriving DecidableEq, Repr

inductive TransferPhase where
  | authorized
  | archiving
  | archived
  | uploading
  | uploaded
  | verified
  | restoring
  | restored
  | activated
  | cancelled
  | cleaned
  | failed
  deriving DecidableEq, Repr

structure TransferCredentialClaims where
  version : String
  migrationID : String
  serverID : String
  sourceNodeID : String
  targetNodeID : String
  direction : Direction
  expiresAt : Nat
  deriving DecidableEq, Repr

structure TransferCredentialRegistration where
  claims : TransferCredentialClaims
  credentialHash : String
  deriving DecidableEq, Repr

structure TransferMetadata where
  phase : TransferPhase
  archiveSize : Nat := 0
  offset : Nat := 0
  checksum : String := ""
  deriving DecidableEq, Repr

structure TransferPushRequest where
  destinationURL : String
  destinationCredential : String
  idempotencyKey : String
  deriving DecidableEq, Repr

/-! ## Containers -/

structure PortBinding where
  hostIP : String
  hostPort : Int
  containerPort : Int
  protocol : String
  deriving DecidableEq, Repr

structure Mount where
  source : String
  target : String
  readOnly : Bool
  deriving DecidableEq, Repr

/-- The panel's create request, field by field what the daemon passes to the container
runtime; `rootDir` is filled in by the daemon. -/
structure CreateRequest where
  serverID : String
  image : String
  command : List String := []
  env : List String := []
  ports : List PortBinding := []
  mounts : List Mount := []
  memoryMB : Int := 0
  swapMB : Int := 0
  cpuShares : Int := 0
  cpuPercent : Int := 0
  cpuSet : String := ""
  ioWeight : Int := 0
  oomKillDisabled : Bool := false
  pidLimit : Int := 0
  stopSignal : String := ""
  stopTimeout : Int := 0
  uid : Int := 0
  gid : Int := 0
  dns : List String := []
  networkName : String := ""
  networkSubnet : String := ""
  networkGateway : String := ""
  networkIP : String := ""
  rootDir : String := ""
  deriving DecidableEq, Repr

/-! ## Requests of the panel

Transfer calls carry a bearer credential; the others are signed with the node's token. -/

inductive DaemonReq where
  | registerTransferCredential (token : String) (registration : TransferCredentialRegistration)
  | prepareTransferSource (migrationID credential : String)
  | pushTransferSource (migrationID credential : String) (push : TransferPushRequest)
  | restoreTransferDestination (migrationID credential : String)
  | finalizeTransferDestination (migrationID credential : String)
  | cleanupTransferSource (migrationID credential : String)
  | cancelTransfer (migrationID credential : String)
  | syncServerConfiguration (token serverID : String) (configuration : Json)
  | createServer (token : String) (req : CreateRequest) (diskMB : Int)
  | deleteServer (token serverID : String)
  | startServer (token serverID : String)

abbrev DaemonReq.Val : DaemonReq → Type
  | .registerTransferCredential .. => Unit
  | .prepareTransferSource .. => TransferMetadata
  | .pushTransferSource .. => TransferMetadata
  | .restoreTransferDestination .. => TransferMetadata
  | .finalizeTransferDestination .. => Unit
  | .cleanupTransferSource .. => Unit
  | .cancelTransfer .. => Unit
  | .syncServerConfiguration .. => Unit
  | .createServer .. => Bool
  | .deleteServer .. => Unit
  | .startServer .. => Unit

end ForgePlane
