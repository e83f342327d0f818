import ForgePlane.Host

/-!
# The transfer engine of a daemon

Each transfer has a record for each direction it is registered in, a credential that opens it until
it is consumed or expires, and a directory for its archives.
-/

namespace ForgePlane

structure TransferRecord where
  version : String
  migrationID : String
  serverID : String
  sourceNodeID : String
  targetNodeID : String
  direction : Direction
  phase : TransferPhase := .authorized
  credentialHash : String
  expiresAt : Nat
  consumed : Bool := false
  archiveSize : Nat := 0
  offset : Nat := 0
  checksum : String := ""
  deriving DecidableEq, Repr

def TransferRecord.metadata (r : TransferRecord) : TransferMetadata := ⟨r.phase, r.archiveSize, r.offset, r.checksum⟩

structure TransferFiles where
  migrationID : String
  source : Option Archive := none
  incoming : Option Archive := none
  previous : Option Tree := none

structure Node where
  token : String := ""
  host : Host := {}
  records : List TransferRecord := []
  files : List TransferFiles := []

namespace Node

def hasKey (id : String) (d : Direction) (r : TransferRecord) : Bool := decide (r.migrationID = id) && decide (r.direction = d)

def load (n : Node) (id : String) (d : Direction) : Option TransferRecord := n.records.find? (hasKey id d)

def save (n : Node) (r : TransferRecord) : Node :=
  { n with records := deleteWhere (hasKey r.migrationID r.direction) n.records ++ [r] }

def transferFiles (n : Node) (id : String) : TransferFiles :=
  (rowAt (·.migrationID) n.files id).getD { migrationID := id }

def saveFiles (n : Node) (f : TransferFiles) : Node :=
  { n with files := deleteWhere (fun g => g.migrationID = f.migrationID) n.files ++ [f] }

def setTree (n : Node) (serverID : String) (t : Option Tree) : Node := { n with host := n.host.setTree serverID t }

end Node

namespace Engine

def errUnauthorized : Err := "invalid transfer credential"
def errExpired : Err := "transfer credential expired"
def errReplayed : Err := "transfer credential has already been consumed"
def errOffsetMismatch : Err := "transfer offset does not match destination offset"
def errChecksumMismatch : Err := "transfer checksum mismatch"
def errTransferBounds : Err := "transfer exceeds declared total size"
def errInvalidBinding : Err := "transfer credential binding mismatch"

/-- The errors `writeTransferError` answers with 409, which a push tries again. -/
def conflict (e : Err) : Bool := e = errOffsetMismatch || e = errChecksumMismatch || e = errInvalidBinding

/-- The set of `ContainsAny` is a raw string, so its `\x00` forbids the letters `x` and `0`. -/
def safeID (value : String) : Bool :=
  value ≠ "" && value ≠ "." && value ≠ ".." && value.toList.all fun c => c ∉ ['/', '\\', 'x', '0']

def validateClaims (c : TransferCredentialClaims) : Except Err Unit :=
  if c.version ≠ transferProtocolVersion || c.migrationID = "" || c.serverID = "" || c.sourceNodeID = "" ||
      c.targetNodeID = "" || c.expiresAt = 0 then .error "incomplete transfer credential claims"
  else if !safeID c.migrationID || !safeID c.serverID || !safeID c.sourceNodeID || !safeID c.targetNodeID then
    .error "invalid transfer credential binding"
  else .ok ()

def validHash (hash : String) : Bool := decide (hash.toList.length = 64) && hash.toList.all isHexDigit

def lower (s : String) : String := String.ofList (s.toList.map Char.toLower)

/-- A registration rotates the credential of an existing record and keeps its phase. -/
def register (now : Nat) (n : Node) (reg : TransferCredentialRegistration) : Except Err Unit × Node :=
  let c := reg.claims
  match validateClaims c with
  | .error e => (.error e, n)
  | .ok _ =>
    if c.expiresAt < now then (.error errExpired, n)
    else if !validHash reg.credentialHash then (.error "credentialHash must be a SHA-256 hex digest", n)
    else
      match n.load c.migrationID c.direction with
      | some r =>
        if r.version ≠ c.version || r.serverID ≠ c.serverID || r.sourceNodeID ≠ c.sourceNodeID ||
            r.targetNodeID ≠ c.targetNodeID then (.error errInvalidBinding, n)
        else (.ok (), n.save { r with
          credentialHash := lower reg.credentialHash, expiresAt := c.expiresAt, consumed := false })
      | none => (.ok (), n.save {
          version := transferProtocolVersion, migrationID := c.migrationID, serverID := c.serverID
          sourceNodeID := c.sourceNodeID, targetNodeID := c.targetNodeID, direction := c.direction
          credentialHash := lower reg.credentialHash, expiresAt := c.expiresAt })

def authorize (H : Sha256) (now : Nat) (n : Node) (id : String) (d : Direction) (credential : String) :
    Except Err TransferRecord :=
  match n.load id d with
  | none => .error errUnauthorized
  | some r =>
    if r.version ≠ transferProtocolVersion then .error errInvalidBinding
    else if r.consumed then .error errReplayed
    else if r.expiresAt ≤ now then .error errExpired
    else if credentialHash H credential ≠ r.credentialHash then .error errUnauthorized
    else .ok r

def maxSize : Nat := 32 * 1024 * 1024 * 1024

def skips (site : Site) (t : Tree) (p : FilePath) : Bool :=
  decide (p ∈ [[".backups"], [".uploads"], [".transfers"]]) ||
  (match t.lookup [".pteroignore"] with
    | some (.file c) => site.ignored c (joinPath p) || site.ignored c (p.getLastD "")
    | _ => false) ||
  (match t.lookup p with
    | some .symlink => true
    | _ => false)

def carried (site : Site) (t : Tree) : Tree :=
  t.filter fun f => f.1.inits.all fun q => q = [] || !skips site t q

/-- A path the rooted file system refuses: a backslash or a zero byte in it, or a drive letter in front. -/
def invalidName (p : FilePath) : Bool :=
  (p.any fun c => c.toList.any fun x => x = '\\' || x = '\x00') ||
  match (p.headD "").toList with
  | a :: ':' :: _ => 'a' ≤ a && a ≤ 'z' || 'A' ≤ a && a ≤ 'Z'
  | _ => false

def createSecureArchive (site : Site) (t : Tree) : Except Err Archive :=
  let kept := carried site t
  if kept.any (fun f => invalidName f.1) then .error "invalid rooted filesystem path"
  else if kept.any (fun f => match f.2 with | .socket => true | _ => false) then
    .error "no such device or address"
  else .ok kept

def checksum (site : Site) (a : Archive) : String := hexEncode (site.digest a).toList

def extracts (site : Site) : FileNode → Except Err Unit
  | .dir => .ok ()
  | .file c => if maxSize < site.contentsSize c then .error errTransferBounds else .ok ()
  | _ => .error "unsupported archive entry type"

def extractSecureArchive (site : Site) (a : Archive) : Except Err Tree :=
  match a.forM (fun f => extracts site f.2) with
  | .error e => .error e
  | .ok _ => .ok a

/-! ## The steps of a transfer -/

section
variable (H : Sha256) (site : Site) (now : Nat) (n : Node) (id credential : String)

def prepareSource : Except Err TransferMetadata × Node :=
  match authorize H now n id .sourceControl credential with
  | .error e => (.error e, n)
  | .ok r =>
    if r.phase = .archived || r.phase = .uploaded then (.ok r.metadata, n)
    else
      match (n.host.tree r.serverID).elim (.error "no such file or directory") (createSecureArchive site) with
      | .error e => (.error e, n.save { r with phase := .failed })
      | .ok a =>
        let r := { r with
          phase := .archived, checksum := checksum site a, archiveSize := site.size a, offset := 0 }
        (.ok r.metadata, (n.saveFiles { n.transferFiles id with source := some a }).save r)

def sourceArchive (offset : Nat) : Except Err (Archive × TransferRecord) :=
  match authorize H now n id .sourceControl credential with
  | .error e => .error e
  | .ok r =>
    if r.phase ≠ .archived && r.phase ≠ .uploading && r.phase ≠ .uploaded then .error "source archive is not ready"
    else if r.archiveSize < offset then .error errOffsetMismatch
    else
      match (n.transferFiles id).source with
      | none => .error "no such file or directory"
      | some a => .ok (a, r)

/-- An upload of the rest of `body` from `offset`; nothing of it is lost on the way. -/
def appendDestination (offset total : Nat) (sum : String) (body : Archive) : Except Err TransferMetadata × Node :=
  match authorize H now n id .destinationUpload credential with
  | .error e => (.error e, n)
  | .ok r =>
    let held := (n.transferFiles id).incoming
    if r.phase = .restored || r.phase = .activated then (.error errReplayed, n)
    else if total = 0 || maxSize < total || offset ≠ r.offset || total < offset then (.error errOffsetMismatch, n)
    else if r.archiveSize ≠ 0 && r.archiveSize ≠ total then (.error errTransferBounds, n)
    else if r.checksum ≠ "" && !equalFold r.checksum sum then (.error errChecksumMismatch, n)
    else
      let r := { r with archiveSize := total, checksum := lower sum, phase := .uploading }
      if held.elim 0 site.size ≠ offset then (.error errOffsetMismatch, n.save r)
      else
        let file := held.getD body
        let n := n.saveFiles { n.transferFiles id with incoming := some file }
        let r := { r with offset := total }
        if !equalFold (checksum site file) sum then (.error errChecksumMismatch, n.save { r with phase := .failed })
        else (.ok { r with phase := .verified }.metadata, n.save { r with phase := .verified })

def restoreDestination : Except Err TransferMetadata × Node :=
  match authorize H now n id .destinationUpload credential with
  | .error e => (.error e, n)
  | .ok r =>
    if r.phase = .restored then (.ok r.metadata, n)
    else if r.phase ≠ .verified then (.error "destination archive is not verified", n)
    else
      match (n.transferFiles id).incoming.elim (.error "no such file or directory") (extractSecureArchive site) with
      | .error e => (.error e, n.save { r with phase := .failed })
      | .ok t =>
        let r := { r with phase := .restored }
        let n := n.saveFiles { n.transferFiles id with incoming := none, previous := n.host.tree r.serverID }
        (.ok r.metadata, (n.setTree r.serverID (some t)).save r)

def finalizeDestination : Except Err Unit × Node :=
  match authorize H now n id .destinationUpload credential with
  | .error e => (.error e, n)
  | .ok r =>
    if r.phase ≠ .restored then (.error "destination is not restored", n)
    else (.ok (), (n.saveFiles { n.transferFiles id with incoming := none, previous := none }).save
      { r with phase := .activated, consumed := true })

def cleanupSource : Except Err Unit × Node :=
  match authorize H now n id .sourceControl credential with
  | .error e => (.error e, n)
  | .ok r => (.ok (), (n.save { r with phase := .cleaned, consumed := true }).setTree r.serverID none)

end

/-- A displaced tree is put back under the server of whichever record there is; then the
transfer's directory goes, its records with it. -/
def cancel (n : Node) (id : String) : Node :=
  let record := (n.load id .destinationUpload).orElse fun _ => n.load id .sourceControl
  let n := match (n.transferFiles id).previous, record with
    | some t, some r => n.setTree r.serverID (some t)
    | _, _ => n
  { n with
    records := deleteWhere (fun r => r.migrationID = id) n.records
    files := deleteWhere (fun f => f.migrationID = id) n.files }

end Engine

end ForgePlane
