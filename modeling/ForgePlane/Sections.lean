import ForgePlane.Engine
import ForgePlane.Threads

/-!
# The transfer engine, section by section

The engine holds its lock to look at and to store a record, and lets go of it while it copies. Each locked
section is one step, and so is each step on the files in between.
-/

namespace ForgePlane

abbrev Bytes := List UInt8

structure Codec where
  sha : Bytes → Vector UInt8 32
  pack : Tree → Except Err Bytes
  unpack : Bytes → Except Err Tree

def Codec.checksum (K : Codec) (b : Bytes) : String := hexEncode (K.sha b).toList

inductive Entry where
  | sourceRecord
  | destinationRecord
  | archive
  | incoming
  | previous
  | staging
  deriving DecidableEq, Repr

/-- One transfer: its records, its uploaded files by inode, the directories of the servers, and
the contexts of the running operations, of which a cancellation ends the active one. -/
structure Disk where
  now : Nat := 0
  dir : Bool := false
  source : Option TransferRecord := none
  destination : Option TransferRecord := none
  archive : Option Bytes := none
  inodes : Nat := 0
  file : Nat → Bytes := fun _ => []
  incoming : Option Nat := none
  staging : Option Tree := none
  previous : Option Tree := none
  servers : String → Option Tree := fun _ => none
  active : Option Nat := none
  contexts : List Bool := []

namespace Disk

def load (d : Disk) : Direction → Option TransferRecord
  | .sourceControl => d.source
  | .destinationUpload => d.destination

def save (d : Disk) (r : TransferRecord) : Disk :=
  match r.direction with
  | .sourceControl => { d with dir := true, source := some r }
  | .destinationUpload => { d with dir := true, destination := some r }

def incomingFile (d : Disk) : Option Bytes := d.incoming.map d.file

def setFile (d : Disk) (inode : Nat) (b : Bytes) : Disk :=
  { d with file := fun i => if i = inode then b else d.file i }

def setServer (d : Disk) (id : String) (t : Option Tree) : Disk :=
  { d with servers := fun x => if x = id then t else d.servers x }

def openContext (d : Disk) : Nat × Disk :=
  (d.contexts.length, { d with contexts := d.contexts ++ [false], active := some d.contexts.length })

def live (d : Disk) (ctx : Nat) : Bool := d.contexts[ctx]? = some false

def remove (d : Disk) : Entry → Disk
  | .sourceRecord => { d with source := none }
  | .destinationRecord => { d with destination := none }
  | .archive => { d with archive := none }
  | .incoming => { d with incoming := none }
  | .previous => { d with previous := none }
  | .staging => { d with staging := none }

def isEmpty (d : Disk) : Bool :=
  d.source.isNone && d.destination.isNone && d.archive.isNone && d.incoming.isNone && d.previous.isNone && d.staging.isNone

/-- What a rename of `old` to `target` moves there: a directory is replaced when it is empty. -/
def renames (old target : Option Tree) : Except Err Tree :=
  match old with
  | none => .error "no such file or directory"
  | some t => if target.all (·.isEmpty) then .ok t else .error "directory not empty"

/-! ## Locked sections -/

section
variable (H : Sha256) (K : Codec) (d : Disk)

def authorize (direction : Direction) (credential : String) : Except Err TransferRecord :=
  match d.load direction with
  | none => .error Engine.errUnauthorized
  | some r =>
    if r.version ≠ transferProtocolVersion || r.direction ≠ direction then .error Engine.errInvalidBinding
    else if r.consumed then .error Engine.errReplayed
    else if r.expiresAt ≤ d.now then .error Engine.errExpired
    else if credentialHash H credential ≠ r.credentialHash then .error Engine.errUnauthorized
    else .ok r

def register (reg : TransferCredentialRegistration) : Except Err Unit × Disk :=
  let c := reg.claims
  match Engine.validateClaims c with
  | .error e => (.error e, d)
  | .ok _ =>
    if c.expiresAt < d.now then (.error Engine.errExpired, d)
    else if !Engine.validHash reg.credentialHash then (.error "credentialHash must be a SHA-256 hex digest", d)
    else
      match d.load c.direction with
      | some r =>
        if r.version ≠ c.version || r.serverID ≠ c.serverID || r.sourceNodeID ≠ c.sourceNodeID ||
            r.targetNodeID ≠ c.targetNodeID || r.direction ≠ c.direction then (.error Engine.errInvalidBinding, d)
        else (.ok (), d.save { r with
          credentialHash := Engine.lower reg.credentialHash, expiresAt := c.expiresAt, consumed := false })
      | none => (.ok (), d.save {
          version := transferProtocolVersion, migrationID := c.migrationID, serverID := c.serverID
          sourceNodeID := c.sourceNodeID, targetNodeID := c.targetNodeID, direction := c.direction
          credentialHash := Engine.lower reg.credentialHash, expiresAt := c.expiresAt })

def beginPrepare (credential : String) : Except Err (TransferRecord × Option Nat) × Disk :=
  match d.authorize H .sourceControl credential with
  | .error e => (.error e, d)
  | .ok r =>
    if r.phase = .archived || r.phase = .uploaded then (.ok (r, none), d)
    else
      let r := { r with phase := .archiving }
      (.ok (r, some d.openContext.1), d.openContext.2.save r)

def endPrepare (r : TransferRecord) (result : Except Err (String × Nat)) : Except Err TransferMetadata × Disk :=
  let d := { d with active := none }
  match result with
  | .error e => (.error e, d.save { r with phase := .failed })
  | .ok (sum, size) =>
    let r := { r with phase := .archived, checksum := sum, archiveSize := size, offset := 0 }
    (.ok r.metadata, d.save r)

def openIncoming : Nat × Disk :=
  match d.incoming with
  | some i => (i, d)
  | none => (d.inodes, { d.setFile d.inodes [] with inodes := d.inodes + 1, incoming := some d.inodes })

def beginAppend (credential : String) (offset total : Int) (sum : String) :
    Except Err (TransferRecord × Nat × Nat) × Disk :=
  match d.authorize H .destinationUpload credential with
  | .error e => (.error e, d)
  | .ok r =>
    if r.phase = .restored || r.phase = .activated then (.error Engine.errReplayed, d)
    else if total ≤ 0 || Engine.maxSize < total || offset < 0 || offset ≠ r.offset || total < offset then
      (.error Engine.errOffsetMismatch, d)
    else if r.archiveSize ≠ 0 && (r.archiveSize : Int) ≠ total then (.error Engine.errTransferBounds, d)
    else if r.checksum ≠ "" && !equalFold r.checksum sum then (.error Engine.errChecksumMismatch, d)
    else
      let r := { r with archiveSize := total.toNat, checksum := Engine.lower sum, phase := .uploading }
      let opened := (d.save r).openIncoming
      if ((opened.2.file opened.1).length : Int) ≠ offset then (.error Engine.errOffsetMismatch, opened.2)
      else (.ok (r, opened.1, opened.2.openContext.1), opened.2.openContext.2)

def endAppend (r : TransferRecord) (offset total : Int) (sum : String) (written : Nat) (copyErr : Option Err) :
    Except Err TransferMetadata × Disk :=
  let d := { d with active := none }
  let r := { r with offset := (offset + written).toNat }
  match copyErr with
  | some e => (.error e, d.save r)
  | none =>
    if total - offset < written then (.error Engine.errTransferBounds, d.save r)
    else if (r.offset : Int) < total then (.ok r.metadata, d.save r)
    else
      match d.incomingFile with
      | none => (.error "no such file or directory", d.save r)
      | some b =>
        if !equalFold (K.checksum b) sum then (.error Engine.errChecksumMismatch, d.save { r with phase := .failed })
        else (.ok { r with phase := .verified }.metadata, d.save { r with phase := .verified })

def beginRestore (credential : String) : Except Err (TransferRecord × Option Nat) × Disk :=
  match d.authorize H .destinationUpload credential with
  | .error e => (.error e, d)
  | .ok r =>
    if r.phase = .restored then (.ok (r, none), d)
    else if r.phase ≠ .verified then (.error "destination archive is not verified", d)
    else
      let r := { r with phase := .restoring }
      let d := { d with dir := true, staging := some [] }
      (.ok (r, some d.openContext.1), d.openContext.2.save r)

def endRestore (r : TransferRecord) (failure : Option Err) : Except Err TransferMetadata × Disk :=
  let d := { d with active := none }
  match failure with
  | some e => (.error e, d.save { r with phase := .failed })
  | none =>
    let r := { r with phase := .restored }
    (.ok r.metadata, (d.save r).remove .incoming)

def beginFinalize (credential : String) : Except Err Unit × Disk :=
  match d.authorize H .destinationUpload credential with
  | .error e => (.error e, d)
  | .ok r =>
    if r.phase ≠ .restored then (.error "destination is not restored", d)
    else (.ok (), d.save { r with phase := .activated, consumed := true })

def beginCleanup (credential : String) : Except Err String × Disk :=
  match d.authorize H .sourceControl credential with
  | .error e => (.error e, d)
  | .ok r => (.ok r.serverID, d.save { r with phase := .cleaned, consumed := true })

def beginCancel : Disk :=
  let consume : TransferRecord → TransferRecord := fun r => { r with phase := .cancelled, consumed := true }
  { d with
    contexts := match d.active with
      | some ctx => d.contexts.set ctx true
      | none => d.contexts
    active := none
    source := d.source.map consume
    destination := d.destination.map consume }

/-! ## Steps on the files -/

def packArchive (ctx : Nat) (serverID : String) : Except Err (String × Nat) × Disk :=
  -- the walk looks at the context before each entry
  if !d.live ctx && (d.servers serverID).any (!·.isEmpty) then (.error "context canceled", d)
  else
    match (d.servers serverID).elim (.error "no such file or directory") K.pack with
    | .error e => (.error e, d)
    | .ok b => (.ok (K.checksum b, b.length), { d with dir := true, archive := some b })

def writeAt (inode pos : Nat) (b : Bytes) : Disk :=
  let old := d.file inode
  d.setFile inode (old.take pos ++ List.replicate (pos - old.length) 0 ++ b ++ old.drop (pos + b.length))

def unpackIncoming (ctx : Nat) : Except Err Unit × Disk :=
  match d.staging, d.incomingFile with
  | some _, some b =>
    if !d.live ctx then (.error "context canceled", d)
    else
      match K.unpack b with
      | .error e => (.error e, d)
      | .ok t => (.ok (), { d with staging := some t })
  | _, _ => (.error "no such file or directory", d)

def renameAside (serverID : String) : Except Err Unit × Disk :=
  if !d.dir then (.error "no such file or directory", d)
  else
    match renames (d.servers serverID) d.previous with
    | .error e => (.error e, d)
    | .ok t => (.ok (), { d.setServer serverID none with previous := some t })

def renameStaging (serverID : String) : Except Err Unit × Disk :=
  match renames d.staging (d.servers serverID) with
  | .error e => (.error e, d)
  | .ok t => (.ok (), { d.setServer serverID (some t) with staging := none })

def renamePrevious (serverID : String) : Except Err Unit × Disk :=
  match renames d.previous (d.servers serverID) with
  | .error e => (.error e, d)
  | .ok t => (.ok (), { d.setServer serverID (some t) with previous := none })

end

end Disk

/-! ## The operations -/

inductive DiskCall where
  | register (reg : TransferCredentialRegistration)
  | authorize (direction : Direction) (credential : String)
  | beginPrepare (credential : String)
  | packArchive (ctx : Nat) (serverID : String)
  | endPrepare (r : TransferRecord) (result : Except Err (String × Nat))
  | beginAppend (credential : String) (offset total : Int) (sum : String)
  | alive (ctx : Nat)
  | writeAt (inode pos : Nat) (b : Bytes)
  | endAppend (r : TransferRecord) (offset total : Int) (sum : String) (written : Nat) (copyErr : Option Err)
  | beginRestore (credential : String)
  | unpackIncoming (ctx : Nat)
  | statServer (serverID : String)
  | renameAside (serverID : String)
  | renameStaging (serverID : String)
  | renamePrevious (serverID : String)
  | endRestore (r : TransferRecord) (failure : Option Err)
  | beginFinalize (credential : String)
  | beginCleanup (credential : String)
  | beginCancel
  | statPrevious
  | serverOf (direction : Direction)
  | removeServer (serverID : String)
  | remove (e : Entry)
  | removeDir

namespace DiskCall

abbrev Answer : DiskCall → Type
  | register _ => Except Err Unit
  | authorize _ _ => Except Err TransferRecord
  | beginPrepare _ => Except Err (TransferRecord × Option Nat)
  | packArchive _ _ => Except Err (String × Nat)
  | endPrepare _ _ => Except Err TransferMetadata
  | beginAppend _ _ _ _ => Except Err (TransferRecord × Nat × Nat)
  | alive _ => Bool
  | writeAt _ _ _ => Unit
  | endAppend _ _ _ _ _ _ => Except Err TransferMetadata
  | beginRestore _ => Except Err (TransferRecord × Option Nat)
  | unpackIncoming _ => Except Err Unit
  | statServer _ => Bool
  | renameAside _ => Except Err Unit
  | renameStaging _ => Except Err Unit
  | renamePrevious _ => Except Err Unit
  | endRestore _ _ => Except Err TransferMetadata
  | beginFinalize _ => Except Err Unit
  | beginCleanup _ => Except Err String
  | beginCancel => Unit
  | statPrevious => Bool
  | serverOf _ => Option String
  | removeServer _ => Unit
  | remove _ => Unit
  | removeDir => Unit

def begins : DiskCall → Bool
  | register _ | authorize _ _ | beginPrepare _ | beginAppend _ _ _ _ | beginRestore _ | beginFinalize _
  | beginCleanup _ | beginCancel => true
  | _ => false

def stale : DiskCall → Option TransferRecord
  | endPrepare r _ | endAppend r _ _ _ _ _ | endRestore r _ => some r
  | _ => none

end DiskCall

def Disk.handle (H : Sha256) (K : Codec) (d : Disk) : (c : DiskCall) → c.Answer × Disk
  | .register reg => d.register reg
  | .authorize direction credential => (d.authorize H direction credential, d)
  | .beginPrepare credential => d.beginPrepare H credential
  | .packArchive ctx serverID => d.packArchive K ctx serverID
  | .endPrepare r result => d.endPrepare r result
  | .beginAppend credential offset total sum => d.beginAppend H credential offset total sum
  | .alive ctx => (d.live ctx, d)
  | .writeAt inode pos b => ((), d.writeAt inode pos b)
  | .endAppend r offset total sum written copyErr => d.endAppend K r offset total sum written copyErr
  | .beginRestore credential => d.beginRestore H credential
  | .unpackIncoming ctx => d.unpackIncoming K ctx
  | .statServer serverID => ((d.servers serverID).isSome, d)
  | .renameAside serverID => d.renameAside serverID
  | .renameStaging serverID => d.renameStaging serverID
  | .renamePrevious serverID => d.renamePrevious serverID
  | .endRestore r failure => d.endRestore r failure
  | .beginFinalize credential => d.beginFinalize H credential
  | .beginCleanup credential => d.beginCleanup H credential
  | .beginCancel => ((), d.beginCancel)
  | .statPrevious => (d.previous.isSome, d)
  | .serverOf direction => ((d.load direction).map (·.serverID), d)
  | .removeServer serverID => ((), d.setServer serverID none)
  | .remove e => ((), d.remove e)
  | .removeDir => ((), if d.isEmpty then { d with dir := false } else d)

namespace Sections

abbrev DiskProg := Prog DiskCall.Answer

def perform (c : DiskCall) : DiskProg c.Answer := .call c .ret

def prepareSource (credential : String) : DiskProg (Except Err TransferMetadata) := do
  match ← perform (.beginPrepare credential) with
  | .error e => return .error e
  | .ok (r, none) => return .ok r.metadata
  | .ok (r, some ctx) =>
    let result ← perform (.packArchive ctx r.serverID)
    perform (.endPrepare r result)

/-- `io.Copy` of a body that arrives in pieces and then ends, or fails. The context is looked at
before each read, and nothing is read past the limit. -/
def copyBody (ctx inode : Nat) (failure : Option Err) : List Bytes → (pos limit written : Nat) →
    DiskProg (Nat × Option Err)
  | [], _, limit, written =>
    if limit = 0 then return (written, none)
    else do
      let alive ← perform (.alive ctx)
      return (written, if alive then failure else some "context canceled")
  | piece :: pieces, pos, limit, written =>
    if limit = 0 then return (written, none)
    else do
      if !(← perform (.alive ctx)) then return (written, some "context canceled")
      let b := piece.take limit
      perform (.writeAt inode pos b)
      copyBody ctx inode failure pieces (pos + b.length) (limit - b.length) (written + b.length)

structure Body where
  pieces : List Bytes
  failure : Option Err := none

def appendDestination (credential : String) (offset total : Int) (sum : String) (body : Body) :
    DiskProg (Except Err TransferMetadata) := do
  match ← perform (.beginAppend credential offset total sum) with
  | .error e => return .error e
  | .ok (r, inode, ctx) =>
    let (written, copyErr) ←
      copyBody ctx inode body.failure body.pieces offset.toNat ((total - offset).toNat + 1) 0
    perform (.endAppend r offset total sum written copyErr)

def activateWithRollback (serverID : String) : DiskProg (Option Err) := do
  perform (.remove .previous)
  let hadCanonical ← perform (.statServer serverID)
  if hadCanonical then
    if let .error e ← perform (.renameAside serverID) then return some e
  match ← perform (.renameStaging serverID) with
  | .ok _ => return none
  | .error e =>
    if hadCanonical then
      let _ ← perform (.renamePrevious serverID)
    return some e

def restoreDestination (credential : String) : DiskProg (Except Err TransferMetadata) := do
  match ← perform (.beginRestore credential) with
  | .error e => return .error e
  | .ok (r, none) => return .ok r.metadata
  | .ok (r, some ctx) =>
    let failure ← match ← perform (.unpackIncoming ctx) with
      | .error e => pure (some e)
      | .ok _ => activateWithRollback r.serverID
    perform (.endRestore r failure)

def finalizeDestination (credential : String) : DiskProg (Except Err Unit) := do
  match ← perform (.beginFinalize credential) with
  | .error e => return .error e
  | .ok _ =>
    perform (.remove .previous)
    perform (.remove .staging)
    perform (.remove .incoming)
    return .ok ()

def removeAll : List Entry → DiskProg Unit
  | [] => perform .removeDir
  | e :: es => do
    perform (.remove e)
    removeAll es

def cancel (order : List Entry) : DiskProg Unit := do
  perform .beginCancel
  if ← perform .statPrevious then
    let destination ← perform (.serverOf .destinationUpload)
    let serverID ← match destination with
      | some id => pure (some id)
      | none => perform (.serverOf .sourceControl)
    if let some id := serverID then
      perform (.removeServer id)
      let _ ← perform (.renamePrevious id)
  removeAll order

def cleanupSource (credential : String) : DiskProg (Except Err Unit) := do
  match ← perform (.beginCleanup credential) with
  | .error e => return .error e
  | .ok serverID =>
    perform (.removeServer serverID)
    return .ok ()

end Sections

/-! ## Calls on one transfer -/

inductive Request where
  | register (reg : TransferCredentialRegistration)
  | authorize (direction : Direction) (credential : String)
  | prepare (credential : String)
  | append (credential : String) (offset total : Int) (sum : String) (body : Sections.Body)
  | restore (credential : String)
  | finalize (credential : String)
  | cleanup (credential : String)
  | cancel (order : List Entry)

namespace Request

open Sections

def program : Request → DiskProg Unit
  | register reg => do let _ ← perform (.register reg)
  | authorize direction credential => do let _ ← perform (.authorize direction credential)
  | prepare credential => do let _ ← prepareSource credential
  | append credential offset total sum body => do let _ ← appendDestination credential offset total sum body
  | restore credential => do let _ ← restoreDestination credential
  | finalize credential => do let _ ← finalizeDestination credential
  | cleanup credential => do let _ ← cleanupSource credential
  | cancel order => Sections.cancel order

end Request

def transfers (H : Sha256) (K : Codec) : System DiskCall.Answer Request Disk where
  program := Request.program
  handle := Disk.handle H K
  fault _ _ := none
  tick d n := { d with now := d.now + n }

end ForgePlane
