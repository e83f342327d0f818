import ForgePlane.Calls
import ForgePlane.Configuration
import ForgePlane.Engine

/-!
# The daemons of a fleet

The handlers behind the panel's requests, composed from the transfer engine and the programs of a node, and
the fleet of nodes reached by their base URLs.
-/

namespace ForgePlane

def Node.run (site : Site) (n : Node) {α : Type} (p : Handler α) : α × Node :=
  let r := p.exec (Host.handle site) n.host
  (r.1, { n with host := r.2 })

namespace Beacon

/-! ## Handlers -/

def signed {α : Type} (n : Node) (token : String) (serve : Except Err α × Node) : Except Err α × Node :=
  if token = n.token then serve else (.error "unauthorized", n)

def bearer {α : Type} (n : Node) (credential : String) (serve : String → Except Err α × Node) : Except Err α × Node :=
  if trimSpace credential = "" then (.error "transfer bearer credential required", n) else serve (trimSpace credential)

def stopIfRunning (serverID : String) : Handler (Except Err Unit) := do
  match ← Docker.inspect serverID with
  | .error e => pure (.error ("inspect source container: " ++ e))
  | .ok none => pure (.ok ())
  | .ok (some actual) =>
    if !actual.running then pure (.ok ())
    else
      match ← Daemon.stopServer serverID with
      | .error e => pure (.error ("stop source server: " ++ e))
      | .ok _ => pure (.ok ())

@[irreducible] def isContainerMissing (e : Err) : Bool :=
  let message := (Engine.lower e).toList
  decide ("no such container".toList <:+: message) || decide ("not found".toList <:+: message)

def removeWorkload (serverID : String) : Handler (Except Err Unit) := do
  match ← host (.containerRemove (containerName serverID)) with
  | .error e => pure (if isContainerMissing e then .ok () else .error ("delete source container: " ++ e))
  | .ok _ => pure (.ok ())

section
variable (H : Sha256) (site : Site) (now : Nat) (n : Node) (id credential : String)

def prepareTransferSource : Except Err TransferMetadata × Node :=
  match Engine.authorize H now n id .sourceControl credential with
  | .error e => (.error e, n)
  | .ok r =>
    let stopped := n.run site (stopIfRunning r.serverID)
    match stopped.1 with
    | .error e => (.error e, stopped.2)
    | .ok _ => Engine.prepareSource H site now stopped.2 id credential

def cleanupTransferSource : Except Err Unit × Node :=
  match Engine.authorize H now n id .sourceControl credential with
  | .error e => (.error e, n)
  | .ok r =>
    let removed := n.run site (removeWorkload r.serverID)
    match removed.1 with
    | .error e => (.error e, removed.2)
    | .ok _ =>
      let cleaned := Engine.cleanupSource H now removed.2 id credential
      match cleaned.1 with
      | .error e => (.error e, cleaned.2)
      | .ok _ => (.ok (), (cleaned.2.run site (host (.deleteServerState r.serverID))).2)

def cancelProtocolTransfer : Except Err Unit × Node :=
  match Engine.authorize H now n id .sourceControl credential with
  | .ok _ => (.ok (), Engine.cancel n id)
  | .error e =>
    match Engine.authorize H now n id .destinationUpload credential with
    | .ok _ => (.ok (), Engine.cancel n id)
    | .error _ => (.error e, n)

/-! ## Pushing an archive -/

inductive Attempt where
  | done (answer : Except Err TransferMetadata)
  | retry

def attempt (destinationCredential : String) (destination : Node) : Attempt × Node :=
  match Engine.authorize H now destination id .destinationUpload destinationCredential with
  | .error e => (.done (.error ("destination offset negotiation failed: " ++ e)), destination)
  | .ok r =>
    match Engine.sourceArchive H now n id credential r.offset with
    | .error e => (.done (.error e), destination)
    | .ok (archive, source) =>
      if trimSpace source.checksum = "" then
        (.done (.error "destination upload failed: invalid upload metadata"), destination)
      else
        let sent := Engine.appendDestination H site now destination id destinationCredential r.offset
          source.archiveSize source.checksum archive
        match sent.1 with
        | .error e =>
          (if Engine.conflict e then .retry else .done (.error ("destination upload failed: " ++ e)), sent.2)
        | .ok m =>
          (.done (if m.phase = .verified then .ok m else .error "destination did not verify complete archive"), sent.2)

def pushArchive (destinationCredential : String) : Nat → Node → Except Err TransferMetadata × Node
  | 0, destination => (.error "destination offset remained inconsistent after retries", destination)
  | attempts + 1, destination =>
    let sent := attempt H site now n id credential destinationCredential destination
    match sent.1 with
    | .done answer => (answer, sent.2)
    | .retry => pushArchive destinationCredential attempts sent.2

end

end Beacon

/-! ## The fleet -/

abbrev Fleet := List (String × Node)

namespace Fleet

def node (f : Fleet) (url : String) : Option Node := (rowAt (·.1) f url).map (·.2)

def setNode (f : Fleet) (url : String) (n : Node) : Fleet := updateWhere (fun r => r.1 = url) (fun r => (r.1, n)) f

def unreachable : Err := "connection refused"

def hasPrefix (s p : String) : Bool := p.toList.isPrefixOf s.toList

section
variable (H : Sha256) (sites : String → Site) (now : Nat)

def onNode {α : Type} (f : Fleet) (url : String) (serve : Node → Except Err α × Node) : Except Err α × Fleet :=
  match f.node url with
  | none => (.error unreachable, f)
  | some n => ((serve n).1, f.setNode url (serve n).2)

def onHost {α : Type} (f : Fleet) (url token : String) (p : Handler (Except Err α)) : Except Err α × Fleet :=
  f.onNode url fun n => Beacon.signed n token (n.run (sites url) p)

def pushTransferSource (f : Fleet) (url id credential : String) (push : TransferPushRequest) :
    Except Err TransferMetadata × Fleet :=
  match f.node url with
  | none => (.error unreachable, f)
  | some n =>
    if trimSpace credential = "" then (.error "transfer bearer credential required", f)
    else if push.destinationURL = "" || push.destinationCredential = "" then
      (.error "destinationUrl and destinationCredential are required", f)
    else if !hasPrefix push.destinationURL "https://" && !hasPrefix push.destinationURL "http://" then
      (.error "invalid destinationUrl", f)
    else
      f.onNode push.destinationURL fun destination =>
        if trimSpace push.destinationCredential = "" then
          (.error "destination offset negotiation failed: transfer bearer credential required", destination)
        else
          Beacon.pushArchive H (sites push.destinationURL) now n id (trimSpace credential)
            (trimSpace push.destinationCredential) 4 destination

def serve (f : Fleet) (url : String) : (q : DaemonReq) → Except Err q.Val × Fleet
  | .registerTransferCredential token registration =>
    f.onNode url fun n => Beacon.signed n token (Engine.register now n registration)
  | .prepareTransferSource id credential =>
    f.onNode url fun n => Beacon.bearer n credential (Beacon.prepareTransferSource H (sites url) now n id)
  | .pushTransferSource id credential push => pushTransferSource H sites now f url id credential push
  | .restoreTransferDestination id credential =>
    f.onNode url fun n => Beacon.bearer n credential (Engine.restoreDestination H (sites url) now n id)
  | .finalizeTransferDestination id credential =>
    f.onNode url fun n => Beacon.bearer n credential (Engine.finalizeDestination H now n id)
  | .cleanupTransferSource id credential =>
    f.onNode url fun n => Beacon.bearer n credential (Beacon.cleanupTransferSource H (sites url) now n id)
  | .cancelTransfer id credential =>
    f.onNode url fun n => Beacon.bearer n credential (Beacon.cancelProtocolTransfer H now n id)
  | .syncServerConfiguration token serverID configuration =>
    f.onHost sites url token (Daemon.syncConfiguration (sites url) serverID configuration)
  | .createServer token req diskMB => f.onHost sites url token (Daemon.createServer (sites url) req diskMB)
  | .deleteServer token serverID => f.onHost sites url token (Daemon.deleteServer serverID)
  | .startServer token serverID => f.onHost sites url token (Daemon.startServer serverID)

def platform (P : Platform Unit) : Platform Fleet where
  random := P.random
  uuid := P.uuid
  planTarget := P.planTarget
  validateTarget := P.validateTarget
  serve now f url q := f.serve H sites now url q

end

end Fleet

end ForgePlane
