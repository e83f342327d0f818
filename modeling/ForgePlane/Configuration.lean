import ForgePlane.Runtime

/-!
# Configuring and creating a server on its node

`syncConfiguration` rebuilds the create request from a document kept in the server's own directory, overwrites
part of it from the panel's payload and reconciles the container with the result.
-/

namespace ForgePlane

namespace Daemon

variable (site : Site)

def serverConfigurationPath : String := ".config/server.json"
def runtimeRequestPath : String := ".config/runtime.json"

/-! ## Mounts -/

def withinAllowed (canonical : String) : List String → Handler Bool
  | [] => pure false
  | permitted :: rest => do
    if !isAbs permitted then withinAllowed canonical rest
    else
      match ← host (.evalSymlinks (cleanPath permitted)) with
      | .error _ => withinAllowed canonical rest
      | .ok canonicalPermitted =>
        if within canonicalPermitted canonical then pure true else withinAllowed canonical rest

def allowedMountSource (source : String) : Handler (Except Err String) := do
  if site.allowedMounts.isEmpty then pure (.error "custom mounts are not enabled on this node")
  else if !isAbs source then pure (.error ("mount source " ++ source ++ " must be an absolute host path"))
  else
    match ← host (.evalSymlinks (cleanPath source)) with
    | .error e => pure (.error ("resolve mount source " ++ source ++ ": " ++ e))
    | .ok canonical =>
      if ← withinAllowed canonical site.allowedMounts then pure (.ok canonical)
      else pure (.error ("mount source " ++ source ++ " is not within configured allowed_mounts"))

def runtimeMount (m : Mount) : Handler (Except Err Mount) := do
  match ← allowedMountSource site m.source with
  | .error e => pure (.error e)
  | .ok source =>
    let target := cleanPath (trimSpace m.target)
    if !isAbs target || target = "." then
      pure (.error ("mount target " ++ m.target ++ " must be an absolute container path"))
    else if target = Docker.serverContainerRoot then pure (.error "custom mount cannot replace /home/container")
    else pure (.ok ⟨source, target, m.readOnly⟩)

def runtimeMounts : List Mount → Handler (Except Err (List Mount))
  | [] => pure (.ok [])
  | m :: rest => do
    match ← runtimeMount site m with
    | .error e => pure (.error e)
    | .ok m =>
      match ← runtimeMounts rest with
      | .error e => pure (.error e)
      | .ok ms => pure (.ok (m :: ms))

def runtimeMountsFromConfiguration (payload : Json) : Handler (Except Err (List Mount)) :=
  match payload.field "mounts" with
  | none => pure (.ok [])
  | some raw =>
    match Unmarshal.list Unmarshal.mountConfiguration raw with
    | .error e => pure (.error ("decode mounts: " ++ e))
    | .ok mounts => runtimeMounts site mounts

/-! ## The desired request -/

def objectField (payload : Json) (key : String) : List (String × Json) :=
  match payload.field key with
  | some (.obj fs) => fs
  | _ => []

def firstMapValue (fs : List (String × Json)) (keys : List String) : Option Json :=
  keys.findSome? fun key => (Json.obj fs).field key

def int64Value (fs : List (String × Json)) (keys : List String) : Int :=
  match firstMapValue fs keys with
  | some (.num n) => n
  | _ => 0

def environmentList (fs : List (String × Json)) : List String :=
  (sortedByKey fs).map fun f => f.1 ++ "=" ++ site.sprint f.2

def mappedPorts (payload : Json) : List PortBinding :=
  (objectField (.obj (objectField payload "allocations")) "mappings").flatMap fun f =>
    match f.2 with
    | .arr values => values.map fun v =>
        let port := match v with | .num n => n | _ => 0
        ⟨f.1, port, port, "tcp"⟩
    | _ => []

def overwriteRequest (payload : Json) (r : CreateRequest) : CreateRequest :=
  let build := objectField payload "build"
  let ports := mappedPorts payload
  { r with
    image := match payload.field "dockerImage" with
      | some (.str image) => if trimSpace image ≠ "" then image else r.image
      | _ => r.image
    command := match payload.field "invocation" with
      | some (.str invocation) => ["/bin/sh", "-lc", invocation]
      | _ => r.command
    env := match payload.field "environment" with
      | some (.obj fs) => environmentList site fs
      | _ => r.env
    memoryMB := int64Value build ["memoryLimit", "memory_limit"]
    swapMB := int64Value build ["swapMb", "swap"]
    cpuShares := int64Value build ["cpuShares", "cpu_shares"]
    cpuPercent := int64Value build ["cpuLimit", "cpu_limit"]
    cpuSet := match firstMapValue build ["threads"] with
      | some (.str threads) => threads
      | _ => r.cpuSet
    ioWeight := let value := int64Value build ["ioWeight", "io_weight"]
      if value ≠ 0 then value else r.ioWeight
    oomKillDisabled := match firstMapValue build ["oomDisabled", "oom_disabled"] with
      | some (.bool value) => value
      | _ => r.oomKillDisabled
    ports := if ports.isEmpty then r.ports else ports }

def decodeRequest : Contents → Except Err CreateRequest
  | .json doc => Unmarshal.request doc
  | .text _ => .error "invalid character looking for beginning of value"

def runtimeRequestFromConfiguration (serverID : String) (payload : Json) : Handler (Except Err (Option CreateRequest)) := do
  match ← host (.readFile serverID runtimeRequestPath) with
  | .error e => pure (.error e)
  | .ok none => pure (.ok none)
  | .ok (some contents) =>
  match decodeRequest contents with
  | .error e => pure (.error e)
  | .ok stored =>
  match ← runtimeMountsFromConfiguration site payload with
  | .error e => pure (.error e)
  | .ok mounts =>
    let r := overwriteRequest site payload stored
    pure (.ok (some (if mounts.isEmpty then r else { r with mounts := mounts })))

/-! ## Keeping the request -/

def encodePort (p : PortBinding) : Json := .obj [
  ("HostIP", .str p.hostIP), ("HostPort", .num p.hostPort), ("ContainerPort", .num p.containerPort),
  ("Protocol", .str p.protocol)]

def encodeMount (m : Mount) : Json :=
  .obj [("Source", .str m.source), ("Target", .str m.target), ("ReadOnly", .bool m.readOnly)]

def encodeRequest (r : CreateRequest) : Json := .obj [
  ("ServerID", .str r.serverID), ("Image", .str r.image), ("Command", .arr (r.command.map .str)),
  ("Env", .arr (r.env.map .str)), ("Ports", .arr (r.ports.map encodePort)), ("Mounts", .arr (r.mounts.map encodeMount)),
  ("MemoryMB", .num r.memoryMB), ("SwapMB", .num r.swapMB), ("CPUShares", .num r.cpuShares),
  ("CPUPercent", .num r.cpuPercent), ("CPUSet", .str r.cpuSet), ("IOWeight", .num r.ioWeight),
  ("OOMKillDisabled", .bool r.oomKillDisabled), ("PIDLimit", .num r.pidLimit), ("StopSignal", .str r.stopSignal),
  ("StopTimeout", .num r.stopTimeout), ("UID", .num r.uid), ("GID", .num r.gid), ("DNS", .arr (r.dns.map .str)),
  ("NetworkName", .str r.networkName), ("NetworkSubnet", .str r.networkSubnet),
  ("NetworkGateway", .str r.networkGateway), ("NetworkIP", .str r.networkIP), ("RegistryAuth", .null),
  ("RootDir", .str r.rootDir)]

def persistRuntimeRequest (serverID : String) (r : CreateRequest) : Handler (Except Err Unit) :=
  host (.writeFile serverID runtimeRequestPath (.json (encodeRequest r)))

/-! ## Handlers -/

def configurationPath (file : Json) : Option String :=
  let named (key : String) : Option String := match file.field key with
    | some (.str path) => if path = "" then none else some path
    | _ => none
  (named "path").orElse fun _ => named "file"

def writeConfigurationFiles (serverID : String) (env : List (String × String)) : List Json → Handler (Except Err Unit)
  | [] => pure (.ok ())
  | file :: rest =>
    match configurationPath file with
    | none => writeConfigurationFiles serverID env rest
    | some path => do
      match ← host (.makeParent serverID path) with
      | .error e => pure (.error e)
      | .ok _ =>
      match ← host (.hasSpaceForWrite serverID (site.render file env)) with
      | .error e => pure (.error e)
      | .ok _ =>
        match ← host (.writeFile serverID path (site.render file env)) with
        | .error e => pure (.error e)
        | .ok _ => writeConfigurationFiles serverID env rest

def applyConfigurationFiles (serverID : String) (payload : Json) : Handler (Except Err Unit) :=
  match (Json.obj (objectField payload "config")).field "files" with
  | some (.arr files) =>
    writeConfigurationFiles site serverID ((objectField payload "environment").map fun f => (f.1, site.sprint f.2)) files
  | _ => pure (.ok ())

def reconcileRuntimeConfiguration (desired : CreateRequest) : Handler (Except Err Unit) := do
  match ← Docker.inspect desired.serverID with
  | .error e => pure (.error ("inspect existing workload: " ++ e))
  | .ok none => Docker.create site desired
  | .ok (some _) => Docker.reconcile site desired

def diskLimitMBFromConfiguration (payload : Json) : Int :=
  match payload.field "build" with
  | some (.obj build) =>
    (["disk_space", "diskSpace", "diskMb"].findSome? fun key => match (Json.obj build).field key with
      | some (.num n) => some n
      | _ => none).getD (-1)
  | _ => -1

def mbToBytes (value : Int) : Int := if value ≤ 0 then 0 else value * 1024 * 1024

def markConfigurationSynced (serverID : String) (diskLimitMB : Int) : Handler Unit := do
  let st ← host (.serverState serverID)
  host (.setServerState serverID { st with
    configurationSynced := true
    diskLimitBytes := if 0 ≤ diskLimitMB then mbToBytes diskLimitMB else st.diskLimitBytes })

def applyStoredRequest (serverID : String) (payload : Json) : Handler (Except Err Unit) := do
  match ← runtimeRequestFromConfiguration site serverID payload with
  | .error e => pure (.error e)
  | .ok none => pure (.ok ())
  | .ok (some desired) =>
    match ← reconcileRuntimeConfiguration site desired with
    | .error e => pure (.error e)
    | .ok _ => persistRuntimeRequest serverID desired

def isObject : Json → Bool
  | .obj _ | .null => true
  | _ => false

def storeConfiguration (serverID : String) (payload : Json) : Handler (Except Err Unit) := do
  match ← host (.writeFile serverID serverConfigurationPath (.json payload)) with
  | .error e => pure (.error e)
  | .ok _ => applyConfigurationFiles site serverID payload

def syncConfiguration (serverID : String) (payload : Json) : Handler (Except Err Unit) := do
  if !isObject payload then pure (.error "invalid configuration")
  else
  match ← storeConfiguration site serverID payload with
  | .error e => pure (.error e)
  | .ok _ =>
  match ← applyStoredRequest site serverID payload with
  | .error e => pure (.error e)
  | .ok _ =>
    markConfigurationSynced serverID (diskLimitMBFromConfiguration payload)
    pure (.ok ())

def provision (request : CreateRequest) (diskMB : Int) : Handler (Except Err Bool) := do
  match ← Docker.create site request with
  | .error e => pure (.error e)
  | .ok _ =>
  match ← persistRuntimeRequest request.serverID request with
  | .error e => pure (.error e)
  | .ok _ =>
    let st ← host (.serverState request.serverID)
    host (.setServerState request.serverID { st with
      installing := false, rootDir := request.rootDir, diskLimitBytes := mbToBytes diskMB })
    pure (.ok true)

/-- The panel's request with what only the node knows; the panel counts the timeout in seconds. -/
def localRequest (body : CreateRequest) (rootDir : String) (mounts : List Mount) (env : List String) : CreateRequest :=
  { body with env := env, mounts := mounts, rootDir := rootDir, stopTimeout := body.stopTimeout * 10 ^ 9 }

def createServer (body : CreateRequest) (diskMB : Int) : Handler (Except Err Bool) := do
  if body.serverID = "" || body.image = "" then pure (.error "serverId and image are required")
  else if !validServerID body.serverID then pure (.error "server id must be a canonical UUID")
  else
  match ← host (.serverRoot body.serverID) with
  | .error e => pure (.error e)
  | .ok (rootDir : String) =>
  match ← runtimeMounts site body.mounts with
  | .error e => pure (.error e)
  | .ok mounts =>
    let env ← host (.effectiveEnv body.serverID body.env)
    provision site (localRequest body rootDir mounts env) diskMB

def startServer (serverID : String) : Handler (Except Err Unit) := do
  let st ← host (.serverState serverID)
  if st.installing then pure (.error "server is installing")
  else if st.suspended then pure (.error "server is suspended")
  else if !st.configurationSynced then pure (.error "server configuration has not been synced")
  else if st.rootDir = "" then pure (.error "server root directory is unknown")
  else
  match ← (if st.diskLimitBytes ≤ 0 then pure (.ok 0) else host (.diskUsage serverID) : Handler (Except Err Nat)) with
  | .error e => pure (.error e)
  | .ok used =>
    if 0 < st.diskLimitBytes && st.diskLimitBytes < used then pure (.error "server disk usage exceeds limit")
    else host (.containerStart (containerName serverID))

def stopServer (serverID : String) : Handler (Except Err Unit) := do
  let st ← host (.serverState serverID)
  if st.installing then pure (.error "server is installing")
  else host (.containerStop (containerName serverID))

def deleteServer (serverID : String) : Handler (Except Err Unit) := do
  match ← host (.containerRemove (containerName serverID)) with
  | .error e => pure (.error e)
  | .ok _ =>
    host (.deleteServerState serverID)
    pure (.ok ())

end Daemon

end ForgePlane
