import ForgePlane.Host

/-!
# The Docker runtime

How a daemon turns a create request into containers: the JSON form in which the
request is kept in the server's own directory, the checks made on it, and
`Create` and `Reconcile`.
-/

namespace ForgePlane

/-! ## The request as a document

`json.Unmarshal` matches keys without regard to case, lets the last of several
equal keys win, and reports a value of the wrong type; `null` leaves a scalar alone
and empties a list. -/

namespace Unmarshal

def typeError : Err := "json: cannot unmarshal value into Go struct field"

def string (old : String) : Json → Except Err String
  | .null => .ok old
  | .str s => .ok s
  | _ => .error typeError

def int (old : Int) : Json → Except Err Int
  | .null => .ok old
  | .num n => if -2 ^ 63 ≤ n ∧ n < 2 ^ 63 then .ok n else .error typeError
  | _ => .error typeError

def bool (old : Bool) : Json → Except Err Bool
  | .null => .ok old
  | .bool b => .ok b
  | _ => .error typeError

def list {α : Type} (elem : Json → Except Err α) : Json → Except Err (List α)
  | .null => .ok []
  | .arr xs => xs.mapM elem
  | _ => .error typeError

def fields {α : Type} (set : α → String → Json → Except Err α) (zero : α) : Json → Except Err α
  | .null => .ok zero
  | .obj fs => fs.foldlM (fun a f => set a (String.ofList (f.1.toList.map Char.toLower)) f.2) zero
  | _ => .error typeError

def port : Json → Except Err PortBinding :=
  fields (fun p key v =>
    match key with
    | "hostip" => do return { p with hostIP := ← string p.hostIP v }
    | "hostport" => do return { p with hostPort := ← int p.hostPort v }
    | "containerport" => do return { p with containerPort := ← int p.containerPort v }
    | "protocol" => do return { p with protocol := ← string p.protocol v }
    | _ => .ok p) ⟨"", 0, 0, ""⟩

def mountWith (readOnly : String) : Json → Except Err Mount :=
  fields (fun m key v =>
    if key = "source" then do return { m with source := ← string m.source v }
    else if key = "target" then do return { m with target := ← string m.target v }
    else if key = readOnly then do return { m with readOnly := ← bool m.readOnly v }
    else .ok m) ⟨"", "", false⟩

def mount : Json → Except Err Mount := mountWith "readonly"

def mountConfiguration : Json → Except Err Mount := mountWith "read_only"

def setRequest (r : CreateRequest) (key : String) (v : Json) : Except Err CreateRequest :=
  match key with
  | "serverid" => do return { r with serverID := ← string r.serverID v }
  | "image" => do return { r with image := ← string r.image v }
  | "command" => do return { r with command := ← list (string "") v }
  | "env" => do return { r with env := ← list (string "") v }
  | "ports" => do return { r with ports := ← list port v }
  | "mounts" => do return { r with mounts := ← list mount v }
  | "memorymb" => do return { r with memoryMB := ← int r.memoryMB v }
  | "swapmb" => do return { r with swapMB := ← int r.swapMB v }
  | "cpushares" => do return { r with cpuShares := ← int r.cpuShares v }
  | "cpupercent" => do return { r with cpuPercent := ← int r.cpuPercent v }
  | "cpuset" => do return { r with cpuSet := ← string r.cpuSet v }
  | "ioweight" => do return { r with ioWeight := ← int r.ioWeight v }
  | "oomkilldisabled" => do return { r with oomKillDisabled := ← bool r.oomKillDisabled v }
  | "pidlimit" => do return { r with pidLimit := ← int r.pidLimit v }
  | "stopsignal" => do return { r with stopSignal := ← string r.stopSignal v }
  | "stoptimeout" => do return { r with stopTimeout := ← int r.stopTimeout v }
  | "uid" => do return { r with uid := ← int r.uid v }
  | "gid" => do return { r with gid := ← int r.gid v }
  | "dns" => do return { r with dns := ← list (string "") v }
  | "networkname" => do return { r with networkName := ← string r.networkName v }
  | "networksubnet" => do return { r with networkSubnet := ← string r.networkSubnet v }
  | "networkgateway" => do return { r with networkGateway := ← string r.networkGateway v }
  | "networkip" => do return { r with networkIP := ← string r.networkIP v }
  | "rootdir" => do return { r with rootDir := ← string r.rootDir v }
  | _ => .ok r

def request : Json → Except Err CreateRequest := fields setRequest { serverID := "", image := "" }

end Unmarshal

def require (ok : Bool) (message : Err) : Except Err Unit := if ok then .ok () else .error message

namespace Docker

variable (site : Site)

def checkPort (b : PortBinding) : Except Err Unit := do
  let protocol := String.ofList ((trimSpace b.protocol).toList.map Char.toLower)
  let containerPort := if b.containerPort = 0 then b.hostPort else b.containerPort
  require (protocol = "" || protocol = "tcp" || protocol = "udp") ("unsupported port protocol " ++ b.protocol)
  require (1 ≤ b.hostPort && b.hostPort ≤ 65535 && 1 ≤ containerPort && containerPort ≤ 65535)
    "host and container ports must be between 1 and 65535"
  require (b.hostIP = "" || site.isIP b.hostIP) ("invalid allocation IP " ++ b.hostIP)

def dockerPorts (bindings : List PortBinding) : Except Err Unit := bindings.forM (checkPort site)

def validStopSignal (signal : String) : Bool :=
  String.ofList ((trimSpace signal).toList.map Char.toUpper) ∈
    ["SIGTERM", "SIGINT", "SIGQUIT", "SIGHUP", "SIGUSR1", "SIGUSR2", "SIGKILL"]

def validateCreateRequest (r : CreateRequest) : Except Err Unit := do
  require (trimSpace r.serverID ≠ "" && trimSpace r.image ≠ "") "server ID and image are required"
  require (0 ≤ r.memoryMB && 0 ≤ r.swapMB) "memory and swap must not be negative"
  require (r.swapMB ≤ 0 || r.memoryMB ≠ 0) "swap requires a positive memory limit"
  require (r.cpuShares = 0 || (2 ≤ r.cpuShares && r.cpuShares ≤ 262144)) "CPU shares must be 0 or between 2 and 262144"
  require (0 ≤ r.cpuPercent && r.cpuPercent ≤ 100000) "CPU percentage must be between 0 and 100000"
  require (r.ioWeight = 0 || (10 ≤ r.ioWeight && r.ioWeight ≤ 1000)) "IO weight must be 0 or between 10 and 1000"
  require (-1 ≤ r.pidLimit) "PID limit must be -1, 0, or positive"
  require (0 ≤ r.uid && 0 ≤ r.gid) "UID and GID must not be negative"
  require (decide (r.uid = 0) = decide (r.gid = 0)) "UID and GID must either both be omitted or both be positive"
  require (0 ≤ r.stopTimeout && r.stopTimeout ≤ 24 * 3600 * 10 ^ 9) "stop timeout must be between 0 and 24 hours"
  require (r.stopSignal = "" || validStopSignal r.stopSignal) ("unsupported stop signal " ++ r.stopSignal)
  require (trimSpace r.networkName ≠ "") "an explicit Docker network name is required"
  require (decide (r.networkSubnet = "") = decide (r.networkGateway = ""))
    "managed network subnet and gateway must be configured together"
  require (r.networkSubnet = "" || site.isCIDR r.networkSubnet) "invalid network subnet"
  require (r.networkSubnet = "" || (site.isIP r.networkGateway && site.subnetContains r.networkSubnet r.networkGateway))
    "network gateway must be inside the configured subnet"
  require (r.networkIP = "" || site.isIP r.networkIP) "invalid container network IP"
  require (r.networkIP = "" || r.networkSubnet = "" || site.subnetContains r.networkSubnet r.networkIP)
    "container network IP must be inside the configured subnet"
  r.dns.forM fun d => require (site.isIP d) ("invalid DNS server " ++ d)
  dockerPorts site r.ports

def serverContainerRoot : String := "/home/container"

def validateRootDir (rootDir : String) : Handler (Except Err String) := do
  if trimSpace rootDir = "" then pure (.error "root directory is required")
  else if !isAbs rootDir then pure (.error "root directory must be absolute")
  else
    match ← host (.statIsDir (cleanPath rootDir)) with
    | .error e => pure (.error ("root directory is unavailable: " ++ e))
    | .ok isDir => pure (if isDir then .ok (cleanPath rootDir) else .error "root directory is not a directory")

def customMounts (custom : List Mount) : Except Err (List Mount) :=
  let given := custom.filter fun m => m.source ≠ "" && m.target ≠ ""
  if given.any fun m => cleanPath m.target = serverContainerRoot then .error "custom mount cannot replace /home/container"
  else .ok given

def buildContainerMounts (rootDir : String) (custom : List Mount) : Handler (Except Err (List Mount)) := do
  match ← validateRootDir rootDir with
  | .error e => pure (.error e)
  | .ok root =>
    match customMounts custom with
    | .error e => pure (.error e)
    | .ok mounts => pure (.ok (⟨root, serverContainerRoot, false⟩ :: mounts))

def inspect (serverID : String) : Handler (Except Err (Option Inspection)) :=
  host (.containerInspect (containerName serverID))

def ensureImage (image : String) : Handler (Except Err Unit) := do
  if ← host (.imageInspect image) then pure (.ok ())
  else
    match ← host (.imagePull image) with
    | .error e => pure (.error ("pull image " ++ image ++ ": " ++ e))
    | .ok _ => pure (.ok ())

def createContainer (spec : ContainerSpec) (restart : Bool) : Handler (Except Err Unit) := do
  match ← ensureImage spec.request.image with
  | .error e => pure (.error e)
  | .ok _ =>
  match ← host (.containerCreate (containerName spec.request.serverID) spec) with
  | .error e => pure (.error e)
  | .ok _ =>
    if restart then
      match ← host (.containerStart (containerName spec.request.serverID)) with
      | .error e => pure (.error ("restart workload after configuration reconciliation: " ++ e))
      | .ok _ => pure (.ok ())
    else pure (.ok ())

def removeStale (name : String) (running : Bool) : Handler (Except Err Unit) := do
  match ← (if running then host (.containerStop name) else pure (.ok ()) : Handler (Except Err Unit)) with
  | .error e => pure (.error ("stop workload for configuration reconciliation: " ++ e))
  | .ok _ =>
    match ← host (.containerRemove name) with
    | .error e => pure (.error ("remove stale stopped container: " ++ e))
    | .ok _ => pure (.ok ())

/-- The ports are not checked a second time: `validateCreateRequest` ends with them. -/
def reconcile (req : CreateRequest) : Handler (Except Err Unit) := do
  match validateCreateRequest site req with
  | .error e => pure (.error e)
  | .ok _ =>
  match ← buildContainerMounts req.rootDir req.mounts with
  | .error e => pure (.error e)
  | .ok mounts =>
  match ← host (.ensureNetwork req) with
  | .error e => pure (.error e)
  | .ok _ =>
  let spec : ContainerSpec := ⟨req, mounts, site.requestHash req⟩
  match ← inspect req.serverID with
  | .error e => pure (.error e)
  | .ok none => createContainer spec false
  | .ok (some existing) =>
    if existing.hash = spec.hash then pure (.ok ())
    else
      match ← removeStale (containerName req.serverID) existing.running with
      | .error e => pure (.error e)
      | .ok _ => createContainer spec existing.running

def create (req : CreateRequest) : Handler (Except Err Unit) := do
  match ← inspect req.serverID with
  | .error e => pure (.error e)
  | .ok (some _) => pure (.error ("workload " ++ req.serverID ++ " already exists"))
  | .ok none => reconcile site req

end Docker

end ForgePlane
