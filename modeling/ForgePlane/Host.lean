import ForgePlane.Prog
import ForgePlane.Table
import ForgePlane.Wire

/-!
# The machine under a daemon

A daemon acts on its node through the files below its data directory, the Docker engine and its own
table of server states. File contents are taken up to the spelling of JSON: a document, or a text
that is none.
-/

namespace ForgePlane

def components (path : String) : List String :=
  ((path.toList.splitOn '/').map String.ofList).filter fun c => c ≠ "" && c ≠ "."

def cleanStep (rooted : Bool) (stack : List String) (c : String) : List String :=
  if c ≠ ".." then c :: stack
  else
    match stack with
    | [] => if rooted then [] else [".."]
    | top :: rest => if top = ".." then ".." :: stack else rest

@[irreducible] def isAbs (path : String) : Bool := path.toList.head? = some '/'

def joinPath (cs : List String) : String := String.intercalate "/" cs

@[irreducible] def cleanPath (path : String) : String :=
  let cs := ((components path).foldl (cleanStep (isAbs path)) []).reverse
  if isAbs path then "/" ++ joinPath cs else if cs.isEmpty then "." else joinPath cs

@[irreducible] def within (base target : String) : Bool := (components base).isPrefixOf (components target)

inductive Contents where
  | json (doc : Json)
  | text (s : String)

abbrev FilePath := List String

inductive FileNode where
  | dir
  | file (contents : Contents)
  | symlink
  | socket
  | special

abbrev Tree := List (FilePath × FileNode)

abbrev Archive := List (FilePath × FileNode)

namespace Tree

def lookup (t : Tree) (p : FilePath) : Option FileNode := (rowAt (·.1) t p).map (·.2)

def mkdirAll (t : Tree) (p : FilePath) : Tree :=
  (p.inits.filter fun q => q ≠ [] && q ≠ p && (t.lookup q).isNone).foldl (fun t q => t ++ [(q, .dir)]) t

def write (t : Tree) (p : FilePath) (c : Contents) : Tree :=
  (t.mkdirAll p).filter (fun f => f.1 ≠ p) ++ [(p, .file c)]

end Tree

structure ContainerSpec where
  request : CreateRequest
  mounts : List Mount
  hash : String
  deriving DecidableEq, Repr

structure Inspection where
  running : Bool
  hash : String
  deriving DecidableEq, Repr

structure Container where
  name : String
  spec : ContainerSpec
  running : Bool := false
  deriving DecidableEq, Repr

def containerName (serverID : String) : String := "mgp-" ++ serverID

theorem containerName_inj {a b : String} : containerName a = containerName b ↔ a = b := by
  constructor
  · intro h
    have h := congrArg String.toList h
    simp only [containerName, String.toList_append] at h
    exact String.toList_inj.mp (List.append_cancel_left h)
  · rintro rfl
    rfl

/-! ## Calls of a handler -/

structure ServerState where
  rootDir : String := ""
  configurationSynced : Bool := false
  suspended : Bool := false
  installing : Bool := false
  diskLimitBytes : Int := 0
  deriving DecidableEq, Repr

inductive HostCall where
  | serverRoot (serverID : String)
  | readFile (serverID path : String)
  | writeFile (serverID path : String) (contents : Contents)
  | makeParent (serverID path : String)
  | hasSpaceForWrite (serverID : String) (contents : Contents)
  | diskUsage (serverID : String)
  | evalSymlinks (path : String)
  | statIsDir (path : String)
  | containerInspect (name : String)
  | containerStop (name : String)
  | containerRemove (name : String)
  | containerCreate (name : String) (spec : ContainerSpec)
  | containerStart (name : String)
  | ensureNetwork (req : CreateRequest)
  | imageInspect (image : String)
  | imagePull (image : String)
  | effectiveEnv (serverID : String) (env : List String)
  | serverState (serverID : String)
  | setServerState (serverID : String) (state : ServerState)
  | deleteServerState (serverID : String)

abbrev HostResp : HostCall → Type
  | .serverRoot _ => Except Err String
  | .readFile .. => Except Err (Option Contents)
  | .writeFile .. => Except Err Unit
  | .makeParent .. => Except Err Unit
  | .hasSpaceForWrite .. => Except Err Unit
  | .diskUsage _ => Except Err Nat
  | .evalSymlinks _ => Except Err String
  | .statIsDir _ => Except Err Bool
  | .containerInspect _ => Except Err (Option Inspection)
  | .containerStop _ => Except Err Unit
  | .containerRemove _ => Except Err Unit
  | .containerCreate .. => Except Err Unit
  | .containerStart _ => Except Err Unit
  | .ensureNetwork _ => Except Err Unit
  | .imageInspect _ => Bool
  | .imagePull _ => Except Err Unit
  | .effectiveEnv .. => List String
  | .serverState _ => ServerState
  | .setServerState .. => Unit
  | .deleteServerState _ => Unit

abbrev Handler := Prog HostResp

def host (c : HostCall) : Handler (HostResp c) := .call c .ret

@[simp] theorem host_bind {α : Type} (c : HostCall) (f : HostResp c → Handler α) : host c >>= f = .call c f := rfl

/-- What is fixed about one node: its configuration, and the parts of its system that no
handler changes. -/
structure Site where
  dataDir : String
  allowedMounts : List String := []
  isIP : String → Bool
  isCIDR : String → Bool
  subnetContains : String → String → Bool
  requestHash : CreateRequest → String
  sprint : Json → String
  render : Json → List (String × String) → Contents
  ignored : Contents → String → Bool
  size : Archive → Nat
  digest : Archive → Vector UInt8 32
  contentsSize : Contents → Nat
  effectiveEnv : String → List String → List String
  evalSymlinks : String → Except Err String
  isDir : String → Except Err Bool
  imagePresent : String → Bool
  imagePull : String → Except Err Unit
  network : CreateRequest → Except Err Unit

def Site.root (site : Site) (serverID : String) : String := cleanPath (site.dataDir ++ "/" ++ serverID)

/-! ## The machine -/

structure Host where
  trees : List (String × Tree) := []
  containers : List Container := []
  states : List (String × ServerState) := []

def isHexDigit (c : Char) : Bool := c.isDigit || ('a' ≤ c && c ≤ 'f') || ('A' ≤ c && c ≤ 'F')

@[irreducible] def validServerID (value : String) : Bool :=
  let cs := value.toList
  decide (cs.length = 36) && cs.zipIdx.all fun (c, i) =>
    if i = 8 || i = 13 || i = 18 || i = 23 then c = '-' else isHexDigit c

namespace Host

def tree (h : Host) (serverID : String) : Option Tree := (rowAt (·.1) h.trees serverID).map (·.2)

def setTree (h : Host) (serverID : String) (t : Option Tree) : Host :=
  { h with trees := deleteWhere (fun r => r.1 = serverID) h.trees ++ (t.map fun t => (serverID, t)).toList }

def container (h : Host) (name : String) : Option Container := rowAt (·.name) h.containers name

def state (h : Host) (serverID : String) : ServerState := ((rowAt (·.1) h.states serverID).map (·.2)).getD {}

def setState (h : Host) (serverID : String) (st : Option ServerState) : Host :=
  { h with states := deleteWhere (fun r => r.1 = serverID) h.states ++ (st.map fun st => (serverID, st)).toList }

def updateContainer (h : Host) (name : String) (f : Container → Container) : Host :=
  { h with containers := updateWhere (fun c => c.name = name) f h.containers }

/-- `safePath`; a link on the way is taken to lead out of the directory. -/
def safePath (h : Host) (serverID path : String) : Except Err FilePath :=
  if !validServerID serverID then .error "server id must be a canonical UUID"
  else if path.toList.contains '\x00' then .error "invalid path"
  else
    let cleaned := components (cleanPath path)
    let links := cleaned.inits.any fun q => match (h.tree serverID).bind (·.lookup q) with
      | some .symlink => true
      | _ => false
    if isAbs path || cleaned.head? = some ".." || links then .error "path escapes server directory" else .ok cleaned

def readFile (h : Host) (serverID path : String) : Except Err (Option Contents) :=
  match h.safePath serverID path with
  | .error e => .error e
  | .ok p =>
    match (h.tree serverID).bind (·.lookup p) with
    | none => .ok none
    | some (.file c) => .ok (some c)
    | some _ => .error "read: not a regular file"

def writeFile (h : Host) (serverID path : String) (c : Contents) : Except Err Host :=
  match h.safePath serverID path with
  | .error e => .error e
  | .ok p => .ok (h.setTree serverID (some (((h.tree serverID).getD []).write p c)))

def usage (site : Site) (t : Tree) : Nat :=
  (t.map fun f => match f.2 with | .file c => site.contentsSize c | _ => 0).sum

def missing (name : String) : Err := "No such container: " ++ name

def onContainer (h : Host) (name : String) (f : Host) : Except Err Unit × Host :=
  match h.container name with
  | none => (.error (missing name), h)
  | some _ => (.ok (), f)

def rooted (h : Host) (serverID : String) : Host :=
  if (h.tree serverID).isNone then h.setTree serverID (some []) else h

def handle (site : Site) (h : Host) : (c : HostCall) → HostResp c × Host
  | .serverRoot id =>
    match h.safePath id "" with
    | .error e => (.error e, h)
    | .ok _ => (.ok (site.root id), h.rooted id)
  | .readFile id path => (h.readFile id path, h)
  | .writeFile id path c =>
    match h.writeFile id path c with
    | .error e => (.error e, h)
    | .ok h' => (.ok (), h')
  | .makeParent id path =>
    match h.safePath id path with
    | .error e => (.error e, h)
    | .ok p => (.ok (), h.setTree id (some (((h.tree id).getD []).mkdirAll p)))
  | .hasSpaceForWrite id c =>
    let st := h.state id
    let used := usage site ((h.tree id).getD [])
    (if st.diskLimitBytes ≤ 0 || st.rootDir = "" || (used + site.contentsSize c : Int) ≤ st.diskLimitBytes then .ok ()
      else .error "server disk usage exceeds limit", h)
  | .diskUsage id => (.ok (usage site ((h.tree id).getD [])), h)
  | .evalSymlinks path => (site.evalSymlinks path, h)
  | .statIsDir path => (if h.trees.any (fun t => site.root t.1 = path) then .ok true else site.isDir path, h)
  | .containerInspect name => (.ok ((h.container name).map fun c => ⟨c.running, c.spec.hash⟩), h)
  | .containerStop name => h.onContainer name (h.updateContainer name fun c => { c with running := false })
  | .containerRemove name =>
    h.onContainer name { h with containers := deleteWhere (fun c => c.name = name) h.containers }
  | .containerCreate name spec =>
    match h.container name with
    | some _ => (.error ("Conflict. The container name is already in use: " ++ name), h)
    | none => (.ok (), { h with containers := h.containers ++ [⟨name, spec, false⟩] })
  | .containerStart name => h.onContainer name (h.updateContainer name fun c => { c with running := true })
  | .ensureNetwork req => (site.network req, h)
  | .imageInspect image => (site.imagePresent image, h)
  | .imagePull image => (site.imagePull image, h)
  | .effectiveEnv id env => (site.effectiveEnv id env, h)
  | .serverState id => (h.state id, h)
  | .setServerState id st => ((), h.setState id (some st))
  | .deleteServerState id => ((), h.setState id none)

end Host

end ForgePlane
