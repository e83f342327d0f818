import ForgePlane.Compensation
import ForgePlane.Subusers

/-!
# Server quotas

`POST /servers` counts the servers of the owner, and the row of the new server is written after a placement
and a reservation that know nothing of the count.
-/

namespace ForgePlane.Quotas

open Access (HttpError)
open Scheduler (PlacementRequest)

structure LimitedUser where
  id : String
  disabled : Bool := false
  serverLimit : Int := 0
  memoryMBLimit : Int := 0
  diskMBLimit : Int := 0
  cpuLimit : Int := 0
  deriving DecidableEq, Repr

inductive Column where
  | memoryMB
  | diskMB
  | cpuLimit
  deriving DecidableEq, Repr

def Column.read (s : ServerRow) : Column → Int
  | .memoryMB => s.memoryMB
  | .diskMB => s.diskMB
  | .cpuLimit => s.cpuLimit

structure ErrUserLimitExceeded where
  resource : String
  limit : Int
  current : Int
  deriving DecidableEq, Repr

def ErrUserLimitExceeded.message (e : ErrUserLimitExceeded) : Err := "user " ++ e.resource ++ " limit exceeded"

structure CreateBody where
  name : String
  nodeID : String := ""
  regionID : String := ""
  region : String := ""
  requiredNode : String := ""
  preferredNode : String := ""
  ownerID : String := ""
  templateID : String
  allocationID : String := ""
  additionalAllocationIDs : List String := []
  memoryMB : Option Int := none
  cpuShares : Option Int := none
  cpu : Option Int := none
  diskMB : Option Int := none
  databaseLimit : Option Int := none
  backupLimit : Option Int := none
  allocationLimit : Option Int := none
  ioWeight : Option Int := none
  swapMB : Option Int := none
  threads : String := ""
  oomDisabled : Bool := false
  dockerImage : String := ""
  startupCommand : String := ""
  startupVariables : List (String × String) := []

structure CreateTask where
  setup : Cluster.Setup
  sub : Option String := none
  body : CreateBody

def CreateTask.ownerID (t : CreateTask) : String := if t.body.ownerID = "" then t.sub.getD "" else t.body.ownerID

inductive Call where
  | getEgg (id : String)
  | getUserByID (id : String)
  | countServers (ownerID : String)
  | sumServers (column : Column) (ownerID : String)
  | cluster (c : Cluster.Call)
  | answer (r : Except HttpError ServerRow)

abbrev Resp : Call → Type
  | .getEgg _ => Except Err EggRow
  | .getUserByID _ => Except Err LimitedUser
  | .countServers _ => Except Err Nat
  | .sumServers .. => Except Err Int
  | .cluster c => Cluster.Resp c
  | .answer _ => Unit

abbrev Action := Prog Resp

def call (c : Call) : Action (Resp c) := .call c .ret

/-! ## The check -/

def checkCount (userID : String) (limit : Int) : Action (Option ErrUserLimitExceeded) := do
  if limit ≤ 0 then pure none
  else
    match ← call (.countServers userID) with
    | .error _ => pure none
    | .ok count => pure (if limit ≤ count then some ⟨"server", limit, count⟩ else none)

def checkSum (resource : String) (column : Column) (userID : String) (limit requested : Int) :
    Action (Option ErrUserLimitExceeded) := do
  if limit ≤ 0 then pure none
  else
    let r ← call (.sumServers column userID)
    let used := r.toOption.getD 0
    pure (if limit < used + requested then some ⟨resource, limit, used⟩ else none)

def checkUserCanCreateServer (userID : String) (memMB diskMB cpu : Int) : Action (Option ErrUserLimitExceeded) := do
  match ← call (.getUserByID userID) with
  | .error _ => pure none
  | .ok user =>
  match ← checkCount userID user.serverLimit with
  | some e => pure (some e)
  | none =>
  match ← checkSum "memory" .memoryMB userID user.memoryMBLimit memMB with
  | some e => pure (some e)
  | none =>
  match ← checkSum "disk" .diskMB userID user.diskMBLimit diskMB with
  | some e => pure (some e)
  | none => checkSum "cpu" .cpuLimit userID user.cpuLimit cpu

/-! ## The handler -/

def createResourceValue (value : Option Int) (fallback : Int) : Int := value.getD fallback

def defaultMemory (body : CreateBody) : Action (Except HttpError Int) := do
  match body.memoryMB with
  | some _ => pure (.ok 2048)
  | none =>
    match ← call (.getEgg body.templateID) with
    | .error _ => pure (.error ⟨400, "egg not found"⟩)
    | .ok egg => pure (.ok egg.defaultMemoryMB)

def CreateTask.request (t : CreateTask) (defaultMemoryMB : Int) : CreateServerRequest where
  name := t.body.name
  nodeID := t.body.nodeID
  ownerID := t.ownerID
  templateID := t.body.templateID
  allocationID := t.body.allocationID
  additionalAllocationIDs := t.body.additionalAllocationIDs
  memoryMB := createResourceValue t.body.memoryMB defaultMemoryMB
  cpuShares := createResourceValue t.body.cpuShares 1024
  cpuLimit := createResourceValue t.body.cpu 0
  diskMB := createResourceValue t.body.diskMB 10240
  databaseLimit := createResourceValue t.body.databaseLimit 0
  backupLimit := createResourceValue t.body.backupLimit 0
  allocationLimit := createResourceValue t.body.allocationLimit 0
  ioWeight := createResourceValue t.body.ioWeight 500
  swapMB := createResourceValue t.body.swapMB 0
  threads := t.body.threads
  oomDisabled := t.body.oomDisabled
  dockerImage := t.body.dockerImage
  startupCommand := t.body.startupCommand
  startupVariables := t.body.startupVariables

def CreateTask.placement (t : CreateTask) (req : CreateServerRequest) : PlacementRequest where
  regionID := t.body.regionID
  region := t.body.region
  nodeID := t.body.nodeID
  preferredNode := t.body.preferredNode
  requiredNode := t.body.requiredNode
  allocationID := t.body.allocationID
  memoryMB := req.memoryMB
  cpuShares := req.cpuShares
  cpu := req.cpuLimit
  diskMB := req.diskMB

def createOnCluster (setup : Cluster.Setup) (req : CreateServerRequest) (placement : PlacementRequest) :
    Action (Except Err ServerRow) := (Cluster.createServer setup req placement).lift .cluster fun _ r => r

def handleCreate (t : CreateTask) : Action (Except HttpError ServerRow) := do
  if trimSpace t.body.name = "" || t.body.templateID = "" ||
      (t.body.regionID = "" && t.body.region = "" && t.body.nodeID = "" && t.body.requiredNode = "") then
    pure (.error ⟨400, "name, templateId, and regionId or nodeId are required"⟩)
  else
  match ← defaultMemory t.body with
  | .error e => pure (.error e)
  | .ok defaultMemoryMB =>
  let req := t.request defaultMemoryMB
  if req.invalid req.memoryMB then pure (.error ⟨400, "invalid server resource limits"⟩)
  else
  match ← checkUserCanCreateServer t.ownerID req.memoryMB req.diskMB req.cpuLimit with
  | some e => pure (.error ⟨422, e.message⟩)
  | none =>
  match ← createOnCluster t.setup req (t.placement req) with
  | .error e => pure (.error ⟨502, e⟩)
  | .ok server => pure (.ok server)

def CreateTask.program (t : CreateTask) : Action Unit := do
  let r ← handleCreate t
  call (.answer r)

/-! ## The panel -/

structure World where
  cluster : Cluster.World := {}
  users : List LimitedUser := []
  eggs : List EggRow := []
  answers : Nat → Cluster.Answers
  step : Nat := 0

namespace World

def owned (w : World) (ownerID : String) : Nat := w.cluster.servers.countP fun r => r.ownerID = ownerID

def handle (w : World) : (c : Call) → Resp c × World
  | .getEgg id => (orNoRows (rowAt (·.id) w.eggs id), w)
  | .getUserByID id => (orNoRows (w.users.find? fun u => u.id = id && !u.disabled), w)
  | .countServers ownerID => (.ok (w.owned ownerID), w)
  | .sumServers column ownerID =>
    (.ok ((w.cluster.servers.filter fun r => r.ownerID = ownerID).map fun r => column.read r).sum, w)
  | .cluster c =>
    let out := w.cluster.handle (w.answers w.step) c
    (out.1, { w with cluster := out.2, step := w.step + 1 })
  | .answer _ => ((), w)

end World

def fault : (c : Call) → Err → Option (Resp c)
  | .getEgg _, e => some (.error e)
  | .getUserByID _, e => some (.error e)
  | .countServers _, e => some (.error e)
  | .sumServers .., e => some (.error e)
  | .cluster c, e => some (Cluster.fault c e)
  | .answer _, _ => none

def panel : System Resp CreateTask World where
  program := CreateTask.program
  handle := World.handle
  fault := fault
  tick w _ := w

abbrev State := Config Resp CreateTask World

/-! ## What is asked of it -/

def underway (ownerID : String) : CreateTask × Action Unit → Bool
  | (_, .call (.getEgg _) _) => false
  | (_, .call (.getUserByID _) _) => false
  | (_, .call (.countServers _) _) => false
  | (t, .call _ _) => decide (t.ownerID = ownerID)
  | _ => false

/-- The user's row and the number of servers are read without an error, the account is not
disabled, and a server of the user is written while no other request for one is past its count. -/
def counted (ownerID : String) (s : State) (l : Label CreateTask) : Bool :=
  match l, s.sends l with
  | .call _ o, some (_, .getUserByID id) =>
    decide (id ≠ ownerID) || (decide (o = .delivered) && (rowAt (·.id) s.world.users id).any fun u => !u.disabled)
  | .call _ o, some (_, .countServers id) => decide (id ≠ ownerID) || decide (o = .delivered)
  | .call i _, some (_, .cluster (.insertServer _ req)) =>
    decide (req.ownerID ≠ ownerID) || (s.threads.eraseIdx i).all fun x => !underway ownerID x
  | _, _ => true

inductive Phase where
  | start
  | cleared
  | gone
  deriving DecidableEq

def watch (ownerID : String) (limit : Int) (t : CreateTask) : Monitor Resp Phase where
  admits m
    | .getEgg _ => m = .start
    | .getUserByID id => m = .start ∧ id = t.ownerID
    | .countServers id => m = .start ∧ id = t.ownerID
    | .cluster (.insertServer _ req) => req.ownerID = ownerID → m = .cleared
    | _ => True
  expects _ c r :=
    match c, r with
    | .getUserByID id, r => id = ownerID → ∃ user, r = .ok user ∧ user.serverLimit = limit
    | .countServers id, r => id = ownerID → ∃ n, r = .ok n
    | _, _ => True
  next m c r :=
    match c, r with
    | .countServers id, .ok n => if id = ownerID ∧ (n : Int) < limit then .cleared else .gone
    | .cluster (.insertServer ..), _ => .gone
    | .answer _, _ => .gone
    | _, _ => m

variable {l limit requested memMB diskMB cpu : Int} {ownerID resource userID id : String} {t : CreateTask} {m : Phase} {c : Cluster.Call} {req : CreateServerRequest}
variable {a : Cluster.Answers} {w : Cluster.World}

theorem wp_checkCount (hlimit : 0 < limit) (hl : t.ownerID = ownerID → l = limit) :
    wp (watch ownerID limit t) (checkCount t.ownerID l) (fun r m => r = none → t.ownerID = ownerID → m = .cleared) .start := by
  unfold checkCount
  split
  · rename_i hle
    intro _ ho
    have := hl ho
    omega
  refine wp_ask ⟨rfl, rfl⟩ fun r hr => ?_
  match r, hr with
  | .error e, hr =>
    intro _ ho
    obtain ⟨n, hn⟩ := hr ho
    cases hn
  | .ok n, _ =>
    change (if l ≤ (n : Int) then _ else _) = none → _ → (if t.ownerID = ownerID ∧ (n : Int) < limit then Phase.cleared else .gone) = .cleared
    split
    · exact nofun
    · rename_i hlt
      intro _ ho
      rw [if_pos]
      have := hl ho
      exact ⟨ho, by omega⟩

theorem wp_checkSum {column : Column}
    {Φ : Option ErrUserLimitExceeded → Phase → Prop} (h : ∀ r, Φ r m) :
    wp (watch ownerID limit t) (checkSum resource column userID l requested) Φ m := by
  unfold checkSum
  split
  · exact h _
  · exact wp_ask trivial fun r _ => h _

theorem wp_checkUserCanCreateServer (hlimit : 0 < limit) :
    wp (watch ownerID limit t) (checkUserCanCreateServer t.ownerID memMB diskMB cpu)
      (fun r m => r = none → t.ownerID = ownerID → m = .cleared) .start := by
  refine wp_ask ⟨rfl, rfl⟩ fun r hr => ?_
  match r, hr with
  | .error e, hr =>
    intro _ ho
    obtain ⟨user, hu, -⟩ := hr ho
    cases hu
  | .ok user, hr =>
    have hl : t.ownerID = ownerID → user.serverLimit = limit := by
      intro ho
      obtain ⟨_, hu, he⟩ := hr ho
      cases hu
      exact he
    refine wp_then (wp_checkCount hlimit hl) fun r m hm => ?_
    match r, hm with
    | some e, _ => exact nofun
    | none, hm =>
      refine wp_seq (wp_checkSum fun r => ?_)
      match r with
      | some e => exact nofun
      | none =>
        refine wp_seq (wp_checkSum fun r => ?_)
        match r with
        | some e => exact nofun
        | none => exact wp_checkSum fun r _ => hm rfl

/-! ### The cluster manager writes one row -/

def inserts : Cluster.Call → Bool
  | .insertServer .. => true
  | _ => false

def NoInsert (c : Cluster.Call) : Prop := inserts c = false

section
open Cluster

theorem noInsert_call (h : NoInsert c) : All NoInsert (Cluster.call c) := ⟨h, fun _ => trivial⟩

theorem noInsert_updateStatus (id : String) (status : ReservationStatus) :
    All NoInsert (updatePlacementReservationStatus id status) := by
  unfold updatePlacementReservationStatus
  refine All.bind (noInsert_call rfl) fun r => ?_
  match r with
  | .error e => trivial
  | .ok 0 => trivial
  | .ok (n + 1) => exact ⟨rfl, fun _ => trivial⟩

theorem noInsert_cancelReservation (reservation : Option String) : All NoInsert (cancelReservation reservation) := by
  cases reservation with
  | none => trivial
  | some id => exact All.bind (noInsert_updateStatus id .cancelled) fun _ => trivial

theorem noInsert_confirmReservation (reservation : Option String) : All NoInsert (confirmReservation reservation) := by
  cases reservation with
  | none => trivial
  | some id =>
    refine All.bind (noInsert_updateStatus id .completed) fun r => ?_
    cases r <;> trivial

theorem noInsert_compensate (serverID : String) (created : Bool) (cause : Err) :
    All NoInsert (compensateCreateFailure serverID created cause) := by
  unfold compensateCreateFailure
  refine All.ok (noInsert_call rfl) fun target => ?_
  dsimp only
  split
  · refine All.bind (noInsert_call rfl) fun deleted => ?_
    cases deleted with
    | error | ok =>
      refine All.bind (noInsert_call rfl) fun r => ?_
      cases r <;> trivial
  · rw [Prog.pure_def, Prog.ret_bind]
    refine All.bind (noInsert_call rfl) fun r => ?_
    cases r <;> trivial

theorem noInsert_abandon (reservation : Option String) (serverID : String) (created : Bool) (cause : Err) :
    All NoInsert (abandon reservation serverID created cause) :=
  All.bind (noInsert_cancelReservation reservation) fun _ =>
    All.bind (noInsert_compensate serverID created cause) fun _ => trivial

theorem noInsert_syncProvisionTarget (target : ServerProvisionTarget) : All NoInsert (syncProvisionTarget target) := by
  unfold syncProvisionTarget
  refine All.bind (noInsert_call rfl) fun r => ?_
  cases r with
  | error | ok => exact ⟨rfl, fun _ => trivial⟩

theorem noInsert_provisionServer (serverID : String) : All NoInsert (provisionServer serverID) := by
  unfold provisionServer
  refine All.ok (noInsert_call rfl) fun target => ?_
  refine All.ok (noInsert_syncProvisionTarget target) fun _ => ?_
  refine All.bind (noInsert_call rfl) fun r => ?_
  match r with
  | .error e => trivial
  | .ok false => trivial
  | .ok true =>
    refine All.bind (noInsert_call rfl) fun r => ?_
    cases r <;> trivial

theorem noInsert_furnish (setup : Setup) (reservation : Option String) (serverID : String) :
    All NoInsert (furnish setup reservation serverID) := by
  unfold furnish
  split
  · refine All.bind (noInsert_provisionServer serverID) fun r => ?_
    match r with
    | (created, .error e) => exact noInsert_abandon ..
    | (_, .ok _) =>
      refine All.bind (noInsert_confirmReservation reservation) fun r => ?_
      cases r with
      | error => exact noInsert_abandon ..
      | ok => exact ⟨rfl, fun _ => trivial⟩
  · exact noInsert_abandon ..

end

section
variable {setup : Cluster.Setup}

def clusterWatch (ownerID : String) (limit : Int) (t : CreateTask) : Monitor Cluster.Resp Phase :=
  (watch ownerID limit t).pull .cluster fun _ r => r

theorem silent_noInsert (h : NoInsert c) : (clusterWatch ownerID limit t).Silent (fun _ => True) c := by
  intro m _
  cases c with
  | insertServer => cases h
  | _ => exact ⟨trivial, fun _ _ => rfl⟩

theorem wp_noInsert {α : Type} {p : Cluster.Action α} {Φ : α → Phase → Prop} (hp : All NoInsert p) (h : ∀ a, Φ a m) :
    wp (clusterWatch ownerID limit t) p Φ m := (hp.mono fun _ hc => silent_noInsert hc).wp trivial h

theorem wp_insertAndFurnish {reservation : Option String} (h : req.ownerID = ownerID → m = .cleared) :
    wp (clusterWatch ownerID limit t) (Cluster.insertAndFurnish setup reservation req) (fun _ _ => True) m := by
  refine wp_seq (wp_ask h fun r _ => ?_)
  have hrest : ∀ r : Except Err ServerRow, All NoInsert (match r with
      | .error e => (do Cluster.cancelReservation reservation; pure (.error e) : Cluster.Action (Except Err ServerRow))
      | .ok server => Cluster.furnish setup reservation server.id) := by
    intro r
    cases r with
    | error => exact All.bind (noInsert_cancelReservation reservation) fun _ => trivial
    | ok => exact noInsert_furnish ..
  match r with
  | .error e => exact wp_noInsert (Φ := fun _ _ => True) (hrest (.error e)) fun _ => trivial
  | .ok _ => exact ⟨trivial, fun r _ => wp_noInsert (Φ := fun _ _ => True) (hrest r) fun _ => trivial⟩

theorem wp_createServer {placement : PlacementRequest} (h : req.ownerID = ownerID → m = .cleared) :
    wp (clusterWatch ownerID limit t) (Cluster.createServer setup req placement) (fun _ _ => True) m := by
  unfold Cluster.createServer
  split
  · trivial
  split
  · trivial
  refine wp_ask trivial (forall_result fun decision _ => ?_)
  have hchoose : All NoInsert (Cluster.chooseAllocation decision) := by
    unfold Cluster.chooseAllocation
    split
    · trivial
    · refine All.bind (noInsert_call rfl) fun r => ?_
      cases r <;> trivial
  refine wp_seq (wp_noInsert hchoose (forall_result fun allocationID => ?_))
  have hreserve : ∀ req' placement', All NoInsert (Cluster.reserve setup req' placement') := by
    intro req' placement'
    unfold Cluster.reserve
    split
    · trivial
    · refine All.bind ?_ fun r => ?_
      · refine All.ok (noInsert_call rfl) fun _ => ?_
        exact ⟨rfl, fun _ => trivial⟩
      · cases r <;> trivial
  exact wp_seq (wp_noInsert (hreserve _ _) (forall_result fun reservation => wp_insertAndFurnish h))

theorem wp_handleCreate (hlimit : 0 < limit) :
    wp (watch ownerID limit t) (handleCreate t) (fun _ _ => True) .start := by
  unfold handleCreate
  split
  · trivial
  have hdefault : wp (watch ownerID limit t) (defaultMemory t.body) (fun _ m => m = .start) .start := by
    unfold defaultMemory
    split
    · rfl
    · refine wp_ask rfl (forall_result fun egg _ => ?_)
      rfl
  refine wp_then hdefault fun r m hm => ?_
  obtain rfl : m = .start := hm
  match r with
  | .error e => trivial
  | .ok defaultMemoryMB =>
    dsimp only
    split
    · trivial
    refine wp_then (wp_checkUserCanCreateServer hlimit) fun r m hm => ?_
    match r, hm with
    | some e, _ => trivial
    | none, hm =>
      have hcreate : wp (watch ownerID limit t) (createOnCluster t.setup (t.request defaultMemoryMB)
          (t.placement (t.request defaultMemoryMB))) (fun _ _ => True) m :=
        wp_lift (fun _ _ => rfl) (wp_createServer (hm rfl))
      refine wp_then hcreate fun r m _ => ?_
      cases r <;> trivial

theorem wp_program (hlimit : 0 < limit) :
    wp (watch ownerID limit t) t.program (fun _ m => m = .gone) .start :=
  wp_then (wp_handleCreate hlimit) fun _ _ _ => ⟨trivial, fun _ _ => rfl⟩

end

theorem owned_update {servers : List ServerRow} {p : ServerRow → Bool} {f : ServerRow → ServerRow}
    (hf : ∀ r, (f r).ownerID = r.ownerID) :
    (updateWhere p f servers).countP (fun r => decide (r.ownerID = ownerID)) =
      servers.countP fun r => decide (r.ownerID = ownerID) := by
  rw [updateWhere, List.countP_map]
  refine List.countP_congr fun r _ => ?_
  simp
  split
  · rw [hf]
  · rfl

theorem owned_noInsert (h : NoInsert c) : ((w.handle a c).2.servers.countP fun r => decide (r.ownerID = ownerID)) ≤
      w.servers.countP fun r => decide (r.ownerID = ownerID) := by
  cases c with
  | insertServer => cases h
  | markConfigSynced | markConfigSyncFailed | setProvisioned => exact le_of_eq (owned_update fun _ => rfl)
  | hardDelete => exact List.Sublist.countP_le List.filter_sublist
  | createWorkload =>
    simp [Cluster.World.handle]
    split <;> exact le_refl _
  | _ => exact le_refl _

theorem owned_insert :
    ((w.handle a (.insertServer id req)).2.servers.countP fun r => decide (r.ownerID = ownerID)) =
      (w.servers.countP fun r => decide (r.ownerID = ownerID)) + if req.ownerID = ownerID then 1 else 0 := by
  change (w.servers ++ [_]).countP _ = _
  rw [List.countP_append, List.countP_singleton]
  by_cases ho : req.ownerID = ownerID <;> simp [CreateServerRequest.row, ho]

structure Bounded (ownerID : String) (user : LimitedUser) (bound : Nat) (w : World) (g : List Phase) : Prop where
  row : rowAt (·.id) w.users ownerID = some user
  owned : w.owned ownerID ≤ bound
  cleared : Phase.cleared ∈ g → (w.owned ownerID : Int) < user.serverLimit

def Attends (ownerID : String) (limit : Int) (x : CreateTask × Action Unit) (m : Phase) : Prop :=
  wp (watch ownerID limit x.1) x.2 (fun _ m => m = .gone) m ∧ (m = .cleared → x.1.ownerID = ownerID)

section
variable {user : LimitedUser} {bound : Nat} {w w' : World} {g : List Phase} {i j : Nat} {m' : Phase}
variable {s : State} {o : Outcome}

theorem Bounded.shrink (h : Bounded ownerID user bound w g) (husers : w'.users = w.users)
    (howned : w'.owned ownerID ≤ w.owned ownerID) (hi : g[i]? = some m)
    (hm' : m' = .cleared → m = .cleared ∨ (w.owned ownerID : Int) < user.serverLimit) :
    Bounded ownerID user bound w' (g.set i m') where
  row := husers ▸ h.row
  owned := le_trans howned h.owned
  cleared hc := by
    have hlt : (w.owned ownerID : Int) < user.serverLimit := by
      obtain hc | hc := List.mem_or_eq_of_mem_set hc
      · exact h.cleared hc
      · obtain rfl | hlt := hm' hc.symm
        · exact h.cleared (List.mem_of_getElem? hi)
        · exact hlt
    omega

theorem cleared_underway {p : Action Unit} (h : Attends ownerID limit (t, p) .cleared) : underway ownerID (t, p) = true := by
  obtain ⟨hwp, howner⟩ := h
  have ho : decide (t.ownerID = ownerID) = true := decide_eq_true (howner rfl)
  cases p with
  | ret => cases hwp
  | call c =>
    cases c with
    | getEgg => cases hwp.1
    | getUserByID | countServers => cases hwp.1.1
    | _ => exact ho

theorem Bounded.insert (hg : Follows (Attends ownerID user.serverLimit) s.threads g)
    (h : Bounded ownerID user bound s.world g) (hbound : user.serverLimit ≤ bound)
    (halone : (s.threads.eraseIdx i).all (fun x => !underway ownerID x) = true) (hi : g[i]? = some .cleared)
    (husers : w'.users = s.world.users) (howned : w'.owned ownerID ≤ s.world.owned ownerID + 1) :
    Bounded ownerID user bound w' (g.set i .gone) where
  row := husers ▸ h.row
  owned := by
    have := h.cleared (List.mem_of_getElem? hi)
    omega
  cleared hc := by
    obtain ⟨j, hj⟩ := List.getElem?_of_mem hc
    obtain ⟨-, he⟩ | ⟨hji, hj⟩ := set_cases hj
    · cases he
    · obtain ⟨x, hx, hattends⟩ := hg.of hj
      have hnot := List.all_eq_true.mp halone x (List.mem_eraseIdx_iff_getElem?.mpr ⟨j, hji, hx⟩)
      rw [cleared_underway hattends] at hnot
      cases hnot

theorem delivered_answer {c : Call} {r : Resp c} (hr : panel.answer w c o = some (r, w')) (ho : o = .delivered) :
    (r, w') = w.handle c := by
  subst ho
  exact (Option.some.inj hr).symm

theorem find_user (h : rowAt LimitedUser.id w.users ownerID = some user) (hactive : user.disabled = false) :
    (w.users.find? fun u => u.id = ownerID && !u.disabled) = some user := by
  unfold rowAt at h
  obtain ⟨hid, l₁, l₂, heq, hnone⟩ := List.find?_eq_some_iff_append.mp h
  refine List.find?_eq_some_iff_append.mpr ⟨?_, l₁, l₂, heq, fun a ha => ?_⟩
  · rw [hactive, Bool.not_false, Bool.and_true]
    exact hid
  · have := hnone a ha
    simp at this
    simp [this]

theorem bounded_inv (hlimit : 0 < user.serverLimit) (hbound : user.serverLimit ≤ bound) :
    GhostInv panel (fun s l => counted ownerID s l = true) (Attends ownerID user.serverLimit)
      (Bounded ownerID user bound) where
  start s t g _ _ h := ⟨.start, ⟨wp_program hlimit, (by simp)⟩, h.row, h.owned, fun hc => h.cleared (mem_of_snoc hc (by simp))⟩
  tick _ _ _ _ _ h := h
  crash s i t p g m _ _ _ hi _ h := ⟨.gone, ⟨rfl, (by simp)⟩, h.shrink rfl (le_refl _) hi (by simp)⟩
  call s i o t c k r w g m ha hi hg hm hat h hr := by
    have hsends := Config.sends_eq o hi
    cases c with
    | getUserByID id =>
      have hexpects : id = ownerID → ∃ u, r = .ok u ∧ u.serverLimit = user.serverLimit := by
        rintro rfl
        simp [counted, hsends, h.row] at ha
        have he := congrArg Prod.fst (delivered_answer hr ha.1)
        simp [World.handle, find_user h.row ha.2, orNoRows] at he
        exact ⟨user, he, rfl⟩
      refine ⟨m, ⟨hat.1.2 r hexpects, hat.2⟩, ?_⟩
      obtain rfl | rfl := System.answer_world hr
      · exact h.shrink rfl (le_refl _) hm .inl
      · exact h.shrink rfl (le_refl _) hm .inl
    | countServers id =>
      have hdelivered : id = ownerID → r = .ok (s.world.owned ownerID) := by
        rintro rfl
        simp [counted, hsends] at ha
        exact congrArg Prod.fst (delivered_answer hr ha)
      have hworld : w = s.world := by
        obtain rfl | rfl := System.answer_world hr <;> rfl
      subst hworld
      refine ⟨(watch ownerID user.serverLimit t).next m (.countServers id) r,
        ⟨hat.1.2 r fun ho => ⟨_, hdelivered ho⟩, ?_⟩, ?_⟩
      · cases r with
        | error => exact hat.2
        | ok n =>
          change (if _ then Phase.cleared else .gone) = Phase.cleared → _
          split
          · rename_i hid
            exact fun _ => hat.1.1.2.symm.trans hid.1
          · simp
      · refine h.shrink rfl (le_refl _) hm ?_
        cases r with
        | error => exact .inl
        | ok n =>
          change (if _ then Phase.cleared else .gone) = Phase.cleared → _
          split
          · rename_i hid
            have hn : n = s.world.owned ownerID := Except.ok.inj (hdelivered hid.1)
            exact fun _ => .inr (hn ▸ hid.2)
          · simp
    | cluster c =>
      by_cases hc : inserts c = true
      · obtain ⟨id, req, rfl⟩ : ∃ id req, c = .insertServer id req := by
          cases c with
          | insertServer id req => exact ⟨id, req, rfl⟩
          | _ => cases hc
        have husers : w.users = s.world.users := by
          obtain rfl | rfl := System.answer_world hr <;> rfl
        have howned : w.owned ownerID ≤ s.world.owned ownerID + if req.ownerID = ownerID then 1 else 0 := by
          obtain rfl | rfl := System.answer_world hr
          · exact Nat.le_add_right _ _
          · exact le_of_eq owned_insert
        refine ⟨.gone, ⟨hat.1.2 r trivial, (by simp)⟩, ?_⟩
        by_cases ho : req.ownerID = ownerID
        · obtain rfl : m = .cleared := hat.1.1 ho
          rw [if_pos ho] at howned
          refine h.insert hg hbound ?_ hm husers howned
          simpa [counted, hsends, ho] using ha
        · rw [if_neg ho] at howned
          exact h.shrink husers howned hm (by simp)
      · have hno : NoInsert c := Bool.eq_false_iff.mpr hc
        have hsilent : (watch ownerID user.serverLimit t).next m (.cluster c) r = m :=
          (silent_noInsert (t := t) hno m trivial).2 r trivial
        refine ⟨m, ⟨?_, hat.2⟩, ?_⟩
        · have hrest := hat.1.2 r (by cases c <;> trivial)
          rwa [hsilent] at hrest
        · obtain rfl | rfl := System.answer_world hr
          · exact h.shrink rfl (le_refl _) hm .inl
          · exact h.shrink rfl (owned_noInsert hno) hm .inl
    | answer =>
      refine ⟨.gone, ⟨hat.1.2 r trivial, (by simp)⟩, ?_⟩
      obtain rfl | rfl := System.answer_world hr
      · exact h.shrink rfl (le_refl _) hm (by simp)
      · exact h.shrink rfl (le_refl _) hm (by simp)
    | getEgg | sumServers =>
      refine ⟨m, ⟨hat.1.2 r trivial, hat.2⟩, ?_⟩
      obtain rfl | rfl := System.answer_world hr
      · exact h.shrink rfl (le_refl _) hm .inl
      · exact h.shrink rfl (le_refl _) hm .inl

end

/-- A user with a limit does not come to own more servers than it allows or than there were, if
each of its servers is written by a request that alone was past its count. -/
theorem servers_within_limit {s₀ s : State} {ls : List (Label CreateTask)} {user : LimitedUser} (hidle : s₀.threads = [])
    (hrow : rowAt (·.id) s₀.world.users user.id = some user) (hlimit : 0 < user.serverLimit)
    (h : Run panel.next (fun s l => counted user.id s l = true) s₀ ls s) :
    (s.world.owned user.id : Int) ≤ max user.serverLimit (s₀.world.owned user.id) := by
  have hbound : user.serverLimit ≤ (max user.serverLimit.toNat (s₀.world.owned user.id) : Nat) := by omega
  have hstart : Ghosted (Attends user.id user.serverLimit)
      (Bounded user.id user (max user.serverLimit.toNat (s₀.world.owned user.id))) s₀ :=
    ⟨[], hidle ▸ Follows.nil, hrow, le_max_right _ _, nofun⟩
  obtain ⟨g, -, hG⟩ := (bounded_inv hlimit hbound).run hstart h
  have := hG.owned
  omega

def answersAt (n : Nat) : Cluster.Answers :=
  { Cluster.ready with decision := { nodeID := "n", allocationID := String.ofList (List.replicate (n + 1) 'a') } }

def limitedUser : LimitedUser := { id := "u", serverLimit := 1 }

def vacant : State :=
  ⟨{ users := [limitedUser, { id := "d", serverLimit := 1, disabled := true }], answers := answersAt }, []⟩

def request (ownerID serverID : String) : CreateTask where
  setup := { serverID, reservationID := serverID }
  body := { name := "s", nodeID := "n", ownerID, templateID := "e", memoryMB := some 512 }

def delivered (i n : Nat) : List (Label CreateTask) := List.replicate n (.call i .delivered)

def inTurn : List (Label CreateTask) :=
  [.start (request "u" "s1")] ++ delivered 0 16 ++ [.start (request "u" "s2")] ++ delivered 1 3

theorem servers_within_limit_in_turn : ∃ s : State, Run panel.next (fun s l => counted "u" s l = true) vacant inTurn s ∧
    s.ended 0 = true ∧ s.ended 1 = true ∧ s.world.owned "u" = 1 ∧ (s.world.owned "u" : Int) ≤ max 1 (vacant.world.owned "u") := by
  obtain ⟨s, hr, h₀, h₁, howned⟩ : ∃ s : State, Run panel.next (fun s l => counted "u" s l = true) vacant inTurn s ∧
      s.ended 0 = true ∧ s.ended 1 = true ∧ s.world.owned "u" = 1 := by decide +kernel
  have hrow : rowAt (·.id) vacant.world.users limitedUser.id = some limitedUser := rfl
  exact ⟨s, hr, h₀, h₁, howned, servers_within_limit rfl hrow (by decide) hr⟩

def overlapping : List (Label CreateTask) :=
  [.start (request "u" "s1"), .start (request "u" "s2")] ++ delivered 0 2 ++ delivered 1 16 ++ delivered 0 14 ++
    [.start (request "d" "s3")] ++ delivered 2 15 ++ [.start (request "d" "s4")] ++ delivered 3 15

theorem servers_beyond_limit : ∃ s : State, Run panel.next (fun _ _ => True) vacant overlapping s ∧
    vacant.world.owned "u" = 0 ∧ s.world.owned "u" = 2 ∧ s.world.owned "d" = 2 := by decide +kernel

end ForgePlane.Quotas
