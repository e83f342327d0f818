import ForgePlane.Capacity

/-!
# The scheduler and the reservation store

`FilterNodes` keeps the nodes a server may be placed on. It compares the same
snapshot a reservation is checked against, but takes a total that is not positive
for a node without a limit, where the store sees a node with nothing left.
-/

namespace ForgePlane

variable {capacity : DB.NodeCapacitySnapshot} {db : DB} {now : Nat} {row : NodeRow}

namespace Scheduler

inductive NodeActualState where
  | online
  | degraded
  | offline
  deriving DecidableEq, Repr

inductive NodeDesiredState where
  | active
  | maintenance
  | draining
  deriving DecidableEq, Repr

structure Node where
  id : String
  regionID : Option String := none
  actualState : NodeActualState := .online
  desiredState : NodeDesiredState := .active
  maintenance : Bool := false
  draining : Bool := false
  deriving DecidableEq, Repr

structure Region where
  id : String
  enabled : Bool := true
  deriving DecidableEq, Repr

structure PlacementRequest where
  serverID : String := ""
  regionID : String := ""
  region : String := ""
  preferredNode : String := ""
  requiredNode : String := ""
  nodeID : String := ""
  allocationID : String := ""
  memoryMB : Int := 0
  cpuShares : Int := 0
  cpu : Int := 0
  diskMB : Int := 0
  deriving DecidableEq, Repr

def PlacementRequest.amount (req : PlacementRequest) : Resource → Int
  | .cpu => req.cpu
  | .memory => req.memoryMB
  | .disk => req.diskMB

def firstNonEmpty (values : List String) : String := (values.find? fun v => trimSpace v ≠ "").getD ""

def normalizeRequest (req : PlacementRequest) : PlacementRequest :=
  let cpu := if req.cpu = 0 then req.cpuShares else req.cpu
  { req with
    regionID := trimSpace (firstNonEmpty [req.regionID, req.region])
    requiredNode := trimSpace (firstNonEmpty [req.requiredNode, req.nodeID])
    preferredNode := trimSpace req.preferredNode
    allocationID := trimSpace req.allocationID
    cpu := if cpu = 0 then 1024 else cpu
    memoryMB := if req.memoryMB = 0 then 2048 else req.memoryMB
    diskMB := if req.diskMB = 0 then 10240 else req.diskMB }

def nodeRegionEnabled (node : Node) (regions : List Region) : Bool :=
  match node.regionID with
  | none => true
  | some id => ((regions.find? fun r => r.id = id).map (·.enabled)).getD true

def hasCapacity (total available requested : Int) : Bool :=
  if requested ≤ 0 || total ≤ 0 then true else decide (requested ≤ available)

inductive Verdict where
  | kept
  | skipped
  | rejected
  | exceeded (resource : Resource) (available requested : Int)
  deriving DecidableEq, Repr

def checkResources (capacity : DB.NodeCapacitySnapshot) (req : PlacementRequest) : List Resource → Verdict
  | [] => .kept
  | k :: ks =>
    if !hasCapacity (capacity.total k) (capacity.available k) (req.amount k) then
      .exceeded k (capacity.available k) (req.amount k)
    else checkResources capacity req ks

def inspect (db : DB) (now : Nat) (regions : List Region) (req : PlacementRequest) (node : Node) : Verdict :=
  if !nodeRegionEnabled node regions then .rejected
  else if req.requiredNode ≠ "" && node.id ≠ req.requiredNode then .skipped
  else if node.actualState ≠ .online || node.desiredState = .maintenance || node.desiredState = .draining ||
      node.maintenance || node.draining then .rejected
  else if req.regionID ≠ "" && node.regionID ≠ some req.regionID then .rejected
  else
    match db.nodeCapacitySnapshot now node.id with
    | .error _ => .rejected
    | .ok capacity => checkResources capacity req [.cpu, .memory, .disk]

structure CapacityExceeded where
  nodeID : String
  resource : Resource
  available : Int
  requested : Int
  deriving DecidableEq, Repr

structure Filtered where
  nodes : List Node := []
  placementRejections : Nat := 0
  capacityExceeded : List CapacityExceeded := []
  deriving DecidableEq, Repr

def Filtered.add (f : Filtered) (node : Node) : Verdict → Filtered
  | .kept => { f with nodes := f.nodes ++ [node] }
  | .skipped => f
  | .rejected => { f with placementRejections := f.placementRejections + 1 }
  | .exceeded k available requested => { f with
      placementRejections := f.placementRejections + 1
      capacityExceeded := f.capacityExceeded ++ [⟨node.id, k, available, requested⟩] }

def filterNodes (db : DB) (now : Nat) (regions : List Region) (req : PlacementRequest) (nodes : List Node) : Filtered :=
  nodes.foldl (fun f node => f.add node (inspect db now regions (normalizeRequest req) node)) {}

section
variable {regions : List Region} {req : PlacementRequest} {nodes : List Node} {node : Node}

/-! ## What the loop keeps -/

theorem Filtered.mem_nodes_add (f : Filtered) (n : Node) (v : Verdict) :
    node ∈ (f.add n v).nodes ↔ node ∈ f.nodes ∨ node = n ∧ v = .kept := by
  cases v <;> simp [Filtered.add]

theorem Filtered.mem_capacityExceeded_add (f : Filtered) (n : Node) (v : Verdict) (e : CapacityExceeded) :
    e ∈ (f.add n v).capacityExceeded ↔
      e ∈ f.capacityExceeded ∨ n.id = e.nodeID ∧ v = .exceeded e.resource e.available e.requested := by
  cases v with
  | exceeded =>
    simp [Filtered.add, Verdict.exceeded.injEq]
    refine or_congr_right ⟨?_, ?_⟩
    · rintro rfl; exact ⟨rfl, rfl, rfl, rfl⟩
    · rintro ⟨h, rfl, rfl, rfl⟩; rw [h]
  | _ => simp [Filtered.add]

theorem mem_foldl_nodes (v : Node → Verdict) (nodes : List Node) (f : Filtered) :
    node ∈ (nodes.foldl (fun f n => f.add n (v n)) f).nodes ↔ node ∈ f.nodes ∨ node ∈ nodes ∧ v node = .kept := by
  induction nodes generalizing f with
  | nil => simp
  | cons n nodes ih =>
    rw [List.foldl_cons, ih, Filtered.mem_nodes_add, List.mem_cons, or_and_right, or_assoc]
    refine or_congr_right (or_congr_left (and_congr_right ?_))
    rintro rfl
    exact Iff.rfl

theorem mem_foldl_capacityExceeded (v : Node → Verdict) (nodes : List Node) (f : Filtered) (e : CapacityExceeded) :
    e ∈ (nodes.foldl (fun f n => f.add n (v n)) f).capacityExceeded ↔ e ∈ f.capacityExceeded ∨
      ∃ n ∈ nodes, n.id = e.nodeID ∧ v n = .exceeded e.resource e.available e.requested := by
  induction nodes generalizing f with
  | nil => simp
  | cons n nodes ih => rw [List.foldl_cons, ih, Filtered.mem_capacityExceeded_add, List.exists_mem_cons_iff, or_assoc]

theorem mem_filterNodes : node ∈ (filterNodes db now regions req nodes).nodes ↔
    node ∈ nodes ∧ inspect db now regions (normalizeRequest req) node = .kept := by
  simp [filterNodes, mem_foldl_nodes]

theorem mem_filterNodes_capacityExceeded {e : CapacityExceeded} :
    e ∈ (filterNodes db now regions req nodes).capacityExceeded ↔ ∃ n ∈ nodes, n.id = e.nodeID ∧
      inspect db now regions (normalizeRequest req) n = .exceeded e.resource e.available e.requested := by
  simp [filterNodes, mem_foldl_capacityExceeded]

variable {k : Resource} {ks : List Resource} {a r : Int}

theorem normalizeRequest_amount (h : req.amount k ≠ 0) : (normalizeRequest req).amount k = req.amount k := by
  cases k with
  | cpu => simp [normalizeRequest, PlacementRequest.amount, show req.cpu ≠ 0 from h]
  | memory | disk => exact if_neg h

theorem checkResources_kept :
    checkResources capacity req ks = .kept ↔
      ∀ k ∈ ks, hasCapacity (capacity.total k) (capacity.available k) (req.amount k) = true := by
  induction ks with
  | nil => simp [checkResources]
  | cons =>
    rw [checkResources, List.forall_mem_cons]
    split
    · rename_i h
      simp_all
    · rename_i h
      simp_all

theorem checkResources_exceeded
    (h : checkResources capacity req ks = .exceeded k a r) :
    hasCapacity (capacity.total k) (capacity.available k) (req.amount k) = false := by
  induction ks with
  | nil => cases h
  | cons k' ks ih =>
    rw [checkResources] at h
    split at h
    · rename_i hno
      cases h
      simpa using hno
    · exact ih h

theorem inspect_snapshot (h : inspect db now regions req node = .kept ∨ ∃ k a r,
      inspect db now regions req node = .exceeded k a r) :
    ∃ capacity, db.nodeCapacitySnapshot now node.id = .ok capacity ∧
      inspect db now regions req node = checkResources capacity req [.cpu, .memory, .disk] := by
  unfold inspect at h ⊢
  split at h
  · simp at h
  split at h
  · simp at h
  split at h
  · simp at h
  split at h
  · simp at h
  rename_i h1 h2 h3 h4
  rw [if_neg h1, if_neg h2, if_neg h3, if_neg h4]
  split at h
  · simp at h
  · rename_i capacity hc
    exact ⟨capacity, hc, rfl⟩

end

end Scheduler

/-! ## A reservation on the same rows -/

namespace DB

section
variable {id n : String} {req : CreatePlacementReservationRequest}
variable {capacity : NodeCapacitySnapshot}

theorem expire_filter (q : PlacementReservation → Bool) :
    (db.expirePlacementReservations now).placementReservations.filter (fun r => q r && holds now r) =
      db.placementReservations.filter fun r => q r && holds now r := by
  refine filter_updateWhere fun r hr => ⟨?_, ?_⟩
  · simp at hr
    simp [holds, Nat.not_lt.mpr hr.2]
  · simp [holds, openReservation]

theorem expire_reserved (p : PlacementReservation → Bool) :
    (db.expirePlacementReservations now).reserved now p = db.reserved now p := by
  have hiff : ∀ rows : List PlacementReservation, (rows.any fun r => p r && holds now r) =
      !(rows.filter fun r => p r && holds now r).isEmpty := by
    intro rows
    rw [Bool.eq_iff_iff]
    simp [List.filter_eq_nil_iff]
  rw [reserved, reserved, hiff, hiff, expire_filter]

theorem expire_snapshot (n : String) :
    (db.expirePlacementReservations now).nodeCapacitySnapshot now n = db.nodeCapacitySnapshot now n := by
  have : (db.expirePlacementReservations now).reservationsOn now n = db.reservationsOn now n := expire_filter _
  unfold nodeCapacitySnapshot activeReservedCapacity
  rw [this]
  rfl

structure Reservable (db : DB) (now : Nat) (id : String) (req : CreatePlacementReservationRequest) : Prop where
  node : req.nodeID ≠ ""
  server : req.serverID ≠ "" → db.reserved now (fun r => r.serverID = req.serverID) = false ∧ (db.server req.serverID).isSome = true
  migration : req.migrationID ≠ "" →
    db.reserved now (fun r => r.migrationID = req.migrationID) = false ∧ (db.migration req.migrationID).isSome = true
  fresh : db.placementReservations.any (fun r => r.id = id) = false

theorem snapshot_ok (h : db.nodeCapacitySnapshot now n = .ok capacity) :
    ∃ row allocated reserved, db.node n = some row ∧ capacity = NodeUsage.snapshot ⟨row.total, allocated⟩ reserved := by
  unfold nodeCapacitySnapshot nodeUsage at h
  cases hn : db.node n with
  | none =>
    rw [hn] at h
    cases h
  | some row =>
    rw [hn] at h
    cases hs : sums ((db.serversOn n).map (·.amount)) with
    | error e =>
      simp [hs] at h
      cases h
    | ok a =>
    cases hr : db.activeReservedCapacity now n with
    | error e =>
      simp [hs, hr] at h
      cases h
    | ok v =>
      simp [hs, hr] at h
      cases h
      exact ⟨row, a, v, rfl, rfl⟩

theorem create_eq_of_snapshot (h : Reservable db now id req) (hs : db.nodeCapacitySnapshot now req.nodeID = .ok capacity) :
    db.createPlacementReservation now id req =
      match checkCapacity capacity.available req.amount with
      | .error e => .error e
      | .ok () => (db.expirePlacementReservations now).insertReservation (req.row id (req.expiresAt.getD (now + 600))) := by
  obtain ⟨row, _, _, hrow, -⟩ := snapshot_ok hs
  have hserver : (req.serverID ≠ "" && (db.expirePlacementReservations now).reserved now
      fun r => r.serverID = req.serverID) = false := by
    rw [expire_reserved]
    by_cases hne : req.serverID = ""
    · simp [hne]
    · rw [(h.server hne).1, Bool.and_false]
  have hmigration : (req.migrationID ≠ "" && (db.expirePlacementReservations now).reserved now
      fun r => r.migrationID = req.migrationID) = false := by
    rw [expire_reserved]
    by_cases hne : req.migrationID = ""
    · simp [hne]
    · rw [(h.migration hne).1, Bool.and_false]
  have hnode : ((db.expirePlacementReservations now).node req.nodeID).isNone = false := by
    rw [show (db.expirePlacementReservations now).node req.nodeID = db.node req.nodeID from rfl, hrow]
    rfl
  unfold createPlacementReservation
  rw [if_neg h.node]
  cases hcheck : checkCapacity capacity.available req.amount with
  | error | ok => simp only [hnode, hserver, hmigration, Bool.false_eq_true, if_false, expire_snapshot, hs, hcheck]

theorem insertReservation_ok_iff (h : Reservable db now id req) (hrow : db.node req.nodeID = some row)
    (e : Nat) : (∃ db', (db.expirePlacementReservations now).insertReservation (req.row id e) = .ok db') ↔
      ∀ k, int4 (req.amount k) = true := by
  have hfresh : (db.expirePlacementReservations now).placementReservations.any (fun r => r.id = id) = false := by
    simp only [expirePlacementReservations, updateWhere, List.any_map]
    rw [← h.fresh]
    refine congrArg db.placementReservations.any (funext fun r => ?_)
    simp only [Function.comp]
    split <;> rfl
  have hrefs : ((db.node req.nodeID).isNone || (req.serverID ≠ "" && (db.server req.serverID).isNone) ||
      (req.migrationID ≠ "" && (db.migration req.migrationID).isNone)) = false := by
    simp [hrow]
    exact ⟨by simpa using fun hne => (h.server hne).2, by simpa using fun hne => (h.migration hne).2⟩
  have hamounts : (∀ k, int4 (req.amount k) = true) ↔ (int4 req.cpu && int4 req.memory && int4 req.disk) = true := by
    simp
    exact ⟨fun h => ⟨⟨h .cpu, h .memory⟩, h .disk⟩, fun h k => by
      cases k with
      | cpu => exact h.1.1
      | memory => exact h.1.2
      | disk => exact h.2⟩
  rw [hamounts, insertReservation]
  change (∃ db', (if !(int4 req.cpu && int4 req.memory && int4 req.disk) then _ else if
    (db.expirePlacementReservations now).placementReservations.any (fun r => r.id = id) then _ else if
    ((db.node req.nodeID).isNone || (req.serverID ≠ "" && (db.server req.serverID).isNone) ||
      (req.migrationID ≠ "" && (db.migration req.migrationID).isNone)) then _ else _) = _) ↔ _
  rw [hfresh, hrefs]
  cases int4 req.cpu && int4 req.memory && int4 req.disk with
  | true | false => simp

def exceedsCapacity : Resource → Err
  | .cpu => "reserved cpu exceeds available capacity"
  | .memory => "reserved memory exceeds available capacity"
  | .disk => "reserved disk exceeds available capacity"

theorem checkCapacity_cases (available requested : Resource → Int) :
    checkCapacity available requested = .ok () ∧ (∀ k, 0 < requested k → requested k ≤ available k) ∨
      ∃ k, checkCapacity available requested = .error (exceedsCapacity k) ∧ available k < requested k := by
  unfold checkCapacity
  simp
  split
  · rename_i h
    exact .inr ⟨.cpu, rfl, h.2⟩
  split
  · rename_i h
    exact .inr ⟨.memory, rfl, h.2⟩
  split
  · rename_i h
    exact .inr ⟨.disk, rfl, h.2⟩
  rename_i hcpu hmemory hdisk
  refine .inl ⟨rfl, fun k hk => not_lt.mp fun h => ?_⟩
  cases k with
  | cpu => exact hcpu ⟨hk, h⟩
  | memory => exact hmemory ⟨hk, h⟩
  | disk => exact hdisk ⟨hk, h⟩

end

end DB

namespace Scheduler

section
variable {db : DB} {now : Nat} {regions : List Region} {req : PlacementRequest} {nodes : List Node} {node : Node}
variable {id : String} {create : CreatePlacementReservationRequest} {total available requested : Int}
variable {allocated reserved : Resource → Int}

theorem hasCapacity_iff (hr : 0 < requested) :
    hasCapacity total available requested = true ↔ total ≤ 0 ∨ requested ≤ available := by
  by_cases ht : total ≤ 0
  · simp [hasCapacity, ht]
  · simp [hasCapacity, ht, Int.not_le.mpr hr]

theorem room_iff
    (hc : capacity = DB.NodeUsage.snapshot ⟨row.total, allocated⟩ reserved) (hpos : ∀ k, 0 < req.amount k)
    (hkept : checkResources capacity req [.cpu, .memory, .disk] = .kept) :
    (∀ k, req.amount k ≤ capacity.available k) ↔ ∀ k, 0 < row.total k := by
  have hkept : ∀ k, row.total k ≤ 0 ∨ req.amount k ≤ capacity.available k := by
    intro k
    have := checkResources_kept.mp hkept k (by cases k <;> simp)
    rw [hasCapacity_iff (hpos k), hc] at this
    rw [hc]
    exact this
  refine forall_congr' fun k => ⟨fun hle => not_le.mp fun ht => ?_, fun ht => (hkept k).resolve_left (not_le.mpr ht)⟩
  have hzero : capacity.available k = 0 := by
    rw [hc]
    exact if_pos ht
  have := hpos k
  omega

/-- A reservation on a node that `FilterNodes` keeps is made just if every total is positive and the amounts are
`integer`s; on one refused for capacity it is refused too. -/
theorem filterNodes_agrees_iff (hpos : ∀ k, 0 < req.amount k) (hnode : create.nodeID = node.id)
    (hamount : ∀ k, create.amount k = req.amount k) (h : db.Reservable now id create) :
    (node ∈ (filterNodes db now regions req nodes).nodes →
      ((∃ db', db.createPlacementReservation now id create = .ok db') ↔
        (∃ row, db.node node.id = some row ∧ ∀ k, 0 < row.total k) ∧ ∀ k, int4 (req.amount k) = true)) ∧
    ∀ e ∈ (filterNodes db now regions req nodes).capacityExceeded, e.nodeID = node.id →
      ∃ k, db.createPlacementReservation now id create = .error (DB.exceedsCapacity k) := by
  have hnorm : ∀ k, (normalizeRequest req).amount k = req.amount k :=
    fun k => normalizeRequest_amount (Int.ne_of_gt (hpos k))
  have hnpos : ∀ k, 0 < (normalizeRequest req).amount k := fun k => hnorm k ▸ hpos k
  refine ⟨fun hkept => ?_, fun e he hen => ?_⟩
  · have hkept := (mem_filterNodes.mp hkept).2
    obtain ⟨capacity, hs, heq⟩ := inspect_snapshot (.inl hkept)
    rw [heq] at hkept
    obtain ⟨row, allocated, reserved, hrow, hc⟩ := DB.snapshot_ok hs
    have hroom := room_iff hc hnpos hkept
    rw [← hnode] at hs hrow ⊢
    rw [DB.create_eq_of_snapshot h hs]
    have hint := DB.insertReservation_ok_iff h hrow (create.expiresAt.getD (now + 600))
    simp [hamount] at hint
    simp [hnorm] at hroom
    obtain ⟨hok, hle⟩ | ⟨k, herr, hlt⟩ := DB.checkCapacity_cases capacity.available create.amount
    · rw [hok]
      refine hint.trans ⟨fun hi => ⟨⟨row, hrow, hroom.mp fun k => ?_⟩, hi⟩, And.right⟩
      rw [← hamount]
      exact hle k (by rw [hamount]; exact hpos k)
    · rw [herr]
      refine ⟨nofun, ?_⟩
      rintro ⟨⟨row', hrow', ht⟩, -⟩
      cases hrow.symm.trans hrow'
      have := hroom.mpr ht k
      rw [hamount] at hlt
      omega
  · obtain ⟨n, -, hn, hexceeded⟩ := mem_filterNodes_capacityExceeded.mp he
    obtain ⟨capacity, hs, heq⟩ := inspect_snapshot (.inr ⟨_, _, _, hexceeded⟩)
    have hno := checkResources_exceeded (heq ▸ hexceeded)
    rw [← Bool.not_eq_true, hasCapacity_iff (hnpos _), hnorm, not_or] at hno
    rw [hn, hen, ← hnode] at hs
    rw [DB.create_eq_of_snapshot h hs]
    obtain ⟨-, hle⟩ | ⟨k, herr, -⟩ := DB.checkCapacity_cases capacity.available create.amount
    · have := hle e.resource
      rw [hamount] at this
      exact absurd (this (hpos _)) hno.2
    · rw [herr]
      exact ⟨k, rfl⟩

end

def online : Node := { id := "n" }

def fullNode : DB := { nodes := [{ id := "n", baseURL := "", cpuThreads := 4, memoryMB := 4096, diskMB := 20480 }] }

def smallServer : PlacementRequest := { cpu := 1024, memoryMB := 1024, diskMB := 10240 }

def smallReservation : CreatePlacementReservationRequest := { nodeID := "n", cpu := 1024, memory := 1024, disk := 10240 }

theorem filterNodes_agrees_iff_fullNode :
    online ∈ (filterNodes fullNode 0 [] smallServer [online]).nodes ∧
    ∃ db', fullNode.createPlacementReservation 0 "r" smallReservation = .ok db' := by
  have hkept : online ∈ (filterNodes fullNode 0 [] smallServer [online]).nodes := by decide +kernel
  have hfree : fullNode.Reservable 0 "r" smallReservation := ⟨by decide, nofun, nofun, rfl⟩
  have := (filterNodes_agrees_iff (by intro k; cases k <;> decide) (show smallReservation.nodeID = online.id from rfl)
    (by intro k; cases k <;> rfl) hfree).1 hkept
  refine ⟨hkept, this.mpr ⟨⟨_, rfl, ?_⟩, ?_⟩⟩
  · intro k; cases k <;> decide
  · intro k; cases k <;> decide

def noThreads : DB := { nodes := [{ id := "n", baseURL := "", memoryMB := 4096, diskMB := 20480 }] }

theorem kept_node_refuses_reservation :
    (∀ k, 0 < smallServer.amount k) ∧ (∀ k, smallReservation.amount k = smallServer.amount k) ∧
    noThreads.Reservable 0 "r" smallReservation ∧
    online ∈ (filterNodes noThreads 0 [] smallServer [online]).nodes ∧
    noThreads.createPlacementReservation 0 "r" smallReservation = .error "reserved cpu exceeds available capacity" := by
  refine ⟨?_, ?_, ⟨by decide, nofun, nofun, rfl⟩, by decide +kernel, rfl⟩
  · intro k; cases k <;> decide
  · intro k; cases k <;> rfl

end Scheduler

end ForgePlane
