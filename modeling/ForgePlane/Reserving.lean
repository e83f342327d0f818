import ForgePlane.Statements

/-!
# Placement reservations

The calls that create, settle and expire placement reservations, statement by
statement. A creation locks the row of its node before it looks at what is left
there, so on one node they come one after the other; on different nodes they do not.
-/

namespace ForgePlane.Postgres

def nodeCapacitySnapshotTx (nodeID : String) : Action (Except Err DB.NodeCapacitySnapshot) := do
  match ← exec (.nodeUsage nodeID) with
  | .error e => return .error e
  | .ok usage =>
    match ← exec (.reservedCapacity nodeID) with
    | .error e => return .error e
    | .ok reserved => return .ok (usage.snapshot reserved)

def execUnless (skip : Bool) (q : Stmt) (v : q.Val) : Action (Except Err q.Val) :=
  if skip then pure (.ok v) else exec q

def insertWithinCapacity (id : String) (req : CreatePlacementReservationRequest) (expiresAt : Nat) :
    Action (Except Err Unit) := do
  match ← nodeCapacitySnapshotTx req.nodeID with
  | .error e => return .error e
  | .ok capacity =>
  match DB.checkCapacity capacity.available req.amount with
  | .error e => return .error e
  | .ok () => exec (.insertReservation (req.row id expiresAt))

def insertForMigration (id : String) (req : CreatePlacementReservationRequest) (expiresAt : Nat) :
    Action (Except Err Unit) := do
  match ← execUnless (req.migrationID = "") (.migrationReserved req.migrationID) false with
  | .error e => return .error e
  | .ok true => return .error "migration already has an active placement reservation"
  | .ok false => insertWithinCapacity id req expiresAt

def reserve (id : String) (req : CreatePlacementReservationRequest) (expiresAt : Nat) : Action (Except Err Unit) := do
  match ← exec .expireReservations with
  | .error e => return .error e
  | .ok _ =>
  match ← exec (.lockNode req.nodeID) with
  | .error _ => return .error "node not found"
  | .ok _ =>
  match ← execUnless (req.serverID = "") (.serverReserved req.serverID) false with
  | .error e => return .error e
  | .ok true => return .error "server already has an active placement reservation"
  | .ok false => insertForMigration id req expiresAt

def expiry (req : CreatePlacementReservationRequest) : Action (Except Err Nat) :=
  match req.expiresAt with
  | some t => pure (.ok t)
  | none => do return (← auto .clock).map (· + 600)

def createPlacementReservation (id : String) (req : CreatePlacementReservationRequest) :
    Action (Except Err PlacementReservation) := do
  if req.nodeID = "" then return .error "nodeId is required"
  else
  match ← expiry req with
  | .error e => return .error e
  | .ok expiresAt =>
  match ← transaction (reserve id req expiresAt) with
  | .error e => return .error e
  | .ok () => auto (.getReservation id)

def updatePlacementReservationStatus (id : String) (status : ReservationStatus) :
    Action (Except Err PlacementReservation) := do
  match ← auto (.setReservationStatus id status) with
  | .error e => return .error e
  | .ok 0 => return .error "reservation not found or already terminal"
  | .ok _ => auto (.getReservation id)

def getReservations : List String → Action (Except Err (List PlacementReservation))
  | [] => pure (.ok [])
  | id :: ids => do
    match ← auto (.getReservation id) with
    | .error e => return .error e
    | .ok r => return (← getReservations ids).map fun (rs : List PlacementReservation) => r :: rs

def expirePlacementReservations : Action (Except Err (List PlacementReservation)) := do
  match ← auto .expireReservations with
  | .error e => return .error e
  | .ok ids => getReservations ids

def updatePlacementReservationsForMigration (id : String) (status : ReservationStatus) :
    Action (Except Err (List PlacementReservation)) := do
  match ← auto (.setMigrationReservations id status) with
  | .error e => return .error e
  | .ok ids => getReservations ids

inductive ReservationTask where
  | create (id : String) (req : CreatePlacementReservationRequest)
  | updateStatus (id : String) (status : ReservationStatus)
  | updateForMigration (migrationID : String) (status : ReservationStatus)
  | expire

def ReservationTask.program : ReservationTask → Action Unit
  | .create id req => do let _ ← createPlacementReservation id req
  | .updateStatus id status => do let _ ← updatePlacementReservationStatus id status
  | .updateForMigration id status => do let _ ← updatePlacementReservationsForMigration id status
  | .expire => do let _ ← expirePlacementReservations

/-! ## What a creation has found out -/

structure Know where
  node : Option String := none
  freeServer : Option String := none
  freeMigration : Option String := none
  usage : Option DB.NodeUsage := none
  reserved : Option (Resource → Int) := none
  inserted : Option PlacementReservation := none

instance : Inhabited Know := ⟨{}⟩

def settling : Stmt → Bool
  | .clock | .getReservation _ | .setReservationStatus .. | .setMigrationReservations .. | .expireReservations => true
  | _ => false

def Know.admits (id : String) (req : CreatePlacementReservationRequest) (m : Know) : Stmt → Prop
  | .expireReservations => m.inserted = none
  | .lockNode n => n = req.nodeID ∧ m = {}
  | .serverReserved i => m.node = some req.nodeID ∧ i = req.serverID ∧ i ≠ "" ∧ m.inserted = none
  | .migrationReserved i => m.node = some req.nodeID ∧ i = req.migrationID ∧ i ≠ "" ∧ m.inserted = none
  | .nodeUsage n => m.node = some n ∧ m.inserted = none
  | .reservedCapacity n => m.node = some n ∧ m.inserted = none
  | .insertReservation r => m.inserted = none ∧ (∃ e, r = req.row id e) ∧ m.node = some req.nodeID ∧
      (req.serverID ≠ "" → m.freeServer = some req.serverID) ∧
      (req.migrationID ≠ "" → m.freeMigration = some req.migrationID) ∧
      ∃ u v, m.usage = some u ∧ m.reserved = some v ∧ DB.checkCapacity (u.snapshot v).available req.amount = .ok ()
  | _ => False

def Know.next (m : Know) : (c : Sql.Call Stmt) → Sql.Resp Stmt.Val c → Know
  | .begin, _ | .commit, _ | .rollback, _ => {}
  | .exec (.lockNode id), .ok _ => { m with node := some id }
  | .exec (.serverReserved id), .ok (false : Bool) => { m with freeServer := some id }
  | .exec (.migrationReserved id), .ok (false : Bool) => { m with freeMigration := some id }
  | .exec (.nodeUsage _), .ok (u : DB.NodeUsage) => { m with usage := some u }
  | .exec (.reservedCapacity _), .ok (v : Resource → Int) => { m with reserved := some v }
  | .exec (.insertReservation r), .ok _ => { m with inserted := some r }
  | _, _ => m

def reserving (t : ReservationTask) : Monitor (Sql.Resp Stmt.Val) Know where
  admits m
    | .begin | .rollback => True
    | .commit => m.inserted.isSome = true
    | .auto q => settling q = true
    | .exec q => ∃ id req, t = .create id req ∧ m.admits id req q
  next := Know.next

variable {id : String} {q : Stmt} {req : CreatePlacementReservationRequest} {t : ReservationTask} {m : Know}

section
variable {α : Type} {Φ : α → Know → Prop}

theorem wp_settling {p : Action α}
    (hp : All (fun c => ∃ q, c = .auto q ∧ settling q = true) p) (hΦ : ∀ a, Φ a m) : wp (reserving t) p Φ m := by
  refine All.wp (L := fun _ => True) (hp.mono ?_) trivial hΦ
  rintro _ ⟨q, rfl, hq⟩ m' -
  exact ⟨hq, fun r _ => rfl⟩

theorem settling_getReservations (ids : List String) :
    All (fun c => ∃ q, c = .auto q ∧ settling q = true) (getReservations ids) := by
  induction ids with
  | nil => trivial
  | cons id ids ih =>
    refine All.ok ⟨⟨_, rfl, rfl⟩, fun _ => trivial⟩ fun r => ?_
    exact ih.bind fun _ => trivial

theorem wp_exec {k : Except Err q.Val → Action α} (ha : m.admits id req q)
    (hk : ∀ r, wp (reserving (.create id req)) (k r) Φ (m.next (.exec q) r)) :
    wp (reserving (.create id req)) (exec q >>= k) Φ m :=
  ⟨⟨id, req, rfl, ha⟩, fun r _ => hk r⟩

def Inserts {α : Type} (r : Except Err α) (m : Know) : Prop := ∀ a, r = .ok a → m.inserted.isSome = true

theorem wp_insertWithinCapacity (e : Nat)
    (hi : m.inserted = none) (hn : m.node = some req.nodeID)
    (hs : req.serverID ≠ "" → m.freeServer = some req.serverID)
    (hm : req.migrationID ≠ "" → m.freeMigration = some req.migrationID) :
    wp (reserving (.create id req)) (insertWithinCapacity id req e) Inserts m := by
  rw [insertWithinCapacity, nodeCapacitySnapshotTx, Prog.bind_assoc]
  refine wp_exec ⟨hn, hi⟩ (forall_result (fun u => ?_) fun _ => nofun)
  rw [Prog.bind_assoc]
  refine wp_exec ⟨hn, hi⟩ (forall_result (fun v => ?_) fun _ => nofun)
  simp
  split
  · exact nofun
  · rename_i hcheck
    refine ⟨⟨id, req, rfl, hi, ⟨e, rfl⟩, hn, hs, hm, u, v, rfl, rfl, hcheck⟩, fun r _ => ?_⟩
    cases r with
    | error => exact nofun
    | ok => exact fun _ _ => rfl

theorem wp_insertForMigration (e : Nat)
    (hi : m.inserted = none) (hn : m.node = some req.nodeID)
    (hs : req.serverID ≠ "" → m.freeServer = some req.serverID) :
    wp (reserving (.create id req)) (insertForMigration id req e) Inserts m := by
  unfold insertForMigration
  by_cases hm : req.migrationID = ""
  · simp [execUnless, hm]
    exact wp_insertWithinCapacity e hi hn hs (absurd hm)
  · simp [execUnless, hm]
    refine wp_exec ⟨hn, rfl, hm, hi⟩ fun r => ?_
    match r with
    | .error e => exact nofun
    | .ok true => exact nofun
    | .ok false => exact wp_insertWithinCapacity e hi hn hs fun _ => rfl

theorem wp_reserve (id : String) (req : CreatePlacementReservationRequest) (e : Nat) :
    wp (reserving (.create id req)) (reserve id req e) Inserts {} := by
  unfold reserve
  refine wp_exec rfl (forall_result (fun _ => ?_) fun _ => nofun)
  refine wp_exec ⟨rfl, rfl⟩ (forall_result (fun _ => ?_) fun _ => nofun)
  by_cases hs : req.serverID = ""
  · simp [execUnless, hs]
    exact wp_insertForMigration e rfl rfl (absurd hs)
  · simp [execUnless, hs]
    refine wp_exec ⟨rfl, rfl, hs, rfl⟩ fun r => ?_
    match r with
    | .error e => exact nofun
    | .ok true => exact nofun
    | .ok false => exact wp_insertForMigration e rfl rfl fun _ => rfl

theorem wp_transaction {body : Action (Except Err α)} (hbody : wp (reserving t) body Inserts {}) :
    wp (reserving t) (transaction body) (fun _ m => m = {}) m := by
  unfold transaction
  refine ⟨trivial, forall_result fun _ _ => ?_⟩
  change wp (reserving t) (body >>= _) _ {}
  refine wp_seq (wp_mono (fun r m hr => ?_) hbody)
  cases r with
  | error => exact ⟨trivial, fun _ _ => rfl⟩
  | ok a =>
    refine ⟨hr a rfl, fun r _ => ?_⟩
    cases r with
    | error | ok => exact rfl

theorem wp_createPlacementReservation (id : String) (req : CreatePlacementReservationRequest) :
    wp (reserving (.create id req)) (createPlacementReservation id req) (fun _ m => m = {}) {} := by
  unfold createPlacementReservation
  split
  · exact rfl
  refine wp_seq (wp_settling ?_ fun r => ?_)
  · unfold expiry
    split
    · trivial
    · exact ⟨⟨_, rfl, rfl⟩, fun _ => trivial⟩
  cases r with
  | error => exact rfl
  | ok e =>
  refine wp_seq (wp_mono (fun r m hm => ?_) (wp_transaction (wp_reserve id req e)))
  cases r with
  | error => exact hm
  | ok => exact ⟨rfl, fun _ _ => hm⟩

theorem wp_program (t : ReservationTask) : wp (reserving t) t.program (fun _ _ => True) {} := by
  cases t with
  | create id req =>
    exact wp_seq (wp_mono (fun _ _ _ => trivial) (wp_createPlacementReservation id req))
  | updateStatus =>
    refine wp_settling (All.bind ⟨⟨_, rfl, rfl⟩, fun r => ?_⟩ fun _ => trivial) fun _ => trivial
    match r with
    | .error e => trivial
    | .ok 0 => trivial
    | .ok (n + 1) => exact ⟨⟨_, rfl, rfl⟩, fun _ => trivial⟩
  | updateForMigration | expire =>
    refine wp_settling (All.bind ⟨⟨_, rfl, rfl⟩, fun r => ?_⟩ fun _ => trivial) fun _ => trivial
    cases r with
    | error => trivial
    | ok ids => exact settling_getReservations ids

end

/-! ## What the calls do to the table

An update of a status changes only a row that is open, and a commit adds at most the row its transaction inserted. -/

def Closing (f : PlacementReservation → PlacementReservation) : Prop :=
  ∀ r, f r = r ∨ DB.openReservation r = true ∧ ∃ status, f r = { r with status := status }

def Settles (added : List PlacementReservation) (t t' : Tables) : Prop :=
  ∃ f, Closing f ∧ t' = { t with placementReservations := t.placementReservations.map f ++ added }

theorem Settles.refl (t : Tables) : Settles [] t t := ⟨id, fun _ => .inl rfl, by simp⟩

theorem Closing.comp {f g : PlacementReservation → PlacementReservation} (hf : Closing f) (hg : Closing g) :
    Closing (g ∘ f) := by
  intro r
  obtain hr | ⟨ho, st, hr⟩ := hf r
  · rw [Function.comp, hr]
    exact hg r
  · rw [Function.comp, hr]
    obtain hs | ⟨-, st', hs⟩ := hg { r with status := st }
    · exact .inr ⟨ho, st, hs⟩
    · exact .inr ⟨ho, st', hs⟩

theorem Settles.trans {added : List PlacementReservation} {t t' t'' : Tables} (h : Settles [] t t')
    (h' : Settles added t' t'') : Settles added t t'' := by
  obtain ⟨f, hf, rfl⟩ := h
  obtain ⟨g, hg, rfl⟩ := h'
  exact ⟨g ∘ f, hf.comp hg, by simp⟩

theorem settles_status (t : Tables) (id : String) (status : ReservationStatus) :
    Settles [] t (Change.apply t (.reservationStatus id status)) := by
  refine ⟨fun r => if decide (r.id = id) && DB.openReservation r then { r with status := status } else r, fun r => ?_, ?_⟩
  · by_cases h : (decide (r.id = id) && DB.openReservation r) = true
    · exact .inr ⟨(Bool.and_eq_true_iff.mp h).2, status, if_pos h⟩
    · exact .inl (if_neg h)
  · rw [List.append_nil]
    rfl

theorem settles_statuses (ids : List String) (status : ReservationStatus) (t : Tables) :
    Settles [] t (database.changed t (ids.map fun id => .reservationStatus id status)) := by
  induction ids generalizing t with
  | nil => exact Settles.refl t
  | cons id ids ih => exact (settles_status t id status).trans (ih _)

theorem settles_settling (hq : settling q = true) (s : Sight) : Settles [] s.db (database.changed s.db (run s q).2) := by
  cases q with
  | clock | getReservation => exact Settles.refl _
  | expireReservations | setMigrationReservations => exact settles_statuses _ _ _
  | setReservationStatus id status =>
    simp [run]
    split
    · exact settles_status s.db id status
    · exact Settles.refl _
  | _ => cases hq

def expiredIn (cs : List Change) : List String := cs.filterMap fun
  | .reservationStatus id _ => some id
  | _ => none

structure Begun (now : Nat) (t : ReservationTask) (x : Sql.Open Change RowLock) (m : Know) : Prop where
  start : x.start ≤ now
  changes : x.changes = (expiredIn x.changes).map (fun id => .reservationStatus id .expired) ++
    m.inserted.toList.map .newReservation
  node : ∀ n, m.node = some n → ⟨.node n, .update⟩ ∈ x.locks ∧ ∃ id req, t = .create id req ∧ n = req.nodeID
  server : ∀ i, m.freeServer = some i → i ≠ "" ∧ ∃ id req, t = .create id req ∧ i = req.serverID ∧ m.node = some req.nodeID
  migration : ∀ i, m.freeMigration = some i →
    i ≠ "" ∧ ∃ id req, t = .create id req ∧ i = req.migrationID ∧ m.node = some req.nodeID
  inserted : ∀ r, m.inserted = some r → ∃ id req e, t = .create id req ∧ r = req.row id e ∧ m.node = some req.nodeID ∧
    (req.serverID ≠ "" → m.freeServer = some req.serverID) ∧
    (req.migrationID ≠ "" → m.freeMigration = some req.migrationID)

section
variable {now : Nat} {x : Sql.Open Change RowLock}
variable {s : Sight}

theorem expiredIn_append (cs : List Change) (ids : List String) :
    expiredIn (cs ++ ids.map fun id => .reservationStatus id .expired) = expiredIn cs ++ ids := by
  simp only [expiredIn, List.filterMap_append, List.filterMap_map]
  congr 1
  exact (List.filterMap_congr fun _ _ => rfl).trans List.filterMap_some

theorem expiredIn_new (cs : List Change) (r : PlacementReservation) :
    expiredIn (cs ++ [.newReservation r]) = expiredIn cs := by
  simp [expiredIn]

theorem Begun.locked (h : Begun now (.create id req) x m) (ls : List RowLock) :
    Begun now (.create id req) ⟨x.start, x.changes ++ [], x.locks ++ ls⟩ m :=
  ⟨h.start, by simpa using h.changes, fun n hn => ⟨List.mem_append_left _ (h.node n hn).1, (h.node n hn).2⟩, h.server,
    h.migration, h.inserted⟩

inductive Learns (id : String) (req : CreatePlacementReservationRequest) (s : Sight) (m : Know) :
    Stmt → List Change → Know → Prop
  | nothing (q : Stmt) : Learns id req s m q [] m
  | expired (hi : m.inserted = none) :
    Learns id req s m .expireReservations ((expired s).map fun id => .reservationStatus id .expired) m
  | node (hm : m = {}) (hn : (s.db.node req.nodeID).isSome = true) :
    Learns id req s m (.lockNode req.nodeID) [] { m with node := some req.nodeID }
  | server (hn : m.node = some req.nodeID) (hne : req.serverID ≠ "") (hi : m.inserted = none)
      (hno : s.db.reserved s.now (fun r => r.serverID = req.serverID) = false) :
    Learns id req s m (.serverReserved req.serverID) [] { m with freeServer := some req.serverID }
  | migration (hn : m.node = some req.nodeID) (hne : req.migrationID ≠ "") (hi : m.inserted = none)
      (hno : s.db.reserved s.now (fun r => r.migrationID = req.migrationID) = false) :
    Learns id req s m (.migrationReserved req.migrationID) [] { m with freeMigration := some req.migrationID }
  | usage {n : String} {u : DB.NodeUsage} (hn : m.node = some n) (hi : m.inserted = none) (hu : s.db.nodeUsage n = .ok u) :
    Learns id req s m (.nodeUsage n) [] { m with usage := some u }
  | reserved {n : String} {v : Resource → Int} (hn : m.node = some n) (hi : m.inserted = none)
      (hv : s.db.activeReservedCapacity s.now n = .ok v) :
    Learns id req s m (.reservedCapacity n) [] { m with reserved := some v }
  | inserted {e : Nat} (hadm : m.admits id req (.insertReservation (req.row id e))) :
    Learns id req s m (.insertReservation (req.row id e)) [.newReservation (req.row id e)]
      { m with inserted := some (req.row id e) }

theorem learns (hadm : m.admits id req q) : Learns id req s m q (run s q).2 (m.next (.exec q) (run s q).1) := by
  cases q with
  | expireReservations => exact .expired hadm
  | lockNode =>
    obtain ⟨rfl, hm⟩ := hadm
    cases hn : s.db.node req.nodeID with
    | none => simp [run, hn]; exact .nothing _
    | some => simp [run, hn]; exact .node hm (by rw [hn]; rfl)
  | serverReserved =>
    obtain ⟨hn, rfl, hne, hi⟩ := hadm
    cases hno : s.db.reserved s.now fun r => r.serverID = req.serverID with
    | true => simp [run, hno]; exact .nothing _
    | false => simp [run, hno]; exact .server hn hne hi hno
  | migrationReserved =>
    obtain ⟨hn, rfl, hne, hi⟩ := hadm
    cases hno : s.db.reserved s.now fun r => r.migrationID = req.migrationID with
    | true => simp [run, hno]; exact .nothing _
    | false => simp [run, hno]; exact .migration hn hne hi hno
  | nodeUsage n =>
    cases hu : s.db.nodeUsage n with
    | error => simp [run, hu]; exact .nothing _
    | ok => simp [run, hu]; exact .usage hadm.1 hadm.2 hu
  | reservedCapacity n =>
    cases hv : s.db.activeReservedCapacity s.now n with
    | error => simp [run, hv]; exact .nothing _
    | ok => simp [run, hv]; exact .reserved hadm.1 hadm.2 hv
  | insertReservation =>
    obtain ⟨e, rfl⟩ := hadm.2.1
    cases hr : s.db.insertReservation (req.row id e) with
    | error => simp [run, hr]; exact .nothing _
    | ok => simp [run, hr]; exact .inserted hadm
  | _ => exact hadm.elim

theorem Begun.learn {cs : List Change} {m' : Know} (h : Begun now (.create id req) x m) (hl : Learns id req s m q cs m') :
    Begun now (.create id req) ⟨x.start, x.changes ++ cs, x.locks ++ locks s q⟩ m' := by
  have hsame := h.locked (locks s q)
  have hnone : m.inserted = none → x.changes = (expiredIn x.changes).map fun id => .reservationStatus id .expired := by
    intro hi
    simpa [hi] using h.changes
  cases hl with
  | nothing => exact hsame
  | expired hi =>
    refine ⟨h.start, ?_, hsame.node, h.server, h.migration, h.inserted⟩
    rw [expiredIn_append, hi, List.map_append, ← hnone hi]
    exact (List.append_nil _).symm
  | node hm hn =>
    subst hm
    refine ⟨h.start, hsame.changes, ?_, nofun, nofun, nofun⟩
    rintro _ ⟨⟩
    refine ⟨List.mem_append_right _ ?_, id, req, rfl, rfl⟩
    simp [locks, nodeLock, hn]
  | server hn hne hi =>
    refine ⟨h.start, hsame.changes, hsame.node, ?_, h.migration, fun r hr => absurd (hi.symm.trans hr) nofun⟩
    rintro _ ⟨⟩
    exact ⟨hne, id, req, rfl, rfl, hn⟩
  | migration hn hne hi =>
    refine ⟨h.start, hsame.changes, hsame.node, h.server, ?_, fun r hr => absurd (hi.symm.trans hr) nofun⟩
    rintro _ ⟨⟩
    exact ⟨hne, id, req, rfl, rfl, hn⟩
  | usage | reserved => exact ⟨h.start, hsame.changes, hsame.node, h.server, h.migration, h.inserted⟩
  | inserted hadm =>
    obtain ⟨hi, ⟨e, he⟩, hn, hs, hm, -⟩ := hadm
    refine ⟨h.start, ?_, hsame.node, h.server, h.migration, ?_⟩
    · rw [expiredIn_new, ← hnone hi]
      rfl
    · rintro _ ⟨⟩
      exact ⟨id, req, e, rfl, he, hn, hs, hm⟩

structure Base (now : Nat) (t : ReservationTask) (tx : Option (Sql.Open Change RowLock)) (m : Know) : Prop where
  idle : tx = none → m = {}
  begun : ∀ x, tx = some x → Begun now t x m

theorem Know.next_exec_error (q : Stmt) (e : Err) : m.next (.exec q) (.error e) = m := by
  cases q <;> rfl

theorem Begun.tick (h : Begun now t x m) (d : Nat) : Begun (now + d) t x m :=
  ⟨by have := h.start; omega, h.changes, h.node, h.server, h.migration, h.inserted⟩

theorem Begun.new (now : Nat) (t : ReservationTask) : Begun now t ⟨now, [], []⟩ {} where
  start := Nat.le_refl now
  changes := rfl
  node := nofun
  server := nofun
  migration := nofun
  inserted := nofun

variable {db db' : Tables} {others : List RowLock} {tx tx' : Option (Sql.Open Change RowLock)}
variable {c : Sql.Call Stmt} {o : Outcome} {r : Sql.Resp Stmt.Val c}

theorem Base.none (now : Nat) (t : ReservationTask) : Base now t none {} := ⟨fun _ => rfl, nofun⟩

theorem Base.call (h : Base now t tx m) (hadm : (reserving t).admits m c)
    (hans : database.answer now db others tx c o = some (r, db', tx')) : Base now t tx' ((reserving t).next m c r) := by
  cases c with
  | begin =>
    obtain ⟨-, ⟨-, rfl⟩ | ⟨-, rfl⟩⟩ := Sql.answer_begin hans
    · exact ⟨nofun, fun x hx => Option.some.inj hx ▸ Begun.new now t⟩
    · exact Base.none now t
  | exec q =>
    obtain ⟨-, ⟨⟨e, rfl⟩, rfl⟩ | ⟨x, rfl, -, rfl, rfl⟩⟩ := Sql.answer_exec hans
    · rw [show (reserving t).next m (.exec q) (.error e) = m from Know.next_exec_error q e]
      exact h
    · obtain ⟨id, req, rfl, hadm⟩ := hadm
      exact ⟨nofun, fun y hy => Option.some.inj hy ▸ (h.begun x rfl).learn (learns hadm)⟩
  | commit =>
    obtain ⟨rfl, -⟩ := Sql.answer_commit hans
    exact Base.none now t
  | rollback =>
    obtain ⟨-, rfl⟩ := Sql.answer_rollback hans
    exact Base.none now t
  | auto =>
    obtain ⟨rfl, -⟩ := Sql.answer_auto hans
    exact h

theorem Begun.settles (h : Begun now t x m) (db : Tables) :
    Settles m.inserted.toList db (database.changed db x.changes) := by
  rw [h.changes, Sql.changed_append]
  refine (settles_statuses (expiredIn x.changes) .expired db).trans ?_
  cases m.inserted with
  | none => exact Settles.refl _
  | some => exact ⟨id, fun _ => .inl rfl, by simp [Change.apply, database]⟩

theorem Base.settles (h : Base now t tx m) (hadm : (reserving t).admits m c)
    (hans : database.answer now db others tx c o = some (r, db', tx')) :
    Settles [] db db' ∨ ∃ new, c = .commit ∧ m.inserted = some new ∧ Settles [new] db db' := by
  cases c with
  | begin => exact .inl ((Sql.answer_begin hans).1 ▸ Settles.refl db)
  | exec => exact .inl ((Sql.answer_exec hans).1 ▸ Settles.refl db)
  | rollback => exact .inl ((Sql.answer_rollback hans).1 ▸ Settles.refl db)
  | commit =>
    obtain ⟨-, ⟨-, rfl⟩ | ⟨x, rfl, rfl⟩⟩ := Sql.answer_commit hans
    · exact .inl (Settles.refl _)
    · obtain ⟨new, hnew⟩ := Option.isSome_iff_exists.mp hadm
      have := (h.begun x rfl).settles db
      rw [hnew] at this
      exact .inr ⟨new, rfl, hnew, this⟩
  | auto =>
    obtain ⟨-, ⟨-, rfl⟩ | ⟨-, rfl, -⟩⟩ := Sql.answer_auto hans
    · exact .inl (Settles.refl _)
    · exact .inl (settles_settling hadm ⟨now, db, others⟩)

end

end ForgePlane.Postgres
