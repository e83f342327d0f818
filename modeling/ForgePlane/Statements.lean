import ForgePlane.Tx
import ForgePlane.Sessions

/-!
# The statements of the store, one by one

The statements on placement reservations, each with the rows it reads, changes and locks. `UPDATE`
takes the lock `FOR NO KEY UPDATE`, a deletion and a new key `FOR UPDATE`, and a foreign key `FOR
KEY SHARE` of the row it names.
-/

namespace ForgePlane

structure Tables extends DB

namespace Postgres

/-! ## Locks -/

inductive Target where
  | node (id : String)
  | server (id : String)
  | reservation (id : String)
  | migration (id : String)
  deriving DecidableEq, Repr

inductive Mode where
  | keyShare
  | noKeyUpdate
  | update
  deriving DecidableEq, Repr

structure RowLock where
  target : Target
  mode : Mode
  deriving DecidableEq, Repr

def Mode.clash : Mode → Mode → Bool
  | .keyShare, .update | .update, .keyShare => true
  | .keyShare, _ | _, .keyShare => false
  | _, _ => true

def RowLock.clash (a b : RowLock) : Bool := decide (a.target = b.target) && a.mode.clash b.mode

theorem Mode.clash_comm (a b : Mode) : a.clash b = b.clash a := by
  cases a <;> cases b <;> rfl

theorem RowLock.clash_comm (a b : RowLock) : a.clash b = b.clash a := by
  unfold RowLock.clash
  rw [Mode.clash_comm]
  congr 1
  exact decide_eq_decide.mpr eq_comm

/-! ## Changes -/

inductive Change where
  | reservationStatus (id : String) (status : ReservationStatus)
  | newReservation (r : PlacementReservation)

/-- Every update of a status has `status IN ('pending', 'active')` in its `WHERE`. -/
def Change.apply (t : Tables) : Change → Tables
  | .reservationStatus id status => { t with
      placementReservations := updateWhere (fun r => decide (r.id = id) && DB.openReservation r)
        (fun r => { r with status := status }) t.placementReservations }
  | .newReservation r => { t with placementReservations := t.placementReservations ++ [r] }

/-! ## Statements -/

inductive Stmt where
  -- the clock of the panel
  | clock
  | expireReservations
  | lockNode (id : String)
  | serverReserved (serverID : String)
  | migrationReserved (migrationID : String)
  | nodeUsage (id : String)
  | reservedCapacity (nodeID : String)
  | insertReservation (r : PlacementReservation)
  | getReservation (id : String)
  | setReservationStatus (id : String) (status : ReservationStatus)
  | setMigrationReservations (migrationID : String) (status : ReservationStatus)

abbrev Stmt.Val : Stmt → Type
  | .clock => Nat
  | .expireReservations | .setMigrationReservations .. => List String
  | .serverReserved _ | .migrationReserved _ => Bool
  | .nodeUsage _ => DB.NodeUsage
  | .reservedCapacity _ => Resource → Int
  | .getReservation _ => PlacementReservation
  | .setReservationStatus .. => Nat
  | _ => Unit

abbrev Sight := Sql.Sight Tables RowLock

section
variable (s : Sight)

def expired : List String :=
  (s.db.placementReservations.filter fun r => DB.openReservation r && decide (r.expiresAt ≤ s.now)).map (·.id)

def openOf (migrationID : String) : List String :=
  (s.db.placementReservations.filter fun r => decide (r.migrationID = migrationID) && DB.openReservation r).map (·.id)

def run : (q : Stmt) → Except Err q.Val × List Change
  | .clock => (.ok s.now, [])
  | .expireReservations => (.ok (expired s), (expired s).map fun id => .reservationStatus id .expired)
  | .lockNode id => (orNoRows ((s.db.node id).map fun _ => ()), [])
  | .serverReserved id => (.ok (s.db.reserved s.now fun r => r.serverID = id), [])
  | .migrationReserved id => (.ok (s.db.reserved s.now fun r => r.migrationID = id), [])
  | .nodeUsage id => (s.db.nodeUsage id, [])
  | .reservedCapacity id => (s.db.activeReservedCapacity s.now id, [])
  | .insertReservation r =>
    match s.db.insertReservation r with
    | .error e => (.error e, [])
    | .ok _ => (.ok (), [.newReservation r])
  | .getReservation id => (orNoRows (rowAt (·.id) s.db.placementReservations id), [])
  | .setReservationStatus id status =>
    if s.db.placementReservations.any (fun r => decide (r.id = id) && DB.openReservation r) then
      (.ok 1, [.reservationStatus id status])
    else (.ok 0, [])
  | .setMigrationReservations id status => (.ok (openOf s id), (openOf s id).map fun id => .reservationStatus id status)

def nodeLock (id : String) (m : Mode) : List RowLock := if (s.db.node id).isSome then [⟨.node id, m⟩] else []

def serverLock (id : String) (m : Mode) : List RowLock := if (s.db.server id).isSome then [⟨.server id, m⟩] else []

def migrationLock (id : String) (m : Mode) : List RowLock := if (s.db.migration id).isSome then [⟨.migration id, m⟩] else []

def locks : Stmt → List RowLock
  | .expireReservations => (expired s).map fun id => ⟨.reservation id, .noKeyUpdate⟩
  | .lockNode id => nodeLock s id .update
  | .insertReservation r => ⟨.reservation r.id, .update⟩ :: (nodeLock s r.nodeID .keyShare ++
      serverLock s r.serverID .keyShare ++ migrationLock s r.migrationID .keyShare)
  | .setReservationStatus id _ =>
    if s.db.placementReservations.any (fun r => decide (r.id = id) && DB.openReservation r) then
      [⟨.reservation id, .noKeyUpdate⟩]
    else []
  | .setMigrationReservations id _ => (openOf s id).map fun id => ⟨.reservation id, .noKeyUpdate⟩
  | _ => []

end

def database : Sql.Database Stmt.Val Tables Change RowLock where
  apply := Change.apply
  run := run
  locks := locks
  clash := RowLock.clash
  clash_comm := RowLock.clash_comm

/-! ## Programs -/

abbrev Action := Prog (Sql.Resp Stmt.Val)

def auto (q : Stmt) : Action (Except Err q.Val) := .call (.auto q) .ret

def exec (q : Stmt) : Action (Except Err q.Val) := .call (.exec q) .ret

/-- `defer tx.Rollback(ctx)`, with the commit last. -/
def transaction {α : Type} (body : Action (Except Err α)) : Action (Except Err α) := do
  match ← (.call .begin .ret : Action (Except Err Unit)) with
  | .error e => return .error e
  | .ok () =>
    match ← body with
    | .error e =>
      (.call .rollback .ret : Action Unit)
      return .error e
    | .ok a =>
      match ← (.call .commit .ret : Action (Except Err Unit)) with
      | .error e => return .error e
      | .ok () => return .ok a

end Postgres

end ForgePlane
