import ForgePlane.Panel

/-!
# The guard of the server handlers

The handlers for power, files and backups ask `ensureTransferIdle`, which reads the column `transfer_state` of
the server. A migration writes that column once, at its commit.
-/

namespace ForgePlane

namespace DB

def isServerTransferBlocking (db : DB) (serverID : String) : Except Err Bool :=
  match db.server serverID with
  | none => .error "server not found"
  | some s => .ok (s.transferState = .queued || s.transferState = .running)

def updateServerTransferState (db : DB) (serverID : String) (state : ServerTransferState) : DB :=
  { db with servers := updateWhere (fun s => s.id = serverID) (fun s => { s with
      transferState := state, transferring := state = .queued || state = .running }) db.servers }

end DB

def ensureTransferIdle (db : DB) (serverID : String) : Except (Nat × String) Unit :=
  match db.isServerTransferBlocking serverID with
  | .error _ => .error (404, "server not found")
  | .ok true => .error (409, "server transfer in progress")
  | .ok false => .ok ()

theorem ensureTransferIdle_conflict (db : DB) (serverID : String) :
    ensureTransferIdle db serverID = .error (409, "server transfer in progress") ↔
      db.isServerTransferBlocking serverID = .ok true := by
  unfold ensureTransferIdle
  cases db.isServerTransferBlocking serverID with
  | error => simp
  | ok b => cases b <;> simp

theorem isServerTransferBlocking_update (db : DB) (v : String) (state : ServerTransferState) {s : ServerRow}
    (hs : db.server v = some s) :
    (db.updateServerTransferState v state).isServerTransferBlocking v = .ok (state = .queued || state = .running) := by
  have hrow : (db.updateServerTransferState v state).server v = (db.server v).map fun s => { s with
      transferState := state, transferring := state = .queued || state = .running } := by
    unfold DB.updateServerTransferState DB.server
    rw [rowAt_updateAt v _ fun _ => by rfl, if_pos rfl]
  simp [DB.isServerTransferBlocking, hrow, hs]

def commits (v : String) (db : DB) : Tx → Bool
  | .finalizeMigration id => (db.migration id).any fun m => m.serverID = v
  | _ => false

theorem Effect.blocking {now : Nat} {db db' : DB} {t : Tx} {v : String} (h : Effect now db t db')
    (ht : commits v db t = false) : db'.isServerTransferBlocking v = db.isServerTransferBlocking v := by
  have hsame : db'.server v = db.server v → db'.isServerTransferBlocking v = db.isServerTransferBlocking v := by
    intro he
    unfold DB.isServerTransferBlocking
    rw [he]
  apply hsame
  cases h with
  | rest _ _ hrest => rw [DB.server, hrest.2.2.1, DB.server]
  | commit id m a hc =>
    have hother : m.serverID ≠ v := by simpa [commits, hc.migration] using ht
    rw [DB.server_commitOwnership, if_neg (Ne.symm hother)]
  | _ => rfl

def beforeCommit {D : Type} (v : String) (s : Config Resp Task (World D)) (l : Label Task) : Bool :=
  (s.statement l).all fun t => !commits v s.world.db t

/-- Short of a commit of one of its migrations, requests for server `v` are refused exactly when its column already
said queued or running. -/
theorem transfer_refused_iff {D : Type} {H : Sha256} {P : Platform D} {v : String}
    {s₀ s₁ : Config Resp Task (World D)} {ls : List (Label Task)}
    (h : Run (panel H P).next (fun s l => beforeCommit v s l = true) s₀ ls s₁) :
    ensureTransferIdle s₁.world.db v = .error (409, "server transfer in progress") ↔
      s₀.world.db.isServerTransferBlocking v = .ok true := by
  rw [ensureTransferIdle_conflict]
  have hkept : s₁.world.db.isServerTransferBlocking v = s₀.world.db.isServerTransferBlocking v := by
    refine panel_invariant (I := fun db => db.isServerTransferBlocking v = s₀.world.db.isServerTransferBlocking v)
      ?_ rfl h
    intro s l t db' hI ha hs he
    have ht : commits v s.world.db t = false := by simpa [beforeCommit, hs] using ha
    rw [he.blocking ht]
    exact hI
  rw [hkept]

def sourcePrepared : List (Label Task) := [.start (.run "w" "m")] ++ answered 0 24

def marked : Config Resp Task (World Unit) :=
  ⟨{ moving.world with db := movingDB.updateServerTransferState "s" .running }, []⟩

theorem transfer_refused_iff_marked : ∃ s : Config Resp Task (World Unit),
    Run (panel zeroSha obliging).next (fun s l => beforeCommit "s" s l = true) marked sourcePrepared s ∧
    s.world.db.status "m" = some .transferring ∧
    ensureTransferIdle s.world.db "s" = .error (409, "server transfer in progress") := exists_run_and (by decide +kernel) fun _ hr _ =>
    (transfer_refused_iff hr).mpr (isServerTransferBlocking_update movingDB "s" .running rfl)

theorem copying_server_not_refused : ∃ s : Config Resp Task (World Unit),
    Run (panel zeroSha obliging).next (fun _ _ => True) moving sourcePrepared s ∧
    s.world.db.status "m" = some .transferring ∧ s.world.db.phase "m" = some .sourceArchived ∧
    ensureTransferIdle s.world.db "s" = .ok () := by decide +kernel

end ForgePlane
