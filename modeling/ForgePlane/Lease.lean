import ForgePlane.Panel

/-!
# Leases of migration runs

`ClaimMigrationRun` gives a worker a lease, but no later statement of the worker names it: they are keyed by
the migration alone.
-/

namespace ForgePlane

open DB

/-! ## The columns a lease protects -/

structure LeasedColumns where
  phase : RunPhase
  archiveSize : Nat
  archiveChecksum : String
  leaseExpiresAt : Option Nat
  sourceCredentialHash : String
  destinationCredentialHash : String
  deriving DecidableEq, Repr

def MigrationRun.leased (r : MigrationRun) : LeasedColumns :=
  ⟨r.phase, r.archiveSize, r.archiveChecksum, r.leaseExpiresAt, r.sourceCredentialHash, r.destinationCredentialHash⟩

def DB.leased (db : DB) (id : String) : Option LeasedColumns × Option MigrationStatus :=
  ((db.run id).map MigrationRun.leased, db.status id)

def Tx.writesLeased (id : String) : Tx → Bool
  | .createMigration i _ | .updateMigrationStatus i _ _ | .insertMigrationRun i _ _ | .claimMigrationRun i _ _
  | .updateMigrationRun i _ _ _ _ | .setMigrationCredentialHashes i _ _ _ | .finalizeMigration i
  | .cancelMigrationRun i | .failMigrationRun i _ => i = id
  | _ => false

def Fenced (id : String) : Call → Prop
  | .tx t => t.writesLeased id = false
  | _ => True

section
variable {now : Nat} {db db' : DB} {id : String} {t : Tx}
variable {f : MigrationRun → MigrationRun} {i : String}

theorem DB.leased_of_run (hr : db'.run id = db.run id) (hm : db'.migrations = db.migrations) :
    db'.leased id = db.leased id := by
  simp [leased, status, migration, hr, hm]

theorem DB.run_updateRun_other (hi : i ≠ id)
    (hf : ∀ r, (f r).migrationID = r.migrationID) : (db.updateRun i f).run id = db.run id := by
  rw [run_updateRun db i id hf, if_neg (Ne.symm hi)]

theorem DB.run_endRun_other {phase : RunPhase} (hi : i ≠ id)
    (hf : ∀ r, (f r).migrationID = r.migrationID) : (db.endRun i phase f).run id = db.run id := by
  rw [run_endRun db i id phase hf]
  cases hr : db.run id with
  | none => rfl
  | some r =>
    have hkey : r.migrationID = id := rowAt_key hr
    simp [hkey, Ne.symm hi]

theorem Effect.leased (h : Effect now db t db') (hw : t.writesLeased id = false) : db'.leased id = db.leased id := by
  cases h with
  | rest _ _ hrest => exact DB.leased_of_run (by rw [DB.run, hrest.2.1]; rfl) hrest.1
  | create i =>
    have hi : i ≠ id := of_decide_eq_false hw
    simp [DB.leased, DB.status, DB.run, DB.migration, rowAt_append, hi]
  | status i =>
    have hi : i ≠ id := of_decide_eq_false hw
    simp [DB.leased, DB.status, DB.run, DB.migration]
    rw [rowAt_updateAt i _ fun _ => by rfl, if_neg (Ne.symm hi)]
  | insertRun i version key r res hkey =>
    have hi : i ≠ id := of_decide_eq_false hw
    exact DB.leased_of_run (by simp [DB.run, rowAt_append, hkey, hi]) rfl
  | claim | hashes => exact DB.leased_of_run (DB.run_updateRun_other (of_decide_eq_false hw) fun _ => rfl) rfl
  | progress =>
    exact DB.leased_of_run (DB.run_updateRun_other (of_decide_eq_false hw) fun _ => rfl) rfl
  | commit i m a hc =>
    have hi : i ≠ id := of_decide_eq_false hw
    have hm : id ≠ m.id := by rw [rowAt_key hc.migration]; exact Ne.symm hi
    simp [DB.leased, DB.status, DB.migration_commitOwnership, DB.run_commitOwnership, hm]
  | cleaned i =>
    -- `cleanup_pending` is the only column written
    have hcols : ((db.markMigrationCleanupComplete i).run id).map MigrationRun.leased =
        (db.run id).map MigrationRun.leased := by
      rw [DB.run_cleaned, Option.map_map]
      congr 1
      funext r
      simp [Function.comp]
      split <;> rfl
    exact Prod.ext hcols rfl
  | cancelRun | failRun => exact DB.leased_of_run (DB.run_endRun_other (of_decide_eq_false hw) fun _ => rfl) rfl

end

/-! ## Takeovers -/

section
variable {D : Type} {H : Sha256} {P : Platform D} {id : String} {s₁ s₂ s₃ s₄ : Config Resp Task (World D)}

end

end ForgePlane
