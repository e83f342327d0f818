import ForgePlane.Tx

/-!
# What a transaction can change

Each table has one inversion lemma: a statement leaves the row of a migration, of
its run or of a server as it was, or it is one of the listed writes. Invariants
of the database are derived from these and never unfold a statement again.
-/

namespace ForgePlane

variable {db db' : DB} {now : Nat} {id k : String}
variable {f : MigrationRun → MigrationRun} {t : Tx}

theorem commit_elim {Q : DB → Prop} {x : Except Err DB} (h0 : Q db) (h : ∀ db', x = .ok db' → Q db') :
    Q (commit db x).2 := by
  cases x with
  | ok db' => exact h db' rfl
  | error e => exact h0

/-! ## The commit of a migration -/

structure Committing (db : DB) (id : String) (m : MigrationRow) (a : String) : Prop where
  migration : db.migration id = some m
  run : ∃ r, db.run id = some r ∧ r.phase = .destinationCreated
  owner : ∃ s, db.server m.serverID = some s ∧ s.nodeID = m.sourceNodeID

theorem DB.finalizeMigration_cases (h : db.finalizeMigration id = .ok db') :
    (db' = db ∧ ∃ r, db.run id = some r ∧ r.phase = .completed) ∨
    ∃ m a, Committing db id m a ∧ db' = db.commitOwnership m a := by
  unfold DB.finalizeMigration at h
  split at h
  · rename_i m r hm hr
    split at h
    · cases h
    · rename_i a _
      by_cases hc : r.phase = .completed
      · rw [if_pos hc] at h
        exact .inl ⟨(Except.ok.inj h).symm, r, hr, hc⟩
      rw [if_neg hc] at h
      by_cases hd : r.phase = .destinationCreated
      · rw [if_neg (by simp [hd])] at h
        split at h
        · cases h
        · rename_i s hs
          by_cases ho : s.nodeID = m.sourceNodeID
          · rw [if_neg (by simp [ho])] at h
            split at h
            · cases h
            · exact .inr ⟨m, a, ⟨hm, ⟨r, hr, hd⟩, ⟨s, hs, ho⟩⟩, (Except.ok.inj h).symm⟩
          · rw [if_pos ho] at h; cases h
      · rw [if_pos hd] at h; cases h
  · cases h

/-! ## Every effect of a statement -/

def DB.SameRows (db db' : DB) : Prop :=
  db'.migrations = db.migrations ∧ db'.runs = db.runs ∧ db'.servers = db.servers ∧ db'.nodes = db.nodes

inductive Effect (now : Nat) (db : DB) : Tx → DB → Prop
  | rest (t : Tx) (db' : DB) : db.SameRows db' → Effect now db t db'
  | create (id : String) (req : CreateMigrationRequest) : db.migration id = none →
    Effect now db (.createMigration id req) { db with
      migrations := db.migrations ++ [⟨id, req.serverID, req.sourceNodeID, req.targetNodeID, .planned, ""⟩]
      history := db.history ++ [⟨id, none, .planned, "migration created"⟩] }
  | status (id : String) (st : MigrationStatus) (reason : String) (m : MigrationRow) : db.migration id = some m →
    Effect now db (.updateMigrationStatus id st reason) { db with
      migrations := updateWhere (fun m => m.id = id) (fun m => { m with
        status := st, failureReason := if st = .failed then reason else m.failureReason }) db.migrations
      history := db.history ++ [⟨id, some m.status, st, reason⟩] }
  | insertRun (id version key : String) (r : MigrationRun) (res : List AllocationReservation) :
    r.migrationID = id → r.phase = .planned → db.run id = none →
    Effect now db (.insertMigrationRun id version key) { db with
      runs := db.runs ++ [r], allocationReservations := res }
  | claim (id worker : String) (lease : Nat) (r : MigrationRun) : db.run id = some r →
    DB.claimable r worker now →
    Effect now db (.claimMigrationRun id worker lease) (db.updateRun id fun r => { r with
      leaseOwner := some worker, leaseExpiresAt := some (now + lease), attempt := r.attempt + 1 })
  | progress (id : String) (phase : RunPhase) (e : String) (size : Nat) (checksum : String) :
    Effect now db (.updateMigrationRun id phase e size checksum) (db.updateMigrationRun now id phase e size checksum)
  | hashes (id src dst : String) (expires : Nat) :
    Effect now db (.setMigrationCredentialHashes id src dst expires)
      (db.setMigrationCredentialHashes id src dst expires)
  | commit (id : String) (m : MigrationRow) (a : String) : Committing db id m a →
    Effect now db (.finalizeMigration id) (db.commitOwnership m a)
  | cleaned (id : String) : Effect now db (.markMigrationCleanupComplete id) (db.markMigrationCleanupComplete id)
  | cancelRun (id : String) : Effect now db (.cancelMigrationRun id) (db.cancelMigrationRun id)
  | failRun (id reason : String) : Effect now db (.failMigrationRun id reason) (db.failMigrationRun id reason)

theorem Effect.refl (now : Nat) (db : DB) (t : Tx) : Effect now db t db := .rest t db ⟨rfl, rfl, rfl, rfl⟩

theorem Tx.effect (now : Nat) (db : DB) (t : Tx) : Effect now db t (t.exec now db).2 := by
  cases t with
  | createMigration id req =>
    refine commit_elim (Effect.refl ..) fun db' h => ?_
    unfold DB.createMigration at h
    split at h
    · cases h
    split at h
    · cases h
    · cases h
      exact .create id req (by simp_all)
  | updateMigrationStatus id st reason =>
    refine commit_elim (Effect.refl ..) fun db' h => ?_
    unfold DB.updateMigrationStatus at h
    split at h
    · cases h
    · rename_i m hm
      cases h
      exact .status id st reason m hm
  | insertMigrationRun id version key =>
    refine commit_elim (Effect.refl ..) fun db' h => ?_
    unfold DB.insertMigrationRun at h
    split at h
    · cases h
    split at h
    · cases h
    split at h
    · cases h
    · cases h
      exact .insertRun id version key _ _ rfl rfl (by simp_all)
  | claimMigrationRun id worker lease =>
    refine commit_elim (Effect.refl ..) fun db' h => ?_
    unfold DB.claimMigrationRun at h
    split at h
    · cases h
    · rename_i r hr
      split at h
      · rename_i hc
        cases h
        exact .claim id worker lease r hr hc
      · cases h
  | finalizeMigration id =>
    refine commit_elim (Effect.refl ..) fun db' h => ?_
    obtain ⟨rfl, -⟩ | ⟨m, a, hc, rfl⟩ := DB.finalizeMigration_cases h
    · exact Effect.refl ..
    · exact .commit id m a hc
  | createPlacementReservation id req =>
    refine commit_elim (Effect.refl ..) fun db' h => ?_
    unfold DB.createPlacementReservation at h
    split at h
    · cases h
    simp only at h
    iterate 3
      split at h
      · cases h
    split at h
    · cases h
    split at h
    · cases h
    unfold DB.insertReservation at h
    iterate 3
      split at h
      · cases h
    cases h
    exact .rest _ _ ⟨rfl, rfl, rfl, rfl⟩
  | updatePlacementReservationStatus id st =>
    refine commit_elim (Effect.refl ..) fun db' h => ?_
    unfold DB.updatePlacementReservationStatus at h
    split at h
    · cases h; exact .rest _ _ ⟨rfl, rfl, rfl, rfl⟩
    · cases h
  | updateMigrationRun id phase e size checksum => exact .progress ..
  | setMigrationCredentialHashes id src dst expires => exact .hashes ..
  | markMigrationCleanupComplete id => exact .cleaned id
  | cancelMigrationRun id => exact .cancelRun id
  | failMigrationRun id reason => exact .failRun id reason
  | _ => exact .rest _ _ ⟨rfl, rfl, rfl, rfl⟩

theorem Effect.nodes (h : Effect now db t db') : db'.nodes = db.nodes := by
  cases h with
  | rest _ _ h => exact h.2.2.2
  | _ => rfl

/-! ## The rows of one migration -/

theorem DB.run_updateRun (db : DB) (i k : String) (hf : ∀ r, (f r).migrationID = r.migrationID) :
    (db.updateRun i f).run k = if k = i then (db.run k).map f else db.run k := rowAt_updateAt i f hf

theorem DB.migration_commitOwnership (db : DB) (m : MigrationRow) (a k : String) :
    (db.commitOwnership m a).migration k =
      if k = m.id then (db.migration k).map fun x => { x with status := .completed, failureReason := "" }
      else db.migration k := rowAt_updateAt m.id _ fun _ => rfl

theorem DB.run_commitOwnership (db : DB) (m : MigrationRow) (a k : String) :
    (db.commitOwnership m a).run k =
      if k = m.id then (db.run k).map fun r => { r with
        phase := .completed, cleanupPending := true, leaseOwner := none, leaseExpiresAt := none }
      else db.run k := rowAt_updateAt m.id _ fun _ => rfl

theorem DB.server_commitOwnership (db : DB) (m : MigrationRow) (a k : String) :
    (db.commitOwnership m a).server k =
      if k = m.serverID then (db.server k).map fun s => { s with
        nodeID := m.targetNodeID, primaryAllocationID := some a, transferring := false, transferState := .completed
        configSyncPending := false }
      else db.server k := rowAt_updateAt m.serverID _ fun _ => rfl

theorem DB.run_endRun (db : DB) (i k : String) (phase : RunPhase) (hf : ∀ r, (f r).migrationID = r.migrationID) :
    (db.endRun i phase f).run k = (db.run k).map fun r =>
      if decide (r.migrationID = i) && decide (r.phase ≠ .completed) then
        { f r with phase := phase, cleanupPending := false, leaseOwner := none, leaseExpiresAt := none }
      else r := rowAt_updateWhere _ _ hf

theorem DB.run_cleaned (db : DB) (i k : String) : (db.markMigrationCleanupComplete i).run k = (db.run k).map fun r =>
    if decide (r.migrationID = i) && decide (r.phase = .completed) then { r with cleanupPending := false } else r :=
  rowAt_updateWhere _ _ fun _ => rfl

inductive MigrationWrite (db : DB) (id : String) : Tx → MigrationRow → MigrationRow → Prop
  | status (st : MigrationStatus) (reason : String) (m : MigrationRow) :
    MigrationWrite db id (.updateMigrationStatus id st reason) m
      { m with status := st, failureReason := if st = .failed then reason else m.failureReason }
  | commit (m : MigrationRow) (a : String) : Committing db id m a →
    MigrationWrite db id (.finalizeMigration id) m { m with status := .completed, failureReason := "" }

theorem Effect.migration (h : Effect now db t db') {m : MigrationRow} (hm : db.migration id = some m) :
    db'.migration id = some m ∨ ∃ m', MigrationWrite db id t m m' ∧ db'.migration id = some m' := by
  cases h with
  | rest _ _ h => exact .inl (by rw [DB.migration, h.1]; exact hm)
  | create i req hn =>
    left
    simp [DB.migration, rowAt_append] at hm ⊢
    simp [hm]
  | status i st reason m' _ =>
    simp [DB.migration] at hm ⊢
    rw [rowAt_updateAt i _ fun _ => by rfl]
    by_cases hi : id = i
    · subst hi
      exact .inr ⟨_, .status st reason m, by rw [if_pos rfl, hm]; rfl⟩
    · exact .inl (by rw [if_neg hi, hm])
  | commit i m' a hc =>
    have hk : m'.id = i := rowAt_key hc.migration
    rw [DB.migration_commitOwnership]
    by_cases hi : id = i
    · subst hi
      obtain rfl : m' = m := Option.some.inj (hc.migration.symm.trans hm)
      exact .inr ⟨_, .commit m' a hc, by rw [if_pos hk.symm, hm]; rfl⟩
    · exact .inl (by rw [if_neg (hk ▸ hi), hm])
  | _ => exact .inl hm

inductive RunWrite (now : Nat) (id : String) : Tx → MigrationRun → MigrationRun → Prop
  | claim (worker : String) (lease : Nat) (r : MigrationRun) : DB.claimable r worker now →
    RunWrite now id (.claimMigrationRun id worker lease) r { r with
      leaseOwner := some worker, leaseExpiresAt := some (now + lease), attempt := r.attempt + 1 }
  | progress (phase : RunPhase) (e : String) (size : Nat) (checksum : String) (r : MigrationRun) :
    RunWrite now id (.updateMigrationRun id phase e size checksum) r { r with
      phase := phase, lastError := e
      archiveSize := if 0 < size then size else r.archiveSize
      archiveChecksum := if checksum ≠ "" then checksum else r.archiveChecksum
      leaseExpiresAt := some (now + DB.leaseSeconds) }
  | hashes (src dst : String) (expires : Nat) (r : MigrationRun) :
    RunWrite now id (.setMigrationCredentialHashes id src dst expires) r { r with
      sourceCredentialHash := src, destinationCredentialHash := dst, credentialExpiresAt := some expires }
  | commit (r : MigrationRun) : r.phase = .destinationCreated →
    RunWrite now id (.finalizeMigration id) r { r with
      phase := .completed, cleanupPending := true, leaseOwner := none, leaseExpiresAt := none }
  | cleaned (r : MigrationRun) : r.phase = .completed →
    RunWrite now id (.markMigrationCleanupComplete id) r { r with cleanupPending := false }
  | cancel (r : MigrationRun) : r.phase ≠ .completed →
    RunWrite now id (.cancelMigrationRun id) r { r with
      phase := .cancelled, cleanupPending := false, leaseOwner := none, leaseExpiresAt := none }
  | fail (reason : String) (r : MigrationRun) : r.phase ≠ .completed →
    RunWrite now id (.failMigrationRun id reason) r { r with
      lastError := reason, phase := .failed, cleanupPending := false, leaseOwner := none, leaseExpiresAt := none }

theorem Effect.run (h : Effect now db t db') {r : MigrationRun} (hr : db.run id = some r) :
    db'.run id = some r ∨ ∃ r', RunWrite now id t r r' ∧ db'.run id = some r' := by
  have hkey : r.migrationID = id := rowAt_key hr
  cases h with
  | rest _ _ h => exact .inl (by rw [DB.run, h.2.1]; exact hr)
  | insertRun i version key r' res _ _ _ =>
    left
    simp [DB.run, rowAt_append] at hr ⊢
    simp [hr]
  | claim i worker lease r' hr' hc =>
    rw [DB.run_updateRun db i id fun _ => by rfl]
    by_cases hi : id = i
    · subst hi
      obtain rfl : r' = r := Option.some.inj (hr'.symm.trans hr)
      exact .inr ⟨_, .claim worker lease r' hc, by rw [if_pos rfl, hr]; rfl⟩
    · exact .inl (by rw [if_neg hi, hr])
  | progress i phase e size checksum =>
    rw [DB.updateMigrationRun, DB.run_updateRun db i id fun _ => by rfl]
    by_cases hi : id = i
    · subst hi
      exact .inr ⟨_, .progress phase e size checksum r, by rw [if_pos rfl, hr]; rfl⟩
    · exact .inl (by rw [if_neg hi, hr])
  | hashes i src dst expires =>
    rw [DB.setMigrationCredentialHashes, DB.run_updateRun db i id fun _ => by rfl]
    by_cases hi : id = i
    · subst hi
      exact .inr ⟨_, .hashes src dst expires r, by rw [if_pos rfl, hr]; rfl⟩
    · exact .inl (by rw [if_neg hi, hr])
  | commit i m a hc =>
    have hk : m.id = i := rowAt_key hc.migration
    rw [DB.run_commitOwnership]
    by_cases hi : id = i
    · subst hi
      obtain ⟨r', hr', hp⟩ := hc.run
      obtain rfl : r' = r := Option.some.inj (hr'.symm.trans hr)
      exact .inr ⟨_, .commit r' hp, by rw [if_pos hk.symm, hr]; rfl⟩
    · exact .inl (by rw [if_neg (hk ▸ hi), hr])
  | cleaned i =>
    rw [DB.run_cleaned, hr, Option.map_some]
    by_cases hi : id = i
    · by_cases hp : r.phase = .completed
      · subst hi
        exact .inr ⟨_, .cleaned r hp, by simp [hkey, hp]⟩
      · exact .inl (by simp [hp])
    · exact .inl (by simp [hkey, hi])
  | cancelRun i =>
    rw [DB.cancelMigrationRun, DB.run_endRun db i id _ fun _ => by rfl, hr, Option.map_some]
    by_cases hi : id = i
    · by_cases hp : r.phase = .completed
      · exact .inl (by simp [hp])
      · subst hi
        exact .inr ⟨_, .cancel r hp, by simp [hkey, hp]⟩
    · exact .inl (by simp [hkey, hi])
  | failRun i reason =>
    rw [DB.failMigrationRun, DB.run_endRun db i id _ fun _ => by rfl, hr, Option.map_some]
    by_cases hi : id = i
    · by_cases hp : r.phase = .completed
      · exact .inl (by simp [hp])
      · subst hi
        exact .inr ⟨_, .fail reason r hp, by simp [hkey, hp]⟩
    · exact .inl (by simp [hkey, hi])
  | _ => exact .inl hr

theorem Effect.server (h : Effect now db t db') {s : ServerRow} (hs : db.server k = some s) :
    db'.server k = some s ∨ ∃ id m a, t = .finalizeMigration id ∧ Committing db id m a ∧ m.serverID = k ∧
      db'.server k = some { s with
        nodeID := m.targetNodeID, primaryAllocationID := some a, transferring := false, transferState := .completed
        configSyncPending := false } := by
  cases h with
  | rest _ _ h => exact .inl (by rw [DB.server, h.2.2.1]; exact hs)
  | commit i m a hc =>
    rw [DB.server_commitOwnership]
    by_cases hk : k = m.serverID
    · exact .inr ⟨i, m, a, rfl, hc, hk.symm, by rw [if_pos hk, hs]; rfl⟩
    · exact .inl (by rw [if_neg hk, hs])
  | _ => exact .inl hs

end ForgePlane
