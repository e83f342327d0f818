import ForgePlane.Panel
import Mathlib.Data.List.Chain

/-!
# The end of a migration and its history

Both functions lock the row of the migration first, so that their transactions come one after
the other. `UpdateMigrationStatus` records the status it has read, `FinalizeMigration` always the
same one.
-/

namespace ForgePlane

open DB

variable {db db' : DB} {id a reason : String}

/-! ## All or nothing -/

structure DB.Finalized (db db' : DB) (m : MigrationRow) (a : String) : Prop where
  server : ∃ s, db'.server m.serverID = some s ∧ s.nodeID = m.targetNodeID ∧ s.primaryAllocationID = some a
  assigned : ∃ x ∈ db'.allocations, x.id = a ∧ x.nodeID = m.targetNodeID ∧ x.serverID = some m.serverID
  released : ∀ x ∈ db'.allocations, x.nodeID = m.sourceNodeID → x.serverID ≠ some m.serverID
  completed : db'.status m.id = some .completed ∧
    ∃ r, db'.run m.id = some r ∧ r.phase = .completed ∧ r.cleanupPending = true
  servers : (db'.servers.filter fun s => s.id ≠ m.serverID) = db.servers.filter fun s => s.id ≠ m.serverID
  allocations : (db'.allocations.filter fun x => x.serverID.any (· ≠ m.serverID)) =
    db.allocations.filter fun x => x.serverID.any (· ≠ m.serverID)
  migrations : (db'.migrations.filter fun x => x.id ≠ m.id) = db.migrations.filter fun x => x.id ≠ m.id
  runs : (db'.runs.filter fun r => r.migrationID ≠ m.id) = db.runs.filter fun r => r.migrationID ≠ m.id
  reservations : (db'.allocationReservations.filter fun r => r.migrationID ≠ m.id) =
    db.allocationReservations.filter fun r => r.migrationID ≠ m.id
  rest : db'.nodes = db.nodes ∧ db'.placementReservations = db.placementReservations ∧
    db'.recoveryPlans = db.recoveryPlans ∧ db'.recoveryItems = db.recoveryItems

theorem DB.finalizeMigration_commits (hphase : db.phase id = some .destinationCreated) (h : db.finalizeMigration id = .ok db') :
    ∃ m r a, db.migration id = some m ∧ db.run id = some r ∧ r.targetAllocationID = some a ∧
      db' = db.commitOwnership m a ∧ (∃ s, db.server m.serverID = some s) ∧
      ∃ x ∈ db.allocations, x.id = a ∧ x.nodeID = m.targetNodeID ∧ x.serverID = none := by
  obtain ⟨r, hr, hp⟩ := Option.map_eq_some_iff.mp hphase
  unfold finalizeMigration at h
  rw [hr] at h
  cases hm : db.migration id with
  | none => rw [hm] at h; cases h
  | some m =>
    simp only [hm, hp] at h
    split at h
    · cases h
    rename_i a ha
    rw [if_neg (by simp), if_neg (by simp)] at h
    split at h
    · cases h
    rename_i s hs
    split at h
    · cases h
    split at h
    · cases h
    rename_i hfree
    have hpos : 0 < db.allocations.countP fun x => decide (x.id = a) && decide (x.nodeID = m.targetNodeID) && x.serverID.isNone := by
      rw [not_not.mp hfree]; exact Nat.one_pos
    obtain ⟨x, hx, hfree⟩ := List.countP_pos_iff.mp hpos
    simp at hfree
    exact ⟨m, r, a, rfl, hr, ha, (Except.ok.inj h).symm, ⟨s, hs⟩, x, hx, hfree.1.1, hfree.1.2, hfree.2⟩

theorem DB.finalized_iff {m : MigrationRow} (hm : db.migration m.id = some m) (hr : (db.run m.id).isSome)
    (hs : ∃ s, db.server m.serverID = some s)
    (hx : ∃ x ∈ db.allocations, x.id = a ∧ x.nodeID = m.targetNodeID ∧ x.serverID = none) :
    db.Finalized (db.commitOwnership m a) m a ↔ m.sourceNodeID ≠ m.targetNodeID := by
  constructor
  · intro h heq
    obtain ⟨x, hx, -, hnode, hserver⟩ := h.assigned
    exact h.released x hx (heq ▸ hnode) hserver
  intro hne
  obtain ⟨s, hs⟩ := hs
  obtain ⟨r, hr⟩ := Option.isSome_iff_exists.mp hr
  refine ⟨?_, ?_, ?_, ?_, ?_, ?_, ?_, ?_, ?_, rfl, rfl, rfl, rfl⟩
  · rw [server_commitOwnership, if_pos rfl, hs]
    exact ⟨_, rfl, rfl, rfl⟩
  · obtain ⟨x, hx, hid, hnode, hfree⟩ := hx
    refine ⟨{ x with serverID := some m.serverID }, mem_updateWhere.mpr ⟨_, mem_updateWhere.mpr ⟨x, hx, rfl⟩, ?_⟩, hid, hnode, rfl⟩
    simp [hid, hnode, hfree, Ne.symm hne]
  · intro x hx hnode
    obtain ⟨y, -, rfl⟩ := mem_updateWhere.mp hx
    split at hnode <;> rename_i hy <;> simp_all
  · rw [status, migration_commitOwnership, if_pos rfl, hm, run_commitOwnership, if_pos rfl, hr]
    exact ⟨rfl, _, rfl, rfl, rfl⟩
  · exact filter_updateWhere (by simp)
  · exact (filter_updateWhere (by simp +contextual)).trans (filter_updateWhere (by simp +contextual))
  · exact filter_updateWhere (by simp)
  · exact filter_updateWhere (by simp)
  · simp [commitOwnership, deleteWhere, List.filter_filter]

/-- The two nodes of a migration being different, to finalise it is all or nothing, and once. -/
theorem finalize_all_or_nothing (db : DB) (id : String) :
    (∀ db', db.phase id = some .destinationCreated → db.finalizeMigration id = .ok db' →
      ∃ m r a, db.migration id = some m ∧ db.run id = some r ∧ r.targetAllocationID = some a ∧
        (db.Finalized db' m a ↔ m.sourceNodeID ≠ m.targetNodeID)) ∧
    (∀ now e, ((Tx.finalizeMigration id).exec now db).1 = .error e → ((Tx.finalizeMigration id).exec now db).2 = db) ∧
    ∀ db', db.finalizeMigration id = .ok db' → db'.finalizeMigration id = .ok db' := by
  refine ⟨fun db' hphase h => ?_, fun now e he => ?_, fun db' h => ?_⟩
  · obtain ⟨m, r, a, hm, hr, ha, rfl, hs, hx⟩ := DB.finalizeMigration_commits hphase h
    obtain rfl : m.id = id := rowAt_key hm
    exact ⟨m, r, a, hm, hr, ha, DB.finalized_iff hm (by rw [hr]; rfl) hs hx⟩
  · simp [Tx.exec] at he ⊢
    cases hf : db.finalizeMigration id with
    | ok => rw [hf] at he; cases he
    | error => rfl
  · obtain ⟨rfl, -⟩ | ⟨m, a, hc, rfl⟩ := DB.finalizeMigration_cases h
    · exact h
    obtain ⟨r, hr, hp⟩ := hc.run
    obtain ⟨m', r', a', hm', hr', ha', -⟩ := DB.finalizeMigration_commits (by rw [DB.phase, hr, Option.map_some, hp]) h
    obtain rfl : m.id = id := rowAt_key hc.migration
    rw [DB.finalizeMigration, DB.migration_commitOwnership, DB.run_commitOwnership, if_pos rfl, if_pos rfl, hc.migration, hr']
    simp [ha']

def createdDB (target : String) : DB :=
  { movingDB with
    migrations := [{ id := "m", serverID := "s", sourceNodeID := "a", targetNodeID := target, status := .preparing }]
    allocations := [{ id := "p", nodeID := "a", serverID := some "s" }, { id := "q", nodeID := target }]
    runs := [{ migrationID := "m", idempotencyKey := "k", targetAllocationID := some "q", phase := .destinationCreated }]
    history := [⟨"m", none, .planned, "migration created"⟩, ⟨"m", some .planned, .preparing, ""⟩] }

theorem finalize_all_or_nothing_moved : ∃ db' m a, (createdDB "b").finalizeMigration "m" = .ok db' ∧
    (createdDB "b").Finalized db' m a ∧ db'.finalizeMigration "m" = .ok db' := by
  cases h : (createdDB "b").finalizeMigration "m" with
  | error => exact absurd h (by simp [DB.finalizeMigration, createdDB, movingDB, DB.migration, DB.run, DB.server, rowAt])
  | ok db' =>
    obtain ⟨hdone, -, hagain⟩ := finalize_all_or_nothing (createdDB "b") "m"
    obtain ⟨m, r, a, hm, -, -, hiff⟩ := hdone db' rfl h
    cases hm
    exact ⟨db', _, a, rfl, hiff.mpr (by decide), hagain db' h⟩

theorem finalize_releases_target : ∃ db', ((createdDB "a").finalizeMigration "m").toOption = some db' ∧
    (db'.server "s").map (·.primaryAllocationID) = some (some "q") ∧ ∀ x ∈ db'.allocations, x.serverID = none := by
  decide +kernel

/-! ## The history -/

def DB.HistoryChain (db : DB) (id : String) : Prop :=
  (db.listMigrationHistory id).IsChain (fun a b => b.fromStatus = some a.toStatus) ∧
    (db.listMigrationHistory id).getLast?.map (·.toStatus) = db.status id

variable (h : db.HistoryChain id)
include h

theorem DB.HistoryChain.record {row : MigrationHistory} (hid : row.migrationID = id)
    (hhistory : db'.history = db.history ++ [row]) (hstatus : db'.status id = some row.toStatus) (hopen : (db.status id).isSome) :
    db'.HistoryChain id ↔ row.fromStatus = db.status id := by
  have hrows : db'.listMigrationHistory id = db.listMigrationHistory id ++ [row] := by
    simp [listMigrationHistory, hhistory, List.filter_append, hid]
  rw [DB.HistoryChain, hrows, List.isChain_append, hstatus, ← h.2]
  cases hlast : (db.listMigrationHistory id).getLast? with
  | none => rw [← h.2, hlast] at hopen; cases hopen
  | some => simp [h.1]

theorem DB.HistoryChain.updateMigrationStatus {status : MigrationStatus}
    (hu : db.updateMigrationStatus id status reason = .ok db') : db'.HistoryChain id := by
  unfold DB.updateMigrationStatus at hu
  cases hm : db.migration id with
  | none => rw [hm] at hu; cases hu
  | some m =>
    rw [hm] at hu
    have hs : db.status id = some m.status := by rw [DB.status, hm]; rfl
    cases hu
    refine (h.record rfl rfl ?_ (by rw [hs]; rfl)).mpr hs.symm
    simp only [DB.migration] at hm
    simp only [DB.status, DB.migration]
    rw [rowAt_updateAt id _ fun _ => by rfl, if_pos rfl, hm]
    rfl

theorem DB.HistoryChain.finalizeMigration (hf : db.finalizeMigration id = .ok db') :
    db' = db ∨ db.phase id = some .destinationCreated ∧ (db'.HistoryChain id ↔ db.status id = some .restoring) := by
  obtain ⟨rfl, -⟩ | ⟨m, a, hc, rfl⟩ := finalizeMigration_cases hf
  · exact .inl rfl
  obtain ⟨r, hr, hp⟩ := hc.run
  have hs : db.status id = some m.status := by rw [status, hc.migration]; rfl
  obtain rfl : m.id = id := rowAt_key hc.migration
  refine .inr ⟨by rw [phase, hr, Option.map_some, hp], (h.record rfl rfl ?_ (by rw [hs]; rfl)).trans eq_comm⟩
  rw [status, migration_commitOwnership, if_pos rfl, hc.migration]
  rfl

omit h

def transact (db : DB) (l : Nat × Tx) : Option DB := some (l.2.exec l.1 db).2

def onMigration (id : String) (t : Tx) : Prop :=
  t = .finalizeMigration id ∨ ∃ status reason, t = .updateMigrationStatus id status reason

def findsRestoring (id : String) (db : DB) (t : Tx) : Prop :=
  t = .finalizeMigration id → db.phase id = some .destinationCreated → db.status id = some .restoring

/-- The history stays a chain if every finalisation finds the status it records, and any other breaks it. -/
theorem history_stays_chain {ls : List (Nat × Tx)} (h : db.HistoryChain id)
    (hr : Run transact (fun db l => onMigration id l.2 ∧ findsRestoring id db l.2) db ls db') :
    db'.HistoryChain id ∧ ∀ db'', db'.phase id = some .destinationCreated → db'.finalizeMigration id = .ok db'' →
      (db''.HistoryChain id ↔ db'.status id = some .restoring) := by
  have hchain : db'.HistoryChain id := by
    refine Run.invariant (I := fun db => db.HistoryChain id) (fun db l db' h ha hn => ?_) h hr
    obtain ⟨now, t⟩ := l
    cases hn
    obtain ⟨rfl | ⟨status, reason, rfl⟩, hfinds⟩ := ha
    · refine commit_elim (Q := fun db => db.HistoryChain id) h fun db' hf => ?_
      obtain rfl | ⟨hphase, hiff⟩ := h.finalizeMigration hf
      · exact h
      · exact hiff.mpr (hfinds rfl hphase)
    · exact commit_elim (Q := fun db => db.HistoryChain id) h fun db' hu => h.updateMigrationStatus hu
  refine ⟨hchain, fun db'' hphase hf => ?_⟩
  obtain rfl | ⟨-, hiff⟩ := hchain.finalizeMigration hf
  · obtain ⟨m, r, a, -, -, -, heq, -⟩ := DB.finalizeMigration_commits hphase hf
    exact absurd (congrArg (fun db => db.history.length) heq) (by simp [DB.commitOwnership])
  · exact hiff

instance : Decidable (db.HistoryChain id) := inferInstanceAs (Decidable (_ ∧ _))

theorem history_stays_chain_restoring : ∃ db', Run transact (fun db l => onMigration "m" l.2 ∧ findsRestoring "m" db l.2)
    (createdDB "b") [(0, .updateMigrationStatus "m" .restoring ""), (0, .finalizeMigration "m")] db' ∧ db'.HistoryChain "m" := by
  obtain ⟨db', hr⟩ : ∃ db', Run transact (fun db l => onMigration "m" l.2 ∧ findsRestoring "m" db l.2) (createdDB "b")
      [(0, .updateMigrationStatus "m" .restoring ""), (0, .finalizeMigration "m")] db' :=
    ⟨_, ⟨.inr ⟨_, _, rfl⟩, nofun⟩, _, rfl, ⟨.inl rfl, fun _ _ => rfl⟩, _, rfl, rfl⟩
  exact ⟨db', hr, (history_stays_chain (by decide +kernel) hr).1⟩

theorem finalize_breaks_history : (createdDB "b").HistoryChain "m" ∧
    ∃ db', ((createdDB "b").finalizeMigration "m").toOption = some db' ∧ ¬ db'.HistoryChain "m" := by
  decide +kernel

/-! ## Whole runs of the panel -/

section
variable {D : Type} {H : Sha256} {P : Platform D} {s s' : Config Resp Task (World D)} {now : Nat} {db db' db'' : DB} {t : Tx}

theorem Tx.exec_history (now : Nat) (db : DB) (t : Tx) : db.history <+: (t.exec now db).2.history := by
  cases t with
  | createMigration | updateMigrationStatus | insertMigrationRun | claimMigrationRun | finalizeMigration
  | updatePlacementReservationStatus =>
    refine commit_elim (Q := fun db' => db.history <+: db'.history) List.prefix_rfl fun db' h => ?_
    grind [DB.createMigration, DB.updateMigrationStatus, DB.insertMigrationRun, DB.claimMigrationRun, DB.updateRun,
      DB.finalizeMigration_cases, DB.commitOwnership, DB.updatePlacementReservationStatus]
  | createPlacementReservation =>
    refine commit_elim (Q := fun db' => db.history <+: db'.history) List.prefix_rfl fun db' h => ?_
    dsimp only [DB.createPlacementReservation, DB.insertReservation] at h
    repeat' split at h
    all_goals cases h
    exact List.prefix_rfl
  | _ => exact List.prefix_rfl

/-- What the panel never undoes: the history, what a migration is about and what its run has reserved. A server leaves
its node only for the target of a migration of it that is recorded as completed. -/
structure DB.Succeeds (db db' : DB) : Prop where
  history : db.history <+: db'.history
  migrations : ∀ id m, db.migration id = some m → ∃ m', db'.migration id = some m' ∧ m'.serverID = m.serverID ∧
    m'.sourceNodeID = m.sourceNodeID ∧ m'.targetNodeID = m.targetNodeID
  runs : ∀ id r, db.run id = some r → ∃ r', db'.run id = some r' ∧ r'.idempotencyKey = r.idempotencyKey ∧
    r'.targetAllocationID = r.targetAllocationID ∧ r.attempt ≤ r'.attempt
  servers : ∀ k v, db.server k = some v → ∃ v', db'.server k = some v' ∧ (v'.nodeID = v.nodeID ∨
    ∃ id m, db'.migration id = some m ∧ m.serverID = k ∧ m.targetNodeID = v'.nodeID ∧
      ∃ row ∈ db'.history, row.migrationID = id ∧ row.toStatus = .completed)

theorem DB.Succeeds.refl (db : DB) : db.Succeeds db where
  history := List.prefix_rfl
  migrations _ m hm := ⟨m, hm, rfl, rfl, rfl⟩
  runs _ r hr := ⟨r, hr, rfl, rfl, Nat.le_refl _⟩
  servers _ v hv := ⟨v, hv, .inl rfl⟩

theorem DB.Succeeds.trans (h : db.Succeeds db') (h' : db'.Succeeds db'') : db.Succeeds db'' where
  history := h.history.trans h'.history
  migrations id m hm := by
    obtain ⟨m', hm', h1, h2, h3⟩ := h.migrations id m hm
    obtain ⟨m'', hm'', h1', h2', h3'⟩ := h'.migrations id m' hm'
    exact ⟨m'', hm'', h1'.trans h1, h2'.trans h2, h3'.trans h3⟩
  runs id r hr := by
    obtain ⟨r', hr', h1, h2, h3⟩ := h.runs id r hr
    obtain ⟨r'', hr'', h1', h2', h3'⟩ := h'.runs id r' hr'
    exact ⟨r'', hr'', h1'.trans h1, h2'.trans h2, h3.trans h3'⟩
  servers k v hv := by
    obtain ⟨v', hv', hn⟩ := h.servers k v hv
    obtain ⟨v'', hv'', hn'⟩ := h'.servers k v' hv'
    refine ⟨v'', hv'', ?_⟩
    obtain hn' | hmoved := hn'
    · obtain hn | ⟨id, m, hm, hk, ht, row, hrow, hdone⟩ := hn
      · exact .inl (hn'.trans hn)
      · obtain ⟨m', hm', h1, -, h3⟩ := h'.migrations id m hm
        exact .inr ⟨id, m', hm', h1.trans hk, h3.trans (ht.trans hn'.symm), row, h'.history.subset hrow, hdone⟩
    · exact .inr hmoved

theorem Effect.succeeds (h : Effect now db t db') (hh : db.history <+: db'.history) : db.Succeeds db' where
  history := hh
  migrations id m hm := by
    obtain hm' | ⟨m', hw, hm'⟩ := h.migration hm
    · exact ⟨m, hm', rfl, rfl, rfl⟩
    · cases hw with
      | status | commit => exact ⟨_, hm', rfl, rfl, rfl⟩
  runs id r hr := by
    obtain hr' | ⟨r', hw, hr'⟩ := h.run hr
    · exact ⟨r, hr', rfl, rfl, Nat.le_refl _⟩
    · refine ⟨r', hr', ?_⟩
      cases hw with
      | claim => exact ⟨rfl, rfl, Nat.le_succ _⟩
      | _ => exact ⟨rfl, rfl, Nat.le_refl _⟩
  servers k v hv := by
    cases h with
    | rest _ _ hr => exact ⟨v, by rw [DB.server, hr.2.2.1]; exact hv, .inl rfl⟩
    | commit id m a hc =>
      rw [DB.server_commitOwnership, hv]
      by_cases hk : k = m.serverID
      · obtain rfl : m.id = id := rowAt_key hc.migration
        refine ⟨_, if_pos hk, .inr ⟨m.id, { m with status := .completed, failureReason := "" }, ?_, hk.symm, rfl, ?_⟩⟩
        · rw [DB.migration_commitOwnership, if_pos rfl, hc.migration]
          rfl
        · exact ⟨_, List.mem_append_right _ (List.mem_singleton_self _), rfl, rfl⟩
      · exact ⟨v, if_neg hk, .inl rfl⟩
    | _ => exact ⟨v, hv, .inl rfl⟩

/-- With any daemons, interleavings and crashes, the database of the panel succeeds the one it began with. -/
theorem panel_succeeds {ls : List (Label Task)} (h : Run (panel H P).next (fun _ _ => True) s ls s') :
    s.world.db.Succeeds s'.world.db := by
  refine Run.related (R := fun w w' => w.db.Succeeds w'.db) (fun w => .refl w.db) .trans (fun w _ => .refl w.db) ?_ h
  intro w c
  obtain he | ⟨t, -, he⟩ := P.handle_db w c
  · exact he ▸ .refl w.db
  · exact he ▸ (t.effect ..).succeeds (t.exec_history ..)

theorem panel_succeeds_moved : ∃ s', Run (panel zeroSha obliging).next (fun _ _ => True) moving
    (.start (.run "w" "m") :: answered 0 45) s' ∧ (s'.world.db.server "s").map (·.nodeID) = some "b" ∧
      moving.world.db.Succeeds s'.world.db :=
  exists_run_and (by decide +kernel) fun _ h _ => panel_succeeds h

end

end ForgePlane
