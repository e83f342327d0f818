import ForgePlane.Tasks

/-!
# A rule for the worker

`run` is a long procedure with few calls that matter to any one property. `Worker.run_wp` reduces a
statement about all its paths to one obligation for each of these.
-/

namespace ForgePlane

variable {α : Type} {P : Call → Prop} {id url : String}
variable {p : Action α} {cause : Err} {st : MigrationStatus} {phase : RunPhase}

def Tx.reads : Tx → Bool
  | .selectMigration _ | .listMigrationHistory _ | .getServer _ | .getNode _ | .serverNodeID _ | .getMigrationRun _
  | .serverProvisionTarget _ | .nodeBaseURL _ | .nodeDaemonCredential _ | .targetAllocation ..
  | .getPlacementReservation _ | .recoveryPlanItems _ => true
  | _ => false

inductive Released (id : String) : Call → Prop
  | finalizeDestination (url credential : String) : Released id (.daemon url (.finalizeTransferDestination id credential))
  | cleanupSource (url credential : String) : Released id (.daemon url (.cleanupTransferSource id credential))
  | cleaned : Released id (.tx (.markMigrationCleanupComplete id))
  | reservations : Released id (.tx (.updatePlacementReservationsForMigration id .completed))

/-! ## Calls of the store functions -/

theorem All_tx {t : Tx} (h : P (.tx t)) : All P (tx t) := ⟨h, fun _ => trivial⟩

theorem All_ignore (h : All P p) : All P (ignore p) := h.bind fun _ => trivial

theorem All_sendIf {b : Bool} {q : DaemonReq} (h : b = true → P (.daemon url q)) :
    All P (Service.sendIf b url q) := by
  cases b with
  | false => trivial
  | true => exact ⟨h rfl, fun _ => trivial⟩

section
variable (hread : ∀ t : Tx, t.reads = true → P (.tx t))
variable {reason worker e checksum sc dc : String} {lease size : Nat} {source target : ServerProvisionTarget}

include hread

theorem All_getMigration (id : String) : All P (Store.getMigration id) := by
  refine All.ok ⟨hread _ rfl, fun _ => trivial⟩ (fun m => ?_) fun _ => trivial
  refine ⟨hread _ rfl, fun r => ?_⟩
  cases r <;> trivial

theorem All_updateMigrationStatus
    (h : P (.tx (.updateMigrationStatus id st reason))) : All P (Store.updateMigrationStatus id st reason) := by
  refine All.ok ⟨h, fun _ => trivial⟩ (fun _ => ?_) fun _ => trivial
  exact All_getMigration hread id

theorem All_claimMigrationRun
    (h : P (.tx (.claimMigrationRun id worker lease))) : All P (Store.claimMigrationRun id worker lease) := by
  refine All.ok ⟨h, fun _ => trivial⟩ (fun _ => ?_) fun _ => trivial
  exact All_tx (hread _ rfl)

theorem All_updateMigrationRun
    (h : P (.tx (.updateMigrationRun id phase e size checksum))) :
    All P (Store.updateMigrationRun id phase e size checksum) := by
  refine All.ok ⟨h, fun _ => trivial⟩ (fun _ => ?_) fun _ => trivial
  exact All_tx (hread _ rfl)

theorem All_migrationProvisionTargets (id : String) : All P (Store.migrationProvisionTargets id) := by
  refine (All_getMigration hread id).ok (fun migration => ?_) fun _ => trivial
  -- five more reads, each of which may end the function with its error
  iterate 5
    refine All.ok ⟨hread _ rfl, fun _ => trivial⟩ (fun _ => ?_) fun _ => trivial
  trivial

theorem All_markFailed (h : P (.tx (.updateMigrationStatus id .failed reason)))
    (hres : ∀ i, P (.tx (.updatePlacementReservationsForMigration i .cancelled))) :
    All P (Service.markFailed id reason) := by
  refine (All_updateMigrationStatus hread h).ok (fun m => ?_) fun _ => trivial
  exact (All_ignore (All_tx (hres m.id))).bind fun _ => trivial

theorem All_fail {created : Bool}
    (hcancel : ∀ url credential, P (.daemon url (.cancelTransfer id credential)))
    (hdelete : created = true → P (.daemon target.nodeURL (.deleteServer target.nodeToken target.serverID)))
    (hstart : source.nodeURL ≠ "" → P (.daemon source.nodeURL (.startServer source.nodeToken source.serverID)))
    (hrun : P (.tx (.failMigrationRun id cause))) (hstatus : P (.tx (.updateMigrationStatus id .failed cause)))
    (hres : ∀ i, P (.tx (.updatePlacementReservationsForMigration i .cancelled))) :
    All P (Service.fail id cause source target created sc dc) := by
  refine (All_sendIf fun _ => hcancel _ _).bind fun _ => ?_
  refine (All_sendIf fun h => hdelete (by simp_all)).bind fun _ => ?_
  refine (All_sendIf fun _ => hcancel _ _).bind fun _ => ?_
  refine (All_sendIf fun h => hstart (of_decide_eq_true h)).bind fun _ => ?_
  refine (All_ignore (All_tx hrun)).bind fun _ => ?_
  exact All_ignore (All_markFailed hread hstatus hres)

theorem All_cancelMigration (H : Sha256) (hcredential : P .newCredential) (hnow : P .timeNow)
    (hregister : ∀ url token r, P (.daemon url (.registerTransferCredential token r)))
    (hcancel : ∀ url credential, P (.daemon url (.cancelTransfer id credential)))
    (hrun : P (.tx (.cancelMigrationRun id)))
    (hstatus : P (.tx (.updateMigrationStatus id .cancelled "migration cancelled")))
    (hres : ∀ i, P (.tx (.updatePlacementReservationsForMigration i .cancelled))) :
    All P (Service.cancelMigration H id) := by
  have hrotate : ∀ migration target direction expires,
      All P (Service.rotateAndCancel H migration id target direction expires) := by
    intro migration target direction expires
    refine All.bind (p := Service.credentialOrEmpty) ⟨hcredential, fun r => ?_⟩ fun credential => ?_
    · cases r <;> trivial
    · exact ⟨hregister _ _ _, forall_result (fun _ => ⟨hcancel _ _, fun _ => trivial⟩) fun _ => trivial⟩
  refine (All_getMigration hread id).ok (fun migration => ?_) fun _ => trivial
  simp only
  split
  · trivial
  refine All.bind (p := Service.cancelTransfers H migration id) ?_ fun _ => ?_
  · refine All.ok (All_migrationProvisionTargets hread id) (fun targets => ?_) fun _ => trivial
    exact ⟨hnow, fun now => (hrotate _ _ _ _).bind fun _ => hrotate _ _ _ _⟩
  · refine ⟨hrun, fun _ => ?_⟩
    refine (All_updateMigrationStatus hread hstatus).ok (fun m => ?_) fun _ => trivial
    exact ⟨hres m.id, fun _ => trivial⟩

end

/-! ## The outline of a run -/

inductive Neutral (id : String) : Call → Prop
  | read (t : Tx) : t.reads = true → Neutral id (.tx t)
  | claim (worker : String) (lease : Nat) : Neutral id (.tx (.claimMigrationRun id worker lease))
  | progress (phase : RunPhase) (e : String) (size : Nat) (checksum : String) : phase.terminal = false →
    Neutral id (.tx (.updateMigrationRun id phase e size checksum))
  | hashes (src dst : String) (expires : Nat) : Neutral id (.tx (.setMigrationCredentialHashes id src dst expires))
  | status (st : MigrationStatus) (reason : String) : st = .transferring ∨ st = .restoring →
    Neutral id (.tx (.updateMigrationStatus id st reason))
  | credential : Neutral id .newCredential
  | now : Neutral id .timeNow
  | register (url token : String) (r : TransferCredentialRegistration) :
    Neutral id (.daemon url (.registerTransferCredential token r))
  | push (url credential : String) (p : TransferPushRequest) : Neutral id (.daemon url (.pushTransferSource id credential p))
  | restore (url credential : String) : Neutral id (.daemon url (.restoreTransferDestination id credential))

namespace Service

def Attempt.prepareCall (x : Attempt) : Call :=
  .daemon x.source.nodeURL (.prepareTransferSource x.id x.sourceCredential)

def Attempt.syncCall (x : Attempt) : Call :=
  .daemon x.target.nodeURL (.syncServerConfiguration x.target.nodeToken x.target.serverID (runtimeConfiguration x.target))

def Attempt.createCall (x : Attempt) : Call :=
  .daemon x.target.nodeURL (.createServer x.target.nodeToken (runtimeCreateRequest x.target) x.target.diskMB)

end Service

open Service

/-- Assertions along a run: `A` from the start, `B` once the source may have been prepared,
`C` once the destination may have been configured, `D` before the commit, `F` at the end;
`L` holds until the commit. -/
structure Outline {μ : Type} (M : Monitor Resp μ) (id : String) (L : μ → Prop) (A B C D : Attempt → μ → Prop)
    (F : μ → Prop) : Prop where
  silent : ∀ c, Neutral id c → M.Silent L c
  live : ∀ x m, C x m → L m
  ready : ∀ x m, D x m → L m
  prepared : ∀ x m, A x m → B x m
  prepare : ∀ x m, x.id = id → A x m → M.admits m x.prepareCall ∧
    ∀ r, M.expects m x.prepareCall r → B x (M.next m x.prepareCall r)
  configured : ∀ x m, B x m → C x m
  configure : ∀ x m, x.id = id → B x m → M.admits m x.syncCall ∧
    ∀ r, M.expects m x.syncCall r → C x (M.next m x.syncCall r)
  create : ∀ x m, x.id = id → C x m → M.admits m x.createCall ∧ ∀ r : Except Err Bool, M.expects m x.createCall r →
    if r = .ok true then D x (M.next m x.createCall r) else C x (M.next m x.createCall r)
  resume : ∀ x m, x.run.phase = .destinationCreated → A x m → D x m
  commit : ∀ x m, x.id = id → D x m → M.admits m (.tx (.finalizeMigration id)) ∧
    (M.expects m (.tx (.finalizeMigration id)) (.ok ()) →
      wp M (releaseSource x >>= fun _ => ignore (tx (.updatePlacementReservationsForMigration id .completed))) (fun _ => F)
        (M.next m (.tx (.finalizeMigration id)) (.ok ()))) ∧
    ∀ e, M.expects m (.tx (.finalizeMigration id)) (.error e) →
      wp M (x.fail ("commit migration ownership: " ++ e) true) (fun _ => F)
        (M.next m (.tx (.finalizeMigration id)) (.error e))
  fail : ∀ x m cause, x.id = id → C x m → wp M (x.fail cause false) (fun _ => F) m

namespace Worker

section
variable {μ : Type} {M : Monitor Resp μ} {L Q : μ → Prop} {A B C D : Attempt → μ → Prop} {F : μ → Prop}

variable {x : Attempt} {m : μ} {β : Type}

theorem released_wp (hx : x.id = id) (hsilent : ∀ c, Released id c → M.Silent F c) (hF : F m) :
    wp M (releaseSource x >>= fun _ => ignore (tx (.updatePlacementReservationsForMigration id .completed)))
      (fun _ => F) m := by
  subst hx
  have hrel : All (Released x.id) (releaseSource x) := by
    refine All.ok ⟨.finalizeDestination _ _, fun _ => trivial⟩ (fun _ => ?_) fun _ => trivial
    refine All.ok ⟨.cleanupSource _ _, fun _ => trivial⟩ (fun _ => ?_) fun _ => trivial
    exact All_ignore (All_tx .cleaned)
  have hall := hrel.bind fun _ => All_ignore (All_tx Released.reservations)
  exact (hall.mono hsilent).wp hF fun _ => hF

def Post (Q F : μ → Prop) (o : Option α) (m : μ) : Prop :=
  match o with
  | some _ => Q m
  | none => F m

variable (O : Outline M id L A B C D F)
include O

theorem failed (hx : x.id = id) (h : C x m) :
    wp M (x.fail cause false >>= fun _ => pure (none : Option β)) (Post Q F) m := by
  rw [wp_bind]
  exact wp_mono (fun _ _ hF => hF) (O.fail x m cause hx h)

theorem bookkeeping {k : α → Action β} {Φ : β → μ → Prop} (hp : All (Neutral id) p)
    (hL : L m) (hk : ∀ a, wp M (k a) Φ m) : wp M (p >>= k) Φ m := by
  rw [wp_bind]
  exact (hp.mono O.silent).wp hL hk

omit O in
theorem neutral_progress (id : String) (h : phase.terminal = false) (size : Nat) (checksum : String) :
    All (Neutral id) (ignore (Store.updateMigrationRun id phase "" size checksum)) :=
  All_ignore (All_updateMigrationRun Neutral.read (.progress phase "" size checksum h))

omit O in
theorem neutral_status (id : String) (h : st = .transferring ∨ st = .restoring) (reason : String) :
    All (Neutral id) (ignore (Store.updateMigrationStatus id st reason)) :=
  All_ignore (All_updateMigrationStatus Neutral.read (.status st reason h))

theorem registerStage_wp (H : Sha256) (expires : Nat) (hx : x.id = id) (h : A x m) :
    wp M (registerStage H x expires) (Post (A x) F) m := by
  have hC : C x m := O.configured x m (O.prepared x m h)
  have hL : L m := O.live x m hC
  subst hx
  refine bookkeeping O (All_tx (.hashes _ _ _)) hL (forall_result (fun _ => ?_) fun _ => failed O rfl hC)
  refine bookkeeping O (p := daemon _ _) ⟨.register _ _ _, fun _ => trivial⟩ hL fun r => ?_
  cases r with
  | error e => exact failed O rfl hC
  | ok _ =>
    refine bookkeeping O (p := daemon _ _) ⟨.register _ _ _, fun _ => trivial⟩ hL fun r => ?_
    cases r with
    | error e => exact failed O rfl hC
    | ok _ =>
      simp only
      split
      · exact h
      · exact bookkeeping O (neutral_progress x.id (by rfl) 0 "") hL fun _ => h

theorem archiveStage_wp (hx : x.id = id) (h : A x m) :
    wp M (archiveStage x) (Post (B x) F) m := by
  subst hx
  unfold archiveStage
  split
  · exact O.prepared x m h
  · rw [daemon_bind]
    refine ⟨(O.prepare x m rfl h).1, fun r hr => ?_⟩
    have hB := (O.prepare x m rfl h).2 r hr
    have hL := O.live x _ (O.configured x _ hB)
    cases r with
    | error e => exact failed O rfl (O.configured x _ hB)
    | ok archive =>
      simp only
      split
      · exact failed O rfl (O.configured x _ hB)
      · refine bookkeeping O (neutral_status x.id (.inl rfl) _) hL fun _ => ?_
        exact bookkeeping O (neutral_progress x.id (by rfl) _ _) hL fun _ => hB

theorem pushStage_wp (archive : TransferMetadata) (hx : x.id = id) (h : B x m) :
    wp M (pushStage x archive) (Post (B x) F) m := by
  have hC : C x m := O.configured x m h
  have hL : L m := O.live x m hC
  subst hx
  unfold pushStage
  split
  · exact h
  · refine bookkeeping O (p := daemon _ _) ⟨.push _ _ _, fun _ => trivial⟩ hL fun r => ?_
    cases r with
    | error e => exact failed O rfl hC
    | ok verified =>
      simp only
      split
      · exact failed O rfl hC
      · refine bookkeeping O (neutral_progress x.id (by rfl) _ _) hL fun _ => ?_
        exact bookkeeping O (neutral_status x.id (.inr rfl) _) hL fun _ => h

variable (hx : x.id = id)
include hx

theorem restoreStage_wp (h : B x m) : wp M (restoreStage x) (Post (B x) F) m := by
  have hC : C x m := O.configured x m h
  have hL : L m := O.live x m hC
  subst hx
  unfold restoreStage
  split
  · exact h
  · refine bookkeeping O (p := daemon _ _) ⟨.restore _ _, fun _ => trivial⟩ hL fun r => ?_
    cases r with
    | error e => exact failed O rfl hC
    | ok restored =>
      simp only
      split
      · exact failed O rfl hC
      · exact bookkeeping O (neutral_progress x.id (by rfl) _ _) hL fun _ => h

theorem configureStage_wp (h : B x m) : wp M (configureStage x) (Post (C x) F) m := by
  subst hx
  unfold configureStage
  split
  · exact O.configured x m h
  · rw [daemon_bind]
    refine ⟨(O.configure x m rfl h).1, fun r hr => ?_⟩
    have hC := (O.configure x m rfl h).2 r hr
    cases r with
    | error e => exact failed O rfl hC
    | ok _ => exact bookkeeping O (neutral_progress x.id (by rfl) _ _) (O.live x _ hC) fun _ => hC

theorem createStage_wp (h : C x m) : wp M (createStage x) (Post (D x) F) m := by
  subst hx
  obtain ⟨hadm, hnext⟩ := O.create x m rfl h
  rw [createStage, daemon_bind]
  refine ⟨hadm, fun r hr => ?_⟩
  have hnext := hnext r hr
  cases r with
  | error e =>
    have hC : C x (M.next m x.createCall (.error e)) := by simpa using hnext
    exact failed O rfl hC
  | ok accepted =>
    cases accepted with
    | false =>
      have hC : C x (M.next m x.createCall (.ok false)) := by simpa using hnext
      exact failed O rfl hC
    | true =>
      have hD : D x (M.next m x.createCall (.ok true)) := by simpa using hnext
      exact bookkeeping O (neutral_progress x.id (by rfl) _ _) (O.ready x _ hD) fun _ => hD

theorem finalize_wp (h : D x m) : wp M (finalize x) (fun _ => F) m := by
  subst hx
  obtain ⟨hadm, hF, hfail⟩ := O.commit x m rfl h
  rw [finalize, tx_bind]
  exact ⟨hadm, forall_result (fun _ hr => hF hr) fun e hr => hfail e hr⟩

omit O hx in
theorem stage {p : Action (Option α)} {k : Option α → Action Unit} (hp : wp M p (Post Q F) m)
    (hsome : ∀ a m, Q m → wp M (k (some a)) (fun _ => F) m) (hnone : k none = pure () := by rfl) :
    wp M (p >>= k) (fun _ => F) m := by
  refine wp_then hp fun o m ho => ?_
  cases o with
  | none =>
    rw [hnone]
    exact ho
  | some a => exact hsome a m ho

theorem transfer_wp (h : A x m) : wp M (transfer x) (fun _ => F) m := by
  unfold transfer
  split
  · rename_i hp
    exact finalize_wp O hx (O.resume x m hp h)
  refine stage (archiveStage_wp O hx h) fun archive m hm => ?_
  refine stage (pushStage_wp O archive hx hm) fun _ m hm => ?_
  refine stage (restoreStage_wp O hx hm) fun _ m hm => ?_
  refine stage (configureStage_wp O hx hm) fun _ m hm => ?_
  exact stage (createStage_wp O hx hm) fun _ m hm => finalize_wp O hx hm

omit hx

omit O in
theorem neutral_credential (id : String) : All (Neutral id) credentialOrEmpty := by
  refine ⟨.credential, fun r => ?_⟩
  cases r <;> trivial

/-- Every path of a run, from the obligations of its outline; `G` is what its reads say of the
two nodes. -/
theorem run_located_wp (H : Sha256) (worker : String) {G : ServerProvisionTarget × ServerProvisionTarget → Prop}
    (hlocate : wp M (Store.migrationProvisionTargets id) (fun r m' => m' = m ∧ ∀ t, r = .ok t → G t) m) (hL : L m)
    (hF : F m) (hA : ∀ x, x.id = id → G (x.source, x.target) → A x m)
    (hearly : ∀ e, wp M (Service.fail id e {} {} false "" "") (fun _ => F) m) :
    wp M (Service.run H worker id) (fun _ => F) m := by
  refine bookkeeping O (All_claimMigrationRun Neutral.read (.claim _ _)) hL fun r => ?_
  cases r with
  | error e => exact hF
  | ok run =>
  refine bookkeeping O (All_getMigration Neutral.read id) hL (forall_result (fun migration => ?_) fun e => hearly e)
  simp only
  rw [wp_bind]
  refine wp_mono (fun r m' hr => ?_) hlocate
  obtain ⟨rfl, hr⟩ := hr
  cases r with
  | error e => exact hearly e
  | ok targets =>
  refine bookkeeping O (neutral_credential id) hL fun sourceCredential => ?_
  refine bookkeeping O (neutral_credential id) hL fun destinationCredential => ?_
  refine bookkeeping O (p := timeNow) ⟨.now, fun _ => trivial⟩ hL fun now => ?_
  exact stage (registerStage_wp O H _ rfl (hA _ rfl (hr targets rfl))) fun _ m hm => transfer_wp O rfl hm

theorem run_wp (H : Sha256) (worker : String) (hL : L m) (hF : F m) (hA : ∀ x, x.id = id → A x m)
    (hearly : ∀ e, wp M (Service.fail id e {} {} false "" "") (fun _ => F) m) :
    wp M (Service.run H worker id) (fun _ => F) m := by
  have hreads : All (M.Silent L) (Store.migrationProvisionTargets id) :=
    (All_migrationProvisionTargets Neutral.read id).mono O.silent
  exact run_located_wp O H worker (G := fun _ => True) (hreads.wp hL fun _ => ⟨rfl, fun _ _ => trivial⟩) hL hF
    (fun x hx _ => hA x hx) hearly

end

end Worker

end ForgePlane
