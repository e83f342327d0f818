import ForgePlane.Credential
import ForgePlane.Owner

/-!
# A cleanup pass on its own

A pass registers fresh credentials, finalises the destination and cleans up the
source. The destination can be finalised once: a pass after one that got that far
is refused, however often it is tried.
-/

namespace ForgePlane

open Engine Service Prog Fleet Beacon

/-! ## The daemon's part -/

variable {n : Node} {site : Site} {H : Sha256} {now : Nat} {id credential : String} {r : TransferRecord}

theorem Beacon.bearer_hex {α : Type} {bs : List UInt8} {serve : String → Except Err α × Node} (h : bs ≠ []) :
    bearer n (hexEncode bs) serve = serve (hexEncode bs) := by
  rw [bearer, trimSpace_hexEncode, if_neg (hexEncode_ne_empty h)]

theorem lower_append (a b : String) :
    (lower (a ++ b)).toList = a.toList.map Char.toLower ++ b.toList.map Char.toLower := by
  rw [lower, String.toList_ofList, String.toList_append, List.map_append]

theorem lower_contains {p q s : String} {r : List Char} (h : p.toList.map Char.toLower = q.toList ++ r) :
    q.toList <:+: (lower (p ++ s)).toList := by
  rw [lower_append, h, List.append_assoc]
  exact (List.prefix_append _ _).isInfix

theorem isContainerMissing_missing (name : String) : isContainerMissing (Host.missing name) = true := by
  have hlower : "No such container: ".toList.map Char.toLower = "no such container".toList ++ [':', ' '] := by
    decide +kernel
  unfold isContainerMissing
  exact Bool.or_eq_true_iff.mpr (.inl (decide_eq_true (lower_contains hlower)))

theorem removeWorkload_ok (serverID : String) :
    (n.run site (removeWorkload serverID)).1 = .ok () := by
  simp [Node.run, removeWorkload, host, Host.handle, Host.onContainer]
  cases n.host.container (containerName serverID) with
  | none => simp [isContainerMissing_missing]
  | some => simp

theorem Beacon.cleanupTransferSource_ok
    (h : authorize H now n id .sourceControl credential = .ok r) :
    (cleanupTransferSource H site now n id credential).1 = .ok () := by
  have hagain : authorize H now (n.run site (removeWorkload r.serverID)).2 id .sourceControl credential = .ok r := h
  simp [cleanupTransferSource, h, removeWorkload_ok, cleanupSource, hagain]

theorem Engine.authorize_congr {n' : Node} {d : Direction}
    (h : n'.load id d = n.load id d) : authorize H now n' id d credential = authorize H now n id d credential := by
  simp [authorize, h]

variable (h : authorize H now n id .destinationUpload credential = .ok r)
include h

theorem Engine.finalizeDestination_ok
    :
    (finalizeDestination H now n id credential).1 = .ok () ↔ r.phase = .restored := by
  by_cases hp : r.phase = .restored <;> simp [finalizeDestination, h, hp]

theorem Engine.finalizeDestination_source
    (hd : r.direction = .destinationUpload) :
    (finalizeDestination H now n id credential).2.load id .sourceControl = n.load id .sourceControl := by
  simp only [finalizeDestination, h]
  split
  · rfl
  · rw [Node.load_save, if_neg]
    · rfl
    · rintro ⟨-, hc⟩
      cases hd.symm.trans hc

omit h

/-- A completed migration whose cleanup is pending, its target reachable under its token with
records of this migration only, and random bytes at hand. -/
structure CleanupReady (P : Platform Unit) (ρ : Route) (w : World Fleet) (n : Node) : Prop where
  follows : w.db.Follows ρ
  hosts : w.db.Hosts ρ.target ρ.serverID
  completed : w.db.status ρ.migrationID = some .completed
  pending : ∃ r address, w.db.run ρ.migrationID = some r ∧ r.phase = .completed ∧ r.cleanupPending = true ∧
    w.db.targetAllocation r.targetAllocationID ρ.target ρ.serverID = .ok address
  node : w.fleet.node ρ.targetURL = some n
  token : (w.db.node ρ.target).map DB.nodeDaemonCredential = some n.token
  bound : ∀ d r, n.load ρ.migrationID d = some r → r.version = transferProtocolVersion ∧ r.serverID = ρ.serverID ∧
    r.sourceNodeID = ρ.source ∧ r.targetNodeID = ρ.target
  ids : ∀ x ∈ [ρ.migrationID, ρ.serverID, ρ.source, ρ.target], Engine.safeID x = true
  random : ∃ x y, P.random w.entropy = .ok x ∧ P.random (w.entropy + 1) = .ok y

section
variable {H : Sha256} {sites : String → Site} {P : Platform Unit} {ρ : Route} {w : World Fleet} {n : Node}

def CleanupReady.Row (ρ : Route) (m : Migration) : Prop :=
  m.id = ρ.migrationID ∧ m.serverID = ρ.serverID ∧ m.sourceNodeID = ρ.source ∧ m.targetNodeID = ρ.target ∧
    m.status = .completed ∧ m.cleanupPending = true

theorem CleanupReady.select (h : CleanupReady P ρ w n) :
    ∃ m, w.db.selectMigration ρ.migrationID = .ok m ∧ CleanupReady.Row ρ m := by
  obtain ⟨row, hrow, hv, ha, hb⟩ := h.follows.migration
  obtain ⟨r, address, hr, hp, hpending, -⟩ := h.pending
  have hst : row.status = .completed := by simpa [DB.status, hrow] using h.completed
  have hid : row.id = ρ.migrationID := rowAt_key hrow
  refine ⟨_, by rw [DB.selectMigration, hrow], hid, hv, ha, hb, hst, ?_⟩
  simp [hr, hpending]

section
variable {D α : Type} {Q : Platform D} {w : World D}

theorem exec_timeNow {k : Nat → Action α} : (timeNow >>= k).exec Q.handle w = (k w.now).exec Q.handle w := rfl

theorem exec_newCredential {k : Except Err String → Action α} {b : Vector UInt8 32} (h : Q.random w.entropy = .ok b) :
    (newCredential >>= k).exec Q.handle w =
      (k (.ok (hexEncode b.toList))).exec Q.handle { w with entropy := w.entropy + 1 } := by
  simp [Platform.handle, h, Except.map]

end

variable {α : Type} {url id : String} {f : Fleet} {m : Migration} {n' : Node}

theorem exec_daemon {w : World Fleet} {q : DaemonReq} {k : Except Err q.Val → Action α}
    {a : Except Err q.Val} (h : w.fleet.serve H sites w.now url q = (a, f)) :
    (daemon url q >>= k).exec (platform H sites P).handle w =
      (k a).exec (platform H sites P).handle { w with fleet := f } := by
  simp [Platform.handle, platform, h]

theorem exec_getMigration {D : Type} {Q : Platform D} {w : World D}
    (h : w.db.selectMigration id = .ok m) : (Store.getMigration id).exec Q.handle w = (.ok m, w) := by
  simp [Store.getMigration, tx, Platform.handle, Tx.exec, h]

theorem CleanupReady.targets (h : CleanupReady P ρ w n) : ∃ t,
    (Store.migrationProvisionTargets ρ.migrationID).exec (platform H sites P).handle w = (.ok t, w) ∧
    t.1.nodeURL = ρ.targetURL ∧ t.1.nodeToken = n.token ∧ t.2.nodeURL = ρ.targetURL ∧ t.2.nodeToken = n.token := by
  obtain ⟨m, hm, -, hserver, -, htarget, -⟩ := h.select
  obtain ⟨r, address, hr, -, -, haddress⟩ := h.pending
  obtain ⟨sv, hs, hnode⟩ := h.hosts
  obtain ⟨row, hrow, hurl⟩ := Option.map_eq_some_iff.mp h.follows.target
  have htoken : DB.nodeDaemonCredential row = n.token := by simpa [hrow] using h.token
  have hprovision : ∃ t, w.db.serverProvisionTarget ρ.serverID = .ok t ∧ t.nodeURL = ρ.targetURL ∧
      t.nodeToken = n.token := by
    cases ht : w.db.serverProvisionTarget ρ.serverID with
    | error => simp [DB.serverProvisionTarget, hs, hnode, hrow] at ht
    | ok t =>
      simp [DB.serverProvisionTarget, hs, hnode, hrow] at ht
      exact ⟨t, rfl, by rw [← ht]; exact hurl, by rw [← ht]; exact htoken⟩
  obtain ⟨t, ht, hturl, httoken⟩ := hprovision
  rw [Store.migrationProvisionTargets, exec_bind, exec_getMigration hm]
  simp only [Store.getMigrationRun, tx, call_bind, ret_bind, exec_call, Platform.handle, Tx.exec, hr, orNoRows, hserver, htarget, ht,
    hrow, Option.map_some, haddress, pure_def, exec_ret]
  exact ⟨_, rfl, hturl, httoken, hurl, htoken⟩

/-! ### The two registrations -/

theorem safeID_ne_empty {x : String} (h : safeID x = true) : x ≠ "" := by
  rintro rfl
  cases h

theorem CleanupReady.claims (h : CleanupReady P ρ w n) (hm : CleanupReady.Row ρ m) (d : Direction) :
    validateClaims (Service.claims m d (w.now + 5 * 60)) = .ok () := by
  obtain ⟨hid, hserver, hsource, htarget, -⟩ := hm
  have hids : ∀ x ∈ [ρ.migrationID, ρ.serverID, ρ.source, ρ.target], safeID x = true ∧ x ≠ "" :=
    fun x hx => ⟨h.ids x hx, safeID_ne_empty (h.ids x hx)⟩
  simp at hids
  obtain ⟨h1, h2, h3, h4⟩ := hids
  simp [validateClaims, Service.claims, hid, hserver, hsource, htarget, h1, h2, h3, h4]

def Node.opened (H : Sha256) (n : Node) (m : Migration) (expires : Nat) (sc dc : String) : Node :=
  let n := n.save (Engine.registered n (Service.claims m .sourceControl expires) (credentialHash H sc))
  n.save (Engine.registered n (Service.claims m .destinationUpload expires) (credentialHash H dc))

theorem registered_load {n : Node} {c : TransferCredentialClaims} {hash : String}
    (h : n.load c.migrationID c.direction = n'.load c.migrationID c.direction) :
    Engine.registered n c hash = Engine.registered n' c hash := by
  unfold Engine.registered
  rw [h]

section
variable {m : Migration} {expires : Nat} {sc dc : String}

theorem load_opened_destination : (n.opened H m expires sc dc).load m.id .destinationUpload =
    some (Engine.registered n (claims m .destinationUpload expires) (credentialHash H dc)) := by
  refine (load_registered _ (claims m .destinationUpload expires) _ .destinationUpload).trans ?_
  refine (if_pos rfl).trans ?_
  -- the registration of the source left the destination's record alone
  exact congrArg some (registered_load (load_registered n (claims m .sourceControl expires) _ _))

theorem load_opened_source : (n.opened H m expires sc dc).load m.id .sourceControl =
    some (Engine.registered n (claims m .sourceControl expires) (credentialHash H sc)) := by
  refine (load_registered _ (claims m .destinationUpload expires) _ .sourceControl).trans ?_
  exact load_registered n (claims m .sourceControl expires) _ _

theorem authorize_registered {n' : Node} {c : TransferCredentialClaims} {credential : String} {now : Nat}
    (hload : n'.load c.migrationID c.direction = some (Engine.registered n c (credentialHash H credential)))
    (hversion : c.version = transferProtocolVersion) (hlive : now < c.expiresAt)
    (hbound : ∀ r, n.load c.migrationID c.direction = some r → Engine.Bound r c) :
    authorize H now n' c.migrationID c.direction credential =
      .ok (Engine.registered n c (credentialHash H credential)) := by
  obtain ⟨hconsumed, hexpires, hhash⟩ := @registered_opens n c (credentialHash H credential)
  exact authorize_eq hload (registered_version hversion _ hbound) hconsumed (by rw [hexpires]; exact hlive)
    hhash

theorem registered_phase (hash : String) : (Engine.registered n (claims m .destinationUpload expires) hash).phase =
    .restored ↔ ∃ r, n.load m.id .destinationUpload = some r ∧ r.phase = .restored := by
  unfold Engine.registered
  simp [claims]
  cases n.load m.id .destinationUpload with
  | none | some => simp

end

/-! ### The requests of a pass -/

theorem Fleet.onNode_eq (h : f.node url = some n) (serve : Node → Except Err α × Node) :
    f.onNode url serve = ((serve n).1, f.setNode url (serve n).2) := by
  simp [onNode, h]

theorem Fleet.node_setNode_self (h : f.node url = some n) :
    (f.setNode url n').node url = some n' := by
  rw [node_setNode, if_pos rfl, h]
  rfl

theorem Fleet.serve_register {f : Fleet} {url : String} {now : Nat} {c : TransferCredentialClaims} {credential : String}
    (h : f.node url = some n) (hclaims : validateClaims c = .ok ()) (hlive : now ≤ c.expiresAt)
    (hbound : ∀ r, n.load c.migrationID c.direction = some r → Engine.Bound r c) :
    f.serve H sites now url (.registerTransferCredential n.token ⟨c, credentialHash H credential⟩) =
      (.ok (), f.setNode url (n.save (Engine.registered n c (credentialHash H credential)))) := by
  simp [serve, onNode_eq h, signed, register_eq hclaims hlive hbound]

theorem CleanupReady.binds (h : CleanupReady P ρ w n) (hm : CleanupReady.Row ρ m) (d : Direction)
    (expires : Nat) : ∀ r, n.load m.id d = some r → Engine.Bound r (Service.claims m d expires) := by
  intro r hr
  obtain ⟨hid, hserver, hsource, htarget, -⟩ := hm
  rw [hid] at hr
  obtain ⟨hv, hs, ha, hb⟩ := h.bound d r hr
  exact ⟨hv, hs.trans hserver.symm, ha.trans hsource.symm, hb.trans htarget.symm⟩

section
variable {m : Migration} {sc dc : String}

theorem CleanupReady.registers (h : CleanupReady P ρ w n) (hm : CleanupReady.Row ρ m) :
    ∃ f₁ f₂ : Fleet, f₂.node ρ.targetURL = some (n.opened H m (w.now + 5 * 60) sc dc) ∧
      w.fleet.serve H sites w.now ρ.targetURL (.registerTransferCredential n.token
        ⟨Service.claims m .sourceControl (w.now + 5 * 60), credentialHash H sc⟩) = (.ok (), f₁) ∧
      f₁.serve H sites w.now ρ.targetURL (.registerTransferCredential n.token
        ⟨Service.claims m .destinationUpload (w.now + 5 * 60), credentialHash H dc⟩) = (.ok (), f₂) := by
  let n₁ := n.save (Engine.registered n (Service.claims m .sourceControl (w.now + 5 * 60)) (credentialHash H sc))
  have hlive : w.now ≤ w.now + 5 * 60 := Nat.le_add_right _ _
  have hfirst := @serve_register H sites n w.fleet ρ.targetURL w.now (Service.claims m .sourceControl (w.now + 5 * 60))
    sc h.node (h.claims hm _) hlive (h.binds hm _ _)
  have hnode₁ : (w.fleet.setNode ρ.targetURL n₁).node ρ.targetURL = some n₁ := node_setNode_self h.node
  have hbinds : ∀ r, n₁.load m.id .destinationUpload = some r →
      Engine.Bound r (Service.claims m .destinationUpload (w.now + 5 * 60)) := by
    intro r hr
    refine h.binds hm _ _ r ?_
    rw [← hr]
    exact (load_registered n (Service.claims m .sourceControl (w.now + 5 * 60)) _ .destinationUpload).symm
  have hsecond := @serve_register H sites n₁ _ ρ.targetURL w.now
    (Service.claims m .destinationUpload (w.now + 5 * 60)) dc hnode₁ (h.claims hm _) hlive hbinds
  exact ⟨_, _, node_setNode_self hnode₁, hfirst, hsecond⟩

theorem CleanupReady.opens (h : CleanupReady P ρ w n) (hm : CleanupReady.Row ρ m) :
    authorize H w.now (n.opened H m (w.now + 5 * 60) sc dc) m.id .destinationUpload dc =
        .ok (Engine.registered n (Service.claims m .destinationUpload (w.now + 5 * 60)) (credentialHash H dc)) ∧
      authorize H w.now (n.opened H m (w.now + 5 * 60) sc dc) m.id .sourceControl sc =
        .ok (Engine.registered n (Service.claims m .sourceControl (w.now + 5 * 60)) (credentialHash H sc)) := by
  have hlive : w.now < w.now + 5 * 60 := Nat.lt_add_of_pos_right (by decide)
  exact ⟨@authorize_registered H n _ (Service.claims m .destinationUpload (w.now + 5 * 60)) dc w.now
      load_opened_destination rfl hlive (h.binds hm _ _),
    @authorize_registered H n _ (Service.claims m .sourceControl (w.now + 5 * 60)) sc w.now
      load_opened_source rfl hlive (h.binds hm _ _)⟩

end

theorem CleanupReady.answers (h : CleanupReady P ρ w n) {m : Migration} (hm : CleanupReady.Row ρ m) {x y : Vector UInt8 32}
    {f : Fleet} (hf : f.node ρ.targetURL = some (n.opened H m (w.now + 5 * 60) (hexEncode x.toList) (hexEncode y.toList))) :
    ((f.serve H sites w.now ρ.targetURL (.finalizeTransferDestination ρ.migrationID (hexEncode y.toList))).1 = .ok () ↔
        w.fleet.restored ρ.targetURL ρ.migrationID = true) ∧
      ((f.serve H sites w.now ρ.targetURL (.finalizeTransferDestination ρ.migrationID (hexEncode y.toList))).2.serve H sites
        w.now ρ.targetURL (.cleanupTransferSource ρ.migrationID (hexEncode x.toList))).1 = .ok () := by
  have hne : ∀ v : Vector UInt8 32, v.toList ≠ [] := fun v hv => by simpa using congrArg List.length hv
  obtain ⟨hdest, hsource⟩ := @CleanupReady.opens H P ρ w n m (hexEncode x.toList) (hexEncode y.toList) h hm
  rw [hm.1] at hdest hsource
  have hrestored : w.fleet.restored ρ.targetURL ρ.migrationID = true ↔
      ∃ r, n.load m.id .destinationUpload = some r ∧ r.phase = .restored := by
    simp [restored, h.node, Option.any_eq_true, hm.1]
  simp [serve, onNode_eq hf, bearer_hex (hne y), onNode_eq (node_setNode_self hf), bearer_hex (hne x)]
  refine ⟨?_, ?_⟩
  · rw [hrestored, ← @registered_phase n m (w.now + 5 * 60) (credentialHash H (hexEncode y.toList))]
    exact finalizeDestination_ok hdest
  · have hkept := finalizeDestination_source hdest (registered_key _).2
    exact cleanupTransferSource_ok ((authorize_congr hkept).trans hsource)

theorem run_markMigrationCleanupComplete {db : DB} {r : MigrationRun} (hr : db.run id = some r)
    (hp : r.phase = .completed) :
    ((db.markMigrationCleanupComplete id).run id).map (·.cleanupPending) = some false := by
  have hkey : r.migrationID = id := rowAt_key hr
  simp [DB.run_cleaned, hr, hkey, hp]

/-- A pass in which every node is reached succeeds and marks the cleanup complete exactly when the
destination has not been finalised yet. -/
theorem cleanup_pass_converges_iff (h : CleanupReady P ρ w n) :
    (((Service.cleanupMigration H ρ.migrationID).exec (Fleet.platform H sites P).handle w).1 = .ok () ∧
      (((Service.cleanupMigration H ρ.migrationID).exec (Fleet.platform H sites P).handle w).2.db.run ρ.migrationID).map
        (·.cleanupPending) = some false) ↔ w.fleet.restored ρ.targetURL ρ.migrationID = true := by
  obtain ⟨m, hselect, hm⟩ := h.select
  obtain ⟨t, htargets, hsurl, hstoken, hturl, httoken⟩ := @CleanupReady.targets H sites P ρ w n h
  obtain ⟨r, -, hr, hphase, -⟩ := h.pending
  obtain ⟨x, y, hx, hy⟩ := h.random
  obtain ⟨f₁, f₂, hf₂, hfirst, hsecond⟩ :=
    @CleanupReady.registers H sites P ρ w n m (hexEncode x.toList) (hexEncode y.toList) h hm
  obtain ⟨hfin, hclean⟩ := @CleanupReady.answers H sites P ρ w n h m hm x y f₂ hf₂
  have hgo : (decide (m.status ≠ .completed) || !m.cleanupPending) = false := by simp [hm.2.2.2.2.1, hm.2.2.2.2.2]
  rw [Service.cleanupMigration, Prog.exec_bind, exec_getMigration hselect]
  simp only [hgo, Bool.false_eq_true, if_false]
  rw [Prog.exec_bind, htargets]
  simp only
  rw [← hsurl, ← hstoken] at hfirst
  rw [← hturl, ← httoken] at hsecond
  let w₁ : World Fleet := { w with entropy := w.entropy + 1 }
  let w₂ : World Fleet := { w with entropy := w.entropy + 1 + 1 }
  rw [exec_timeNow, @exec_newCredential _ _ (Fleet.platform H sites P) w _ x hx]
  simp only
  rw [@exec_newCredential _ _ (Fleet.platform H sites P) w₁ _ y hy]
  simp only
  rw [exec_daemon (w := w₂) hfirst]
  simp only
  rw [exec_daemon (w := { w₂ with fleet := f₁ }) hsecond]
  simp only
  rw [← hturl] at hfin
  cases hdone : f₂.serve H sites w.now t.2.nodeURL (.finalizeTransferDestination ρ.migrationID (hexEncode y.toList)) with
  | mk a f₃ =>
  rw [exec_daemon (w := { w₂ with fleet := f₂ }) hdone]
  rw [hdone] at hfin
  cases a with
  | error e =>
    -- the pass ends here, its cleanup still pending
    rw [hturl] at hfin
    exact ⟨(fun hc => by cases hc.1), fun hc => by cases hfin.mpr hc⟩
  | ok _ =>
    simp only
    rw [← hturl, hdone, hturl, ← hsurl] at hclean
    cases hgone : f₃.serve H sites w.now t.1.nodeURL (.cleanupTransferSource ρ.migrationID (hexEncode x.toList)) with
    | mk a f₄ =>
    rw [hgone] at hclean
    subst hclean
    rw [exec_daemon (w := { w₂ with fleet := f₃ }) hgone]
    simp only [tx, Prog.exec_call, Prog.exec_ret, Platform.handle, Tx.exec]
    rw [hturl] at hfin
    exact ⟨fun _ => hfin.mp rfl, fun _ => ⟨trivial, run_markMigrationCleanupComplete hr hphase⟩⟩

end

def restoredRecord : TransferRecord where
  version := transferProtocolVersion
  migrationID := "m"
  serverID := someServer
  sourceNodeID := "a"
  targetNodeID := "b"
  direction := .destinationUpload
  phase := .restored
  credentialHash := ""
  expiresAt := 0

def restoredNode : Node := { token := "b.t", records := [restoredRecord] }

def cleanupDue : World Fleet where
  db := { leavingDB with
    servers := [{ id := someServer, nodeID := "b", primaryAllocationID := some "q", image := "game" }]
    allocations := [{ id := "p", nodeID := "a" },
                    { id := "q", nodeID := "b", serverID := some someServer, ip := "1.1.1.2", port := 25565 }]
    migrations := [{ id := "m", serverID := someServer, sourceNodeID := "a", targetNodeID := "b", status := .completed }]
    runs := [{ migrationID := "m", idempotencyKey := "k", targetAllocationID := some "q", phase := .completed
               cleanupPending := true }] }
  now := 1000
  fleet := [("http://b", restoredNode)]

theorem cleanupDue_ready : CleanupReady obliging leavingRoute cleanupDue restoredNode where
  follows := ⟨⟨_, rfl, rfl, rfl, rfl⟩, rfl, rfl⟩
  hosts := ⟨_, rfl, rfl⟩
  completed := rfl
  pending := ⟨_, _, rfl, rfl, rfl, rfl⟩
  node := rfl
  token := by decide +kernel
  bound d r hr := by
    obtain rfl : r = restoredRecord := by simpa [restoredNode] using List.mem_of_find?_eq_some hr
    exact ⟨rfl, rfl, rfl, rfl⟩
  ids := by decide +kernel
  random := ⟨_, _, rfl, rfl⟩

theorem cleanup_pass_converges_iff_due :
    ((Service.cleanupMigration zeroSha "m").exec sampleFleet.handle cleanupDue).1 = .ok () ∧
      (((Service.cleanupMigration zeroSha "m").exec sampleFleet.handle cleanupDue).2.db.run "m").map (·.cleanupPending) =
        some false :=
  (cleanup_pass_converges_iff cleanupDue_ready).mpr (by decide +kernel)

def cleanupLost : List (Label Task) :=
  [.start (.run "w" "m")] ++ answered 0 42 ++ [.call 0 (.lost "connection reset")] ++ answered 0 1 ++
    [.start (.cleanup "m")] ++ answered 1 15

theorem cleanup_retry_stuck : ∃ s : Config Resp Task (World Fleet),
    Run (panel zeroSha sampleFleet).next (fun _ _ => True) leavingBare cleanupLost s ∧ s.ended 1 = true ∧
      s.world.db.status "m" = some .completed ∧ (s.world.db.run "m").map (·.cleanupPending) = some true := by decide +kernel

end ForgePlane
