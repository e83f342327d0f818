import ForgePlane.Power

/-!
# The copy that is cleaned up

`CleanupTransferSource` destroys the server on the node it is sent to. A cleanup pass reads the source when
the server's row already names the target, and so sends it to the owner.
-/

namespace ForgePlane

open Fleet Service

def Fleet.restored (f : Fleet) (url id : String) : Bool :=
  (f.node url).any fun n => (n.load id .destinationUpload).any fun r => decide (r.phase = .restored)

theorem Engine.finalizeDestination_refused {H : Sha256} {now : Nat} {n : Node} {id credential : String}
    (h : ∀ r, n.load id .destinationUpload = some r → r.phase ≠ .restored) :
    ∃ e, (finalizeDestination H now n id credential).1 = .error e := by
  unfold finalizeDestination
  split
  · exact ⟨_, rfl⟩
  · rename_i r hr
    have hload : n.load id .destinationUpload = some r := by
      unfold authorize at hr
      split at hr
      · cases hr
      · rename_i r' hload
        iterate 4
          split at hr
          · cases hr
        rw [hload, Except.ok.inj hr]
    rw [if_pos (h r hload)]
    exact ⟨_, rfl⟩

theorem Fleet.finalize_refused {H : Sha256} {sites : String → Site} {now : Nat} {f : Fleet} {url id credential : String}
    (h : f.restored url id = false) :
    ∃ e, (f.serve H sites now url (.finalizeTransferDestination id credential)).1 = .error e := by
  simp [serve, onNode]
  split
  · exact ⟨_, rfl⟩
  · rename_i n hn
    simp [Beacon.bearer]
    split
    · exact ⟨_, rfl⟩
    · refine Engine.finalizeDestination_refused fun r hr hp => ?_
      simp [restored, hn, hr, hp] at h

/-! ## Who may clean up -/

inductive Cleaner where
  | idle
  | working
  | committed
  | pass

def cleaner (ρ : Route) : Monitor Resp Cleaner where
  admits m c :=
    match c with
    | .daemon url (.cleanupTransferSource ..) => m = .committed ∧ url = ρ.sourceURL
    | .tx (.finalizeMigration i) => i = ρ.migrationID ∧ m = .working
    | .tx t => t.completes = false
    | _ => True
  expects m c r :=
    match m, c, r with
    | .working, c, r => ρ.Expected c r
    | .pass, .daemon _ (.finalizeTransferDestination ..), .ok _ => False
    | _, _, _ => True
  next m c r :=
    match c, r with
    | .tx (.finalizeMigration _), .ok _ => .committed
    | _, _ => m

section
variable {ρ : Route}
variable {c : Call} {id sc dc : String} {source target : ServerProvisionTarget}

def Call.uncommitted : Call → Bool
  | .daemon _ (.cleanupTransferSource ..) => false
  | .tx t => !t.completes
  | _ => true

theorem cleaner_silent (h : c.uncommitted = true) (L : Cleaner → Prop) : (cleaner ρ).Silent L c := by
  intro m _
  cases c with
  | daemon url q => cases q <;> first | exact ⟨trivial, fun _ _ => rfl⟩ | cases h
  | tx t =>
    have ht : t.completes = false := by simpa [Call.uncommitted] using h
    cases t <;> first | exact ⟨ht, fun _ _ => rfl⟩ | cases ht
  | _ => exact ⟨trivial, fun _ _ => rfl⟩

theorem uncommitted_read {t : Tx} (h : t.reads = true) : (Call.tx t).uncommitted = true := by
  simp [Call.uncommitted, reads_not_completes h]

theorem uncommitted_neutral (h : Neutral id c) : c.uncommitted = true := by
  cases h with
  | read t ht => exact uncommitted_read ht
  | progress phase e size checksum hp => cases phase <;> first | rfl | cases hp
  | _ => rfl

theorem cleaner_fail {cause : Err} {created : Bool} {m : Cleaner} :
    wp (cleaner ρ) (fail id cause source target created sc dc) (fun _ _ => True) m := by
  have hall : All (fun c => Call.uncommitted c = true) (fail id cause source target created sc dc) :=
    All_fail (fun _ => uncommitted_read) (fun _ _ => rfl) (fun _ => rfl) (fun _ => rfl) rfl rfl fun _ => rfl
  exact (hall.mono fun _ h => cleaner_silent h fun _ => True).wp trivial fun _ => trivial

theorem cleaner_release {x : Service.Attempt} (hsource : x.source.nodeURL = ρ.sourceURL) :
    wp (cleaner ρ) (releaseSource x) (fun _ _ => True) .committed := by
  refine ⟨trivial, forall_result fun _ _ => ?_⟩
  exact ⟨⟨rfl, hsource⟩, forall_result fun _ _ => ⟨rfl, fun _ _ => trivial⟩⟩

theorem cleaner_run (H : Sha256) (worker : String) :
    wp (cleaner ρ) (run H worker ρ.migrationID) (fun _ _ => True) .working := by
  let A (x : Service.Attempt) (m : Cleaner) : Prop := m = .working ∧ ρ.Found (x.source, x.target)
  have O : Outline (cleaner ρ) ρ.migrationID (· = .working) A A A A (fun _ => True) := {
    silent := fun _ h => cleaner_silent (uncommitted_neutral h) _
    live := fun _ _ h => h.1
    ready := fun _ _ h => h.1
    prepared := fun _ _ h => h
    prepare := fun _ _ _ h => ⟨trivial, fun _ _ => h⟩
    configured := fun _ _ h => h
    configure := fun _ _ _ h => ⟨trivial, fun _ _ => h⟩
    create := fun _ _ _ h => ⟨trivial, fun _ _ => by split <;> exact h⟩
    resume := fun _ _ _ h => h
    commit := fun x m _ h => by
      refine ⟨⟨rfl, h.1⟩, fun _ => ?_, fun _ _ => cleaner_fail⟩
      rw [wp_bind]
      exact wp_mono (fun _ _ _ => ⟨rfl, fun _ _ => trivial⟩) (cleaner_release h.2.1)
    fail := fun x m cause _ _ => cleaner_fail }
  have hread : ∀ t : Tx, t.reads = true → (cleaner ρ).admits .working (.tx t) ∧
      ∀ r, (cleaner ρ).expects .working (.tx t) r → (cleaner ρ).next .working (.tx t) r = .working :=
    fun t ht => cleaner_silent (uncommitted_read ht) (· = .working) _ rfl
  exact Worker.run_located_wp O H worker (wp_migrationProvisionTargets hread fun _ _ h => h) rfl trivial
    (fun x _ hfound => ⟨rfl, hfound⟩) fun e => cleaner_fail

theorem cleaner_pass (H : Sha256) (id : String) :
    wp (cleaner ρ) (ignore (cleanupMigration H id)) (fun _ _ => True) .pass := by
  have hreads : ∀ t : Tx, t.reads = true → (cleaner ρ).Silent (· = .pass) (.tx t) :=
    fun t ht => cleaner_silent (uncommitted_read ht) _
  rw [ignore, wp_bind, cleanupMigration, wp_bind]
  refine (All_getMigration hreads id).wp rfl (forall_result fun migration => ?_)
  simp only
  split
  · trivial
  rw [wp_bind]
  refine (All_migrationProvisionTargets hreads id).wp rfl (forall_result fun targets => ?_)
  refine ⟨trivial, fun now _ => ?_⟩
  -- two credentials and two registrations
  iterate 4
    refine ⟨trivial, fun r _ => ?_⟩
    cases r with
    | error => trivial
    | ok => ?_
  exact ⟨trivial, forall_result fun _ hr => hr.elim⟩

theorem cleaner_cancel (H : Sha256) (id : String) :
    wp (cleaner ρ) (Task.program H (.cancel id)) (fun _ _ => True) .idle := by
  have hall : All (fun c => Call.uncommitted c = true) (Task.program H (.cancel id)) :=
    All_ignore (All_cancelMigration (fun _ => uncommitted_read) H rfl rfl (fun _ _ _ => rfl) (fun _ _ => rfl) rfl rfl
      fun _ => rfl)
  exact (hall.mono fun _ h => cleaner_silent h fun _ => True).wp trivial fun _ => trivial

end

/-! ## Who owns the server -/

structure DB.Moved (db : DB) (ρ : Route) : Prop where
  follows : db.Follows ρ
  owner : db.phase ρ.migrationID = some .completed → db.Hosts ρ.target ρ.serverID

section
variable {now : Nat} {db db' : DB} {t : Tx} {ρ : Route}

theorem Effect.target_stays (h : Effect now db t db') (ht : ∀ i, t = .finalizeMigration i → i = ρ.migrationID)
    (hf : db.Follows ρ) (hh : db.Hosts ρ.target ρ.serverID) : db'.Hosts ρ.target ρ.serverID := by
  obtain ⟨s, hs, hn⟩ := hh
  obtain hs' | ⟨i, m, a, hfin, hc, -, hs'⟩ := h.server hs
  · exact ⟨s, hs', hn⟩
  · obtain rfl := ht i hfin
    obtain ⟨m', hm', -, -, hb⟩ := hf.migration
    cases hc.migration.symm.trans hm'
    exact ⟨_, hs', hb⟩

theorem Committing.target_hosts {m : MigrationRow} {a : String} (hc : Committing db ρ.migrationID m a)
    (hf : db.Follows ρ) : (db.commitOwnership m a).Hosts ρ.target ρ.serverID := by
  obtain ⟨m', hm', hv, -, hb⟩ := hf.migration
  cases hc.migration.symm.trans hm'
  obtain ⟨s, hs, -⟩ := hc.owner
  exact ⟨_, by rw [DB.server_commitOwnership, if_pos hv.symm, ← hv, hs]; rfl, hb⟩

theorem DB.Moved.commit (h : db.Moved ρ) (hfin : db.finalizeMigration ρ.migrationID = .ok db') :
    db'.Hosts ρ.target ρ.serverID := by
  obtain ⟨rfl, r, hr, hp⟩ | ⟨m, a, hc, rfl⟩ := DB.finalizeMigration_cases hfin
  · exact h.owner (by simp [DB.phase, hr, hp])
  · exact hc.target_hosts h.follows

theorem Effect.moved (h : Effect now db t db') (ht : t = .finalizeMigration ρ.migrationID ∨ t.completes = false)
    (hm : db.Moved ρ) : db'.Moved ρ := by
  have honly : ∀ i, t = .finalizeMigration i → i = ρ.migrationID := by
    rintro i rfl
    obtain h | h := ht
    · cases h; rfl
    · cases h
  refine ⟨h.follows hm.follows, fun hdone => ?_⟩
  by_cases hopen : db.phase ρ.migrationID = some .completed
  · exact h.target_stays honly hm.follows (hm.owner hopen)
  obtain rfl | ht := ht
  · cases h with
    | rest _ _ hrest =>
      rw [DB.phase, DB.run, hrest.2.1] at hdone
      exact absurd hdone hopen
    | commit _ m a hc => exact hc.target_hosts hm.follows
  · exact absurd hdone (h.not_completed ht hopen)

end

section
variable {H : Sha256} {sites : String → Site} {P : Platform Unit} {ρ : Route}

/-- A worker reads the address of the source while the server is there, and a cleanup pass finds a destination that
cannot be finalised, or is not told that it was. -/
def spares (ρ : Route) (s : Config Resp Task (World Fleet)) : Label Task → Bool
  | .start (.run _ id) | .start (.cleanup id) | .start (.cancel id) => id = ρ.migrationID
  | .start _ => false
  | .call i o =>
    match s.pending i with
    | some (.run .., .tx (.serverProvisionTarget id)) =>
      id ≠ ρ.serverID || (s.world.db.server id).all fun sv => decide (sv.nodeID = ρ.source)
    | some (.cleanup _, .daemon url (.finalizeTransferDestination id _)) =>
      o ≠ .delivered || !s.world.fleet.restored url id
    | _ => true
  | _ => true

def Cleaner.fits : Task → Cleaner → Prop
  | .run .., m => m = .working ∨ m = .committed
  | .cleanup _, m => m = .pass
  | _, m => m = .idle

def Cleaning (ρ : Route) (w : World Fleet) (t : Task) (p : Action Unit) : Prop :=
  ∃ m : Cleaner, m.fits t ∧ wp (cleaner ρ) p (fun _ _ => True) m ∧
    (m = .committed → w.db.Hosts ρ.target ρ.serverID)

variable {w w' : World Fleet} {t : Task} {o : Outcome} {c : Call} {r : Resp c} {m : Cleaner}

theorem Cleaning.mono {p : Action Unit}
    (hh : w.db.Hosts ρ.target ρ.serverID → w'.db.Hosts ρ.target ρ.serverID) (h : Cleaning ρ w t p) : Cleaning ρ w' t p := by
  obtain ⟨m, hm, hp, hc⟩ := h
  exact ⟨m, hm, hp, fun he => hh (hc he)⟩

theorem cleaner_expects {s : Config Resp Task (World Fleet)} {i : Nat}
    (ha : spares ρ s (.call i o) = true) (hpending : s.pending i = some (t, c))
    (hm : m.fits t) (hf : s.world.db.Follows ρ)
    (hr : (panel H (platform H sites P)).answer s.world c o = some (r, w)) : (cleaner ρ).expects m c r := by
  simp [spares, hpending] at ha
  cases m with
  | working =>
    refine answer_expected hr hf fun hc sv hs => ?_
    subst hc
    cases t with
    | run => simpa [hs] using ha
    | _ => cases hm
  | pass =>
    cases t with
    | cleanup =>
      cases c with
      | daemon url q =>
        cases q with
        | finalizeTransferDestination i' credential =>
          cases r with
          | error => trivial
          | ok =>
            obtain ⟨-, ⟨e, -, he, -⟩ | ⟨-, ⟨rfl, he⟩ | ⟨e, -, he⟩⟩⟩ := answer_daemon hr
            · cases he
            · have hnot : s.world.fleet.restored url i' = false := by simpa using ha
              obtain ⟨e, hrefused⟩ := @finalize_refused H sites s.world.now s.world.fleet url i' credential hnot
              rw [hrefused] at he
              cases he
            · cases he
        | _ => trivial
      | _ => trivial
    | run => obtain h | h := hm <;> cases h
    | _ => cases hm
  | _ => trivial

theorem cleaner_next
    (hadm : (cleaner ρ).admits m c) (hm : m.fits t) (hI : w.db.Moved ρ)
    (hhosts : m = .committed → w'.db.Hosts ρ.target ρ.serverID)
    (hr : (panel H (platform H sites P)).answer w c o = some (r, w')) :
    ((cleaner ρ).next m c r).fits t ∧ ((cleaner ρ).next m c r = .committed → w'.db.Hosts ρ.target ρ.serverID) := by
  cases c with
  | tx x =>
    cases x with
    | finalizeMigration =>
      obtain ⟨rfl, rfl⟩ := hadm
      cases r with
      | error => exact ⟨hm, nofun⟩
      | ok =>
        refine ⟨?_, fun _ => ?_⟩
        · cases t with
          | run => exact .inr rfl
          | _ => cases hm
        · have hexec := answer_ok hr
          simp [Tx.exec] at hexec
          cases hf : w.db.finalizeMigration ρ.migrationID with
          | error =>
            rw [hf] at hexec
            cases hexec
          | ok db' =>
            rw [hf] at hexec
            have hdb : db' = w'.db := congrArg Prod.snd hexec
            rw [← hdb]
            exact hI.commit hf
    | _ => exact ⟨hm, hhosts⟩
  | _ => exact ⟨hm, hhosts⟩

theorem cleaning_inv : ThreadInv (panel H (platform H sites P)) (fun s l => spares ρ s l = true)
    (fun w => w.db.Moved ρ) (Cleaning ρ) where
  start s t _ ha := by
    cases t with
    | run worker id =>
      obtain rfl : id = ρ.migrationID := of_decide_eq_true ha
      exact ⟨.working, .inl rfl, cleaner_run H worker, nofun⟩
    | cleanup id => exact ⟨.pass, rfl, cleaner_pass H id, nofun⟩
    | cancel id => exact ⟨.idle, rfl, cleaner_cancel H id, nofun⟩
    | _ => cases ha
  stop w t _ := by
    cases t with
    | run => exact ⟨.working, .inl rfl, trivial, nofun⟩
    | cleanup => exact ⟨.pass, rfl, trivial, nofun⟩
    | _ => exact ⟨.idle, rfl, trivial, nofun⟩
  tick w d hI := ⟨hI, fun _ _ h => h⟩
  call s i o t c k r w hI hJ ha hi hr := by
    obtain ⟨m, hm, ⟨hadm, hnext⟩, hhosts⟩ := mem_at hJ hi
    have hexp := cleaner_expects ha (Config.pending_eq hi) hm hI.follows hr
    -- what the call does to the rows
    have hstep : w.db.Moved ρ ∧ (s.world.db.Hosts ρ.target ρ.serverID → w.db.Hosts ρ.target ρ.serverID) := by
      obtain hdb | ⟨x, rfl, hdb⟩ := answer_db hr
      · rw [hdb]
        exact ⟨hI, id⟩
      · have hx : x = .finalizeMigration ρ.migrationID ∨ x.completes = false := by
          cases x with
          | finalizeMigration => exact .inl (by rw [hadm.1])
          | _ => exact .inr hadm
        have heffect : Effect s.world.now s.world.db x w.db := hdb ▸ x.effect _ _
        refine ⟨heffect.moved hx hI, heffect.target_stays (fun j hj => ?_) hI.follows⟩
        subst hj
        exact hadm.1
    refine ⟨hstep.1, ?_, fun j t' p _ hj => (mem_at hJ hj).mono hstep.2⟩
    obtain ⟨hfits, hmoved⟩ := cleaner_next hadm hm hI (fun he => hstep.2 (hhosts he)) hr
    exact ⟨_, hfits, hnext r hexp, hmoved⟩

/-- Every `CleanupTransferSource` goes to the migration's source node, which is not the node that
owns the server, if no step endangers that. -/
theorem cleanup_spares_owner {s₀ s₁ : Config Resp Task (World Fleet)} {ls : List (Label Task)} {l : Label Task}
    {task : Task} {url id credential : String} (hapart : ρ.targetURL ≠ ρ.sourceURL) (hidle : s₀.threads = [])
    (hmoved : s₀.world.db.Moved ρ)
    (h : Run (panel H (Fleet.platform H sites P)).next (fun s l => spares ρ s l = true) s₀ ls s₁)
    (hsend : s₁.sends l = some (task, .daemon url (.cleanupTransferSource id credential))) :
    url = ρ.sourceURL ∧
      ∃ sv n, s₁.world.db.server ρ.serverID = some sv ∧ s₁.world.db.node sv.nodeID = some n ∧ n.baseURL ≠ url := by
  obtain ⟨hI, hJ⟩ := cleaning_inv.run ⟨hmoved, by simp [hidle]⟩ h
  obtain ⟨k, hk⟩ := Config.sends_mem hsend
  obtain ⟨m, -, ⟨⟨hm, hurl⟩, -⟩, hhosts⟩ := hJ _ hk
  obtain ⟨sv, hs, hnode⟩ := hhosts hm
  obtain ⟨n, hn, hbase⟩ := Option.map_eq_some_iff.mp hI.follows.target
  refine ⟨hurl, sv, n, hs, by rw [hnode]; exact hn, ?_⟩
  rw [hbase, hurl]
  exact hapart

end

def bareNode : Node :=
  { homeNode with host := homeNode.host.setTree someServer (some [(["world.dat"], .file (.text "data"))]) }

def leavingBare : Config Resp Task (World Fleet) :=
  ⟨{ db := leavingDB, now := 1000, fleet := [("http://a", bareNode), ("http://b", { token := "b.t" })] }, []⟩

theorem leavingBare_moved : leavingBare.world.db.Moved leavingRoute :=
  ⟨leaving_follows, fun h => by cases h⟩

def cleaning (i : Nat) (s : Config Resp Task (World Fleet)) : Option String × Option String :=
  (match s.pending i with
    | some (_, .daemon url (.cleanupTransferSource ..)) => some url
    | _ => none,
   ((s.world.db.server someServer).bind fun sv => s.world.db.node sv.nodeID).map (·.baseURL))

def workerCleansUp : List (Label Task) := [.start (.run "w" "m")] ++ answered 0 42

theorem cleaning_sends {i : Nat} {s : Config Resp Task (World Fleet)} {url : String} (h : (cleaning i s).1 = some url) :
    ∃ task id credential, s.sends (.call i .delivered) = some (task, .daemon url (.cleanupTransferSource id credential)) := by
  simp [cleaning] at h
  split at h
  · rename_i task url' id credential hp
    cases h
    exact ⟨task, id, credential, hp⟩
  · cases h

theorem cleanup_spares_owner_worker : ∃ s : Config Resp Task (World Fleet),
    Run (panel zeroSha sampleFleet).next (fun s l => spares leavingRoute s l = true) leavingBare workerCleansUp s ∧
    cleaning 0 s = (some "http://a", some "http://b") ∧
    ∃ sv n, s.world.db.server someServer = some sv ∧ s.world.db.node sv.nodeID = some n ∧ n.baseURL ≠ "http://a" := by
  refine exists_run_and (by decide +kernel) fun s hr hv => ?_
  obtain ⟨task, id, credential, hsend⟩ := cleaning_sends (congrArg Prod.fst hv)
  exact (cleanup_spares_owner (ρ := leavingRoute) (by decide) rfl leavingBare_moved hr hsend).2

def passCleansUp : List (Label Task) :=
  [.start (.run "w" "m")] ++ answered 0 41 ++ [.call 0 (.lost "connection reset")] ++ answered 0 1 ++
    [.start (.cleanup "m")] ++ answered 1 15

theorem cleanup_pass_reaches_owner : ∃ s : Config Resp Task (World Fleet),
    Run (panel zeroSha sampleFleet).next (fun _ _ => True) leavingBare passCleansUp s ∧
    cleaning 1 s = (some "http://b", some "http://b") := by decide +kernel

end ForgePlane
