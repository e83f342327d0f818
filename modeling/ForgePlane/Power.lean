import ForgePlane.Leftover
import ForgePlane.Placement

/-!
# The power state of the source

Preparing the source stops its workload; `fail` starts it, whether or not it ran before, and nothing
else does.
-/

namespace ForgePlane

open Fleet Service

def Fleet.power (f : Fleet) (u v : String) : Option Bool := (f.workload u v).map (·.running)

def Call.steadying : Call → Bool
  | .daemon _ q => q.keepsWorkloads
  | .tx t => !t.completes
  | _ => true

variable {t : Tx}

theorem reads_not_completes (h : t.reads = true) : t.completes = false := by
  cases t <;> first | rfl | cases h

theorem steadying_cancel (H : Sha256) (id : String) :
    All (fun c => Call.steadying c = true) (Task.program H (.cancel id)) :=
  All_ignore (All_cancelMigration (fun _ ht => by simp [Call.steadying, reads_not_completes ht]) H rfl rfl
    (fun _ _ _ => rfl) (fun _ _ => rfl) rfl rfl fun _ => rfl)

/-! ## A run and the source -/

inductive SourcePower where
  | untouched
  | prepared
  | failing
  | settled
  | committed

def sourcePower (ρ : Route) : Monitor Resp SourcePower where
  admits m c :=
    match c with
    | .daemon url q =>
      match q with
      | .prepareTransferSource .. => m = .untouched
      | .startServer _ serverID => m ≠ .committed ∧ url = ρ.sourceURL ∧ serverID = ρ.serverID
      | .cleanupTransferSource .. => m = .committed
      | .syncServerConfiguration .. | .createServer .. | .deleteServer .. => url ≠ ρ.sourceURL
      | _ => True
    | .tx (.finalizeMigration id) => id = ρ.migrationID ∧ (m = .untouched ∨ m = .prepared)
    | .tx t => t.completes = false
    | _ => True
  expects m c r := m = .untouched → ρ.Expected c r
  next m c r :=
    match c, r with
    | .daemon _ (.prepareTransferSource ..), _ => .prepared
    | .daemon _ (.startServer ..), _ => .settled
    | .tx (.finalizeMigration _), .ok _ => .committed
    | .tx (.finalizeMigration _), .error _ => .failing
    | _, _ => m

def SourcePower.Holds (ρ : Route) (p : Option Bool) (m : SourcePower) (w : World Fleet) : Prop :=
  let now := w.fleet.power ρ.sourceURL ρ.serverID
  match m with
  | .untouched => w.db.Follows ρ ∧ w.db.Hosts ρ.source ρ.serverID ∧ w.db.phase ρ.migrationID ≠ some .completed ∧ now = p
  | .prepared => w.db.phase ρ.migrationID ≠ some .completed ∧ (now = p ∨ now = p.map fun _ => false)
  | .failing => now = p ∨ now = p.map fun _ => false
  | .settled => now = p
  | .committed => w.db.status ρ.migrationID = some .completed

def SourcePower.over : SourcePower → Prop
  | .untouched | .settled | .committed => True
  | _ => False

def SourcePower.early (m : SourcePower) : Prop := m = .untouched ∨ m = .prepared

section
variable {ρ : Route}
variable {c : Call} {cause : Err} {m : SourcePower}

theorem sourcePower_tx {L : SourcePower → Prop} (ht : t.completes = false) : (sourcePower ρ).Silent L (.tx t) := by
  intro m _
  cases t <;> first | exact ⟨ht, fun _ _ => rfl⟩ | cases ht

theorem sourcePower_neutral (h : Neutral ρ.migrationID c) : (sourcePower ρ).Silent SourcePower.early c := by
  cases h with
  | read t ht => exact sourcePower_tx (reads_not_completes ht)
  | progress phase e size checksum hp =>
    refine sourcePower_tx ?_
    cases phase <;> first | rfl | cases hp
  | claim | hashes | status => exact sourcePower_tx rfl
  | _ => exact fun m _ => ⟨trivial, fun _ _ => rfl⟩

theorem sourcePower_released (h : Released ρ.migrationID c) : (sourcePower ρ).Silent (· = .committed) c := by
  rintro m rfl
  cases h <;> exact ⟨by trivial, fun _ _ => rfl⟩

theorem sourcePower_failed (h : m.over) :
    wp (sourcePower ρ) (do
        ignore (tx (.failMigrationRun ρ.migrationID cause))
        ignore (markFailed ρ.migrationID cause)) (fun _ => SourcePower.over) m := by
  have hall : All ((sourcePower ρ).Silent SourcePower.over) (do
      ignore (tx (.failMigrationRun ρ.migrationID cause))
      ignore (markFailed ρ.migrationID cause)) := by
    refine All.bind (All_ignore (All_tx (sourcePower_tx rfl))) fun _ => ?_
    exact All_ignore (All_markFailed (fun t ht => sourcePower_tx (reads_not_completes ht)) (sourcePower_tx rfl)
      fun _ => sourcePower_tx rfl)
  exact hall.wp h fun _ => h

theorem sourcePower_fail_early :
    wp (sourcePower ρ) (fail ρ.migrationID cause {} {} false "" "") (fun _ => SourcePower.over) .untouched :=
  sourcePower_failed trivial

theorem sourcePower_fail {x : Service.Attempt} {created : Bool}
    (hx : x.id = ρ.migrationID) (hfound : ρ.Found (x.source, x.target)) (hne : ρ.sourceURL ≠ "")
    (hapart : ρ.targetURL ≠ ρ.sourceURL) (hm : m ≠ .committed) :
    wp (sourcePower ρ) (x.fail cause created) (fun _ => SourcePower.over) m := by
  obtain ⟨hsource, hserver, htarget, -⟩ := hfound
  have hsend : decide (x.source.nodeURL ≠ "") = true := decide_eq_true (hsource.trans_ne hne)
  have hcancel : ∀ url credential, (sourcePower ρ).Silent (· = m) (.daemon url (.cancelTransfer x.id credential)) :=
    fun _ _ _ _ => ⟨trivial, fun _ _ => rfl⟩
  have hdelete : (sourcePower ρ).Silent (· = m) (.daemon x.target.nodeURL (.deleteServer x.target.nodeToken x.target.serverID)) :=
    fun _ _ => ⟨htarget.trans_ne hapart, fun _ _ => rfl⟩
  unfold Service.Attempt.fail fail
  rw [wp_bind]
  refine (All_sendIf fun _ => hcancel _ _).wp rfl fun _ => ?_
  rw [wp_bind]
  refine (All_sendIf fun _ => hdelete).wp rfl fun _ => ?_
  rw [wp_bind]
  refine (All_sendIf fun _ => hcancel _ _).wp rfl fun _ => ?_
  rw [wp_bind, hsend, hx]
  exact ⟨⟨hm, hsource, hserver⟩, fun r _ => sourcePower_failed trivial⟩

theorem sourcePower_run (H : Sha256) (worker : String) (hne : ρ.sourceURL ≠ "") (hapart : ρ.targetURL ≠ ρ.sourceURL) :
    wp (sourcePower ρ) (run H worker ρ.migrationID) (fun _ => SourcePower.over) .untouched := by
  let B (x : Service.Attempt) (m : SourcePower) : Prop := m.early ∧ ρ.Found (x.source, x.target)
  have hnot : ∀ m : SourcePower, m.early → m ≠ .committed := by rintro m (rfl | rfl) <;> nofun
  have O : Outline (sourcePower ρ) ρ.migrationID SourcePower.early
      (fun x m => m = .untouched ∧ ρ.Found (x.source, x.target)) B B B SourcePower.over := {
    silent := fun _ => sourcePower_neutral
    live := fun _ _ h => h.1
    ready := fun _ _ h => h.1
    prepared := fun _ _ h => ⟨.inl h.1, h.2⟩
    prepare := fun x m _ h => ⟨h.1, fun _ _ => ⟨.inr rfl, h.2⟩⟩
    configured := fun _ _ h => h
    configure := fun x m _ h => ⟨h.2.2.2.1.trans_ne hapart, fun _ _ => h⟩
    create := fun x m _ h => ⟨h.2.2.2.1.trans_ne hapart, fun _ _ => by split <;> exact h⟩
    resume := fun _ _ _ h => ⟨.inl h.1, h.2⟩
    commit := fun x m hx h => by
      refine ⟨⟨rfl, h.1⟩, fun _ => ?_, fun e _ => sourcePower_fail hx h.2 hne hapart nofun⟩
      refine wp_mono (fun _ m hm => ?_) (Worker.released_wp hx (fun _ => sourcePower_released) rfl)
      rw [hm]
      trivial
    fail := fun x m cause hx h => sourcePower_fail hx h.2 hne hapart (hnot m h.1) }
  have hread : ∀ t : Tx, t.reads = true → (sourcePower ρ).admits .untouched (.tx t) ∧
      ∀ r, (sourcePower ρ).expects .untouched (.tx t) r → (sourcePower ρ).next .untouched (.tx t) r = .untouched :=
    fun t ht => sourcePower_neutral (.read t ht) _ (.inl rfl)
  refine Worker.run_located_wp O H worker (wp_migrationProvisionTargets hread fun _ _ h => h rfl) (.inl rfl) trivial
    (fun x _ hfound => ⟨rfl, hfound⟩) fun e => sourcePower_fail_early

end

variable {db db' : DB} {id : String}

theorem Effect.stays_completed {now : Nat} (h : Effect now db t db')
    (ht : ∀ st reason, t ≠ .updateMigrationStatus id st reason) (hs : db.status id = some .completed) :
    db'.status id = some .completed := by
  obtain ⟨m, hm, hst⟩ := Option.map_eq_some_iff.mp hs
  obtain hm' | ⟨m', hw, hm'⟩ := h.migration hm
  · simp [DB.status, hm', hst]
  · cases hw with
    | status st reason => exact absurd rfl (ht st reason)
    | commit => simp [DB.status, hm']

theorem finalize_completes (hopen : db.phase id ≠ some .completed)
    (h : db.finalizeMigration id = .ok db') : db'.status id = some .completed := by
  obtain ⟨-, r, hr, hp⟩ | ⟨m, a, hc, rfl⟩ := DB.finalizeMigration_cases h
  · exact absurd (by simp [DB.phase, hr, hp]) hopen
  · have hkey : m.id = id := rowAt_key hc.migration
    rw [DB.status, DB.migration_commitOwnership, if_pos hkey.symm, hc.migration]
    rfl

section
variable {H : Sha256} {sites : String → Site} {P : Platform Unit} {ρ : Route} {p : Option Bool} {worker : String}

/-- A start that takes effect finds a server that ran at the start, one that does not finds it as it was; the worker
is not killed while it has the source stopped; a completed migration keeps its status. -/
def steady (sites : String → Site) (ρ : Route) (p : Option Bool) (s : Config Resp Task (World Fleet)) : Label Task → Bool
  | .start t => t = .cancel ρ.migrationID
  | .crash i => i ≠ 0 || decide (s.world.fleet.power ρ.sourceURL ρ.serverID = p) ||
      decide (s.world.db.status ρ.migrationID = some .completed)
  | .call i o =>
    match s.pending i with
    | some (_, .daemon url (.startServer token serverID)) =>
      if !o.isLost && s.world.fleet.starts sites url token serverID then p ≠ some false
      else s.world.fleet.power ρ.sourceURL ρ.serverID = p
    | some (_, .tx (.updateMigrationStatus id _ _)) =>
      id ≠ ρ.migrationID || decide (s.world.db.status ρ.migrationID ≠ some .completed)
    | _ => true
  | _ => true

variable {m : SourcePower} {w w' : World Fleet} {o : Outcome}

theorem SourcePower.Holds.mono (hpower : w'.fleet.power ρ.sourceURL ρ.serverID = w.fleet.power ρ.sourceURL ρ.serverID)
    (hfollows : w.db.Follows ρ → w'.db.Follows ρ)
    (hhosts : w.db.Hosts ρ.source ρ.serverID → w'.db.Hosts ρ.source ρ.serverID)
    (hphase : w.db.phase ρ.migrationID ≠ some .completed → w'.db.phase ρ.migrationID ≠ some .completed)
    (hstatus : w.db.status ρ.migrationID = some .completed → w'.db.status ρ.migrationID = some .completed)
    (h : m.Holds ρ p w) : m.Holds ρ p w' := by
  cases m with
  | untouched =>
    obtain ⟨hf, hh, hp, hnow⟩ := h
    exact ⟨hfollows hf, hhosts hh, hphase hp, hpower.trans hnow⟩
  | prepared =>
    refine ⟨hphase h.1, ?_⟩
    rw [hpower]
    exact h.2
  | failing =>
    simp [SourcePower.Holds, hpower]
    exact h
  | settled => exact hpower.trans h
  | committed => exact hstatus h

variable {url reason token credential : String} {c : Call} {r : Resp c} {s : Config Resp Task (World Fleet)} {i : Nat} {t : Task}

theorem SourcePower.Holds.request {q : DaemonReq} {r : Except Err q.Val}
    (hq : q.keepsWorkloads = true ∨ ρ.sourceURL ≠ url)
    (hr : (panel H (platform H sites P)).answer w (.daemon url q) o = some (r, w')) (h : m.Holds ρ p w) :
    m.Holds ρ p w' := by
  obtain ⟨hdb, hfleet⟩ := answer_daemon hr
  refine h.mono ?_ (by rw [hdb]; exact id) (by rw [hdb]; exact id) (by rw [hdb]; exact id) (by rw [hdb]; exact id)
  obtain ⟨e, -, -, hf⟩ | ⟨hf, -⟩ := hfleet
  · rw [hf]
  · rw [hf, power, workload_serve hq, power]

theorem SourcePower.Holds.other (hc : c.isDaemon = false)
    (hcompletes : ∀ t, c = .tx t → t.completes = false)
    (hstatus : ∀ st reason, c = .tx (.updateMigrationStatus ρ.migrationID st reason) →
      w.db.status ρ.migrationID ≠ some .completed)
    (hr : (panel H (platform H sites P)).answer w c o = some (r, w')) (h : m.Holds ρ p w) : m.Holds ρ p w' := by
  have hpower := congrArg (power · ρ.sourceURL ρ.serverID) (answer_fleet hc hr)
  obtain hdb | ⟨t, rfl, hdb⟩ := answer_db hr
  · exact h.mono hpower (by rw [hdb]; exact id) (by rw [hdb]; exact id) (by rw [hdb]; exact id) (by rw [hdb]; exact id)
  · have heffect : Effect w.now w.db t w'.db := hdb ▸ t.effect w.now w.db
    have hnot := hcompletes t rfl
    refine h.mono hpower heffect.follows (heffect.hosts fun i ht => ?_) (heffect.not_completed hnot) fun hs => ?_
    · rw [ht] at hnot
      cases hnot
    · exact heffect.stays_completed (fun st reason ht => hstatus st reason (by rw [ht]) hs) hs

variable (ha : steady sites ρ p s (.call i o) = true)
include ha

theorem steady_status {st : MigrationStatus}
    (hsend : s.sends (.call i o) = some (t, c))
    (hc : c = .tx (.updateMigrationStatus ρ.migrationID st reason)) : s.world.db.status ρ.migrationID ≠ some .completed := by
  subst hc
  have hpending : s.pending i = some (t, _) := hsend
  simpa [steady, hpending] using ha

theorem steady_start {r : Except Err Unit}
    (hsend : s.sends (.call i o) = some (t, .daemon ρ.sourceURL (.startServer token ρ.serverID)))
    (hr : (panel H (platform H sites P)).answer s.world (.daemon ρ.sourceURL (.startServer token ρ.serverID)) o =
      some (r, w'))
    (h : s.world.fleet.power ρ.sourceURL ρ.serverID = p ∨
      s.world.fleet.power ρ.sourceURL ρ.serverID = p.map fun _ => false) :
    w'.fleet.power ρ.sourceURL ρ.serverID = p := by
  have hpending : s.pending i = some (t, _) := hsend
  simp [steady, hpending] at ha
  obtain ⟨-, ⟨e, rfl, -, hf⟩ | ⟨hf, ho⟩⟩ := answer_daemon hr
  · rw [hf]
    simpa [Outcome.isLost] using ha
  have hlost : o.isLost = false := by obtain ⟨rfl, -⟩ | ⟨e, rfl, -⟩ := ho <;> rfl
  rw [hf, power, workload_start]
  by_cases hstarts : s.world.fleet.starts sites ρ.sourceURL token ρ.serverID = true
  · have hran : p ≠ some false := by simpa [hlost, hstarts] using ha
    rw [if_pos ⟨rfl, hstarts, rfl⟩, Option.map_map]
    -- whatever the workload's state is now, it runs after the start, as it did before
    have hstarted : (s.world.fleet.workload ρ.sourceURL ρ.serverID).map
        (Container.running ∘ fun c => { c with running := true }) =
          (s.world.fleet.power ρ.sourceURL ρ.serverID).map fun _ => true := by
      rw [power, Option.map_map]
      rfl
    rw [hstarted]
    obtain h | h := h <;> rw [h] <;> match p, hran with
      | none, _ => rfl
      | some true, _ => rfl
      | some false, hran => exact absurd rfl hran
  · have hsame : s.world.fleet.power ρ.sourceURL ρ.serverID = p := by simpa [hlost, hstarts] using ha
    rw [if_neg fun hc => hstarts hc.2.1]
    exact hsame

omit ha

theorem prepare_stops {r : Except Err TransferMetadata}
    (hr : (panel H (platform H sites P)).answer w (.daemon url (.prepareTransferSource id credential)) o = some (r, w')) :
    w'.fleet.power ρ.sourceURL ρ.serverID = w.fleet.power ρ.sourceURL ρ.serverID ∨
      w'.fleet.power ρ.sourceURL ρ.serverID = (w.fleet.power ρ.sourceURL ρ.serverID).map fun _ => false := by
  obtain ⟨-, ⟨e, -, -, hf⟩ | ⟨hf, -⟩⟩ := answer_daemon hr
  · exact .inl (by rw [hf])
  · simp only [power, hf]
    obtain h | h := @workload_prepare H sites w.now w.fleet ρ.sourceURL url ρ.serverID id credential
    · exact .inl (by rw [h])
    · exact .inr (by rw [h, Option.map_map, Option.map_map]; rfl)

theorem steady_lead
    (ha : steady sites ρ p s (.call 0 o) = true) (hsend : s.sends (.call 0 o) = some (t, c))
    (hadm : (sourcePower ρ).admits m c) (h : m.Holds ρ p s.world)
    (hr : (panel H (platform H sites P)).answer s.world c o = some (r, w')) :
    ((sourcePower ρ).next m c r).Holds ρ p w' := by
  have hother : c.isDaemon = false → (∀ t, c = .tx t → t.completes = false) → m.Holds ρ p w' := fun hd hc =>
    SourcePower.Holds.other hd hc (fun st reason => steady_status ha hsend) hr h
  cases c with
  | daemon url q =>
    cases q with
    | prepareTransferSource =>
      obtain rfl : m = .untouched := hadm
      obtain ⟨-, -, hphase, hnow⟩ := h
      refine ⟨?_, ?_⟩
      · rw [(answer_daemon hr).1]
        exact hphase
      · rw [← hnow]
        exact prepare_stops hr
    | startServer =>
      obtain ⟨hm, rfl, rfl⟩ := hadm
      refine steady_start ha hsend hr ?_
      cases m with
      | untouched => exact .inl h.2.2.2
      | prepared => exact h.2
      | failing => exact h
      | settled => exact .inl h
      | committed => exact absurd rfl hm
    | cleanupTransferSource =>
      obtain rfl : m = .committed := hadm
      exact (congrArg (DB.status · ρ.migrationID) (answer_daemon hr).1).trans h
    | syncServerConfiguration | createServer | deleteServer => exact h.request (.inr (Ne.symm hadm)) hr
    | _ => exact h.request (.inl rfl) hr
  | tx t =>
    cases t with
    | finalizeMigration =>
      obtain ⟨rfl, hm⟩ := hadm
      cases r with
      | ok =>
        have hopen : s.world.db.phase ρ.migrationID ≠ some .completed := by
          obtain rfl | rfl := hm
          · exact h.2.2.1
          · exact h.1
        have hexec := answer_ok hr
        cases hf : s.world.db.finalizeMigration ρ.migrationID with
        | error => simp [Tx.exec, hf, commit] at hexec
        | ok db' =>
          have hdb : w'.db = db' := by
            simp only [Tx.exec, hf, commit] at hexec
            exact (congrArg Prod.snd hexec).symm
          have hdone := finalize_completes hopen hf
          rw [← hdb] at hdone
          exact hdone
      | error =>
        have hpower := congrArg (power · ρ.sourceURL ρ.serverID) (answer_fleet rfl hr)
        have hnow : s.world.fleet.power ρ.sourceURL ρ.serverID = p ∨
            s.world.fleet.power ρ.sourceURL ρ.serverID = p.map fun _ => false := by
          obtain rfl | rfl := hm
          · exact .inl h.2.2.2
          · exact h.2
        exact hnow.imp hpower.trans hpower.trans
    | _ => exact hother rfl fun t ht => by cases ht; exact hadm
  | _ => exact hother rfl nofun

theorem sourcePower_inv : LeaderInv (panel H (platform H sites P)) (fun s l => steady sites ρ p s l = true)
    (sourcePower ρ) (fun c => c.steadying = true) (SourcePower.Holds ρ p) SourcePower.over where
  start s t ha := by
    obtain rfl : t = .cancel ρ.migrationID := of_decide_eq_true ha
    exact steadying_cancel H ρ.migrationID
  tick m w d h := h.mono rfl id id id id
  crash s m ha h := by
    simp [steady] at ha
    obtain ha | ha := ha
    · exact ⟨.settled, ha, trivial⟩
    · exact ⟨.committed, ha, trivial⟩
  lead s o t c m r w' ha hsend hadm h hr := by
    refine ⟨?_, steady_lead ha hsend hadm h hr⟩
    rintro rfl
    exact answer_expected hr h.1 fun _ _ => h.2.1.eq
  follow s i o t c m r w' ha hsend hq h hr := by
    cases c with
    | daemon => exact h.request (.inl hq) hr
    | tx =>
      refine h.other rfl (fun t' ht => ?_) (fun st reason => steady_status ha hsend) hr
      cases ht
      simpa [Call.steadying] using hq
    | _ => exact h.other rfl (fun _ ht => Call.noConfusion ht) (fun _ _ ht => Call.noConfusion ht) hr

/-- A run that ends with its migration failed or cancelled leaves the workload on the source
running or stopped as it found it, if no step endangers that. -/
theorem unsuccessful_keeps_power {s₀ s₁ : Config Resp Task (World Fleet)} {ls : List (Label Task)}
    (hne : ρ.sourceURL ≠ "") (hapart : ρ.targetURL ≠ ρ.sourceURL)
    (hrun : s₀.threads = [(.run worker ρ.migrationID, Task.program H (.run worker ρ.migrationID))])
    (hfollows : s₀.world.db.Follows ρ) (hhosts : s₀.world.db.Hosts ρ.source ρ.serverID)
    (hopen : s₀.world.db.phase ρ.migrationID ≠ some .completed)
    (h : Run (panel H (Fleet.platform H sites P)).next
      (fun s l => steady sites ρ (s₀.world.fleet.power ρ.sourceURL ρ.serverID) s l = true) s₀ ls s₁)
    (hended : s₁.ended 0 = true)
    (hstatus : s₁.world.db.status ρ.migrationID = some .failed ∨ s₁.world.db.status ρ.migrationID = some .cancelled) :
    s₁.world.fleet.power ρ.sourceURL ρ.serverID = s₀.world.fleet.power ρ.sourceURL ρ.serverID := by
  have hled : Led (sourcePower ρ) (fun c => c.steadying = true)
      (SourcePower.Holds ρ (s₀.world.fleet.power ρ.sourceURL ρ.serverID)) SourcePower.over s₀ :=
    ⟨_, _, [], .untouched, hrun, nofun, sourcePower_run H worker hne hapart, hfollows, hhosts, hopen, rfl⟩
  obtain ⟨m, hover, hm⟩ := (sourcePower_inv.run hled h).ended hended
  cases m with
  | untouched => exact hm.2.2.2
  | settled => exact hm
  | committed =>
    have hdone : s₁.world.db.status ρ.migrationID = some .completed := hm
    rw [hdone] at hstatus
    obtain h | h := hstatus <;> cases h
  | _ => exact hover.elim

end

def leavingRoute : Route := ⟨"m", someServer, "a", "b", "http://a", "http://b"⟩

def leavingRunning : Config Resp Task (World Fleet) :=
  ⟨{ leaving.world with
      fleet := (leaving.world.fleet.serve zeroSha (fun _ => workshop) 0 "http://a" (.startServer "a.t" someServer)).2 },
    leaving.threads⟩

def pushLost : List (Label Task) := answered 0 25 ++ [.call 0 (.lost "connection reset")] ++ answered 0 8

theorem leaving_follows : leavingDB.Follows leavingRoute := ⟨⟨_, rfl, rfl, rfl, rfl⟩, rfl, rfl⟩

theorem unsuccessful_keeps_power_pushLost : ∃ s : Config Resp Task (World Fleet),
    Run (panel zeroSha sampleFleet).next (fun s l => steady (fun _ => workshop) leavingRoute (some true) s l = true)
      leavingRunning pushLost s ∧
    s.world.db.status "m" = some .failed ∧ s.world.fleet.power "http://a" someServer = some true := by
  have hpower : leavingRunning.world.fleet.power "http://a" someServer = some true := by decide +kernel
  have hopen : leavingRunning.world.db.phase "m" = some .planned := by decide +kernel
  obtain ⟨s, hr, hended, hfailed⟩ : ∃ s, Run (panel zeroSha sampleFleet).next
      (fun s l => steady (fun _ => workshop) leavingRoute (some true) s l = true) leavingRunning pushLost s ∧
      s.ended 0 = true ∧ s.world.db.status "m" = some .failed := by decide +kernel
  refine ⟨s, hr, hfailed, ?_⟩
  rw [← hpower] at hr ⊢
  exact unsuccessful_keeps_power (ρ := leavingRoute) (by decide) (by decide) rfl leaving_follows ⟨_, rfl, rfl⟩
    (by rw [show leavingRoute.migrationID = "m" from rfl, hopen]; nofun) hr hended (.inl hfailed)

theorem failed_run_starts_source : leaving.world.fleet.power "http://a" someServer = some false ∧
    ∃ s : Config Resp Task (World Fleet), Run (panel zeroSha sampleFleet).next (fun _ _ => True) leaving registrationLost s ∧
      s.ended 0 = true ∧ s.world.db.status "m" = some .failed ∧
      s.world.fleet.power "http://a" someServer = some true := by decide +kernel

end ForgePlane
