import ForgePlane.Workload

/-!
# What a failed run leaves on a node

`fail` deletes the container on the destination only when the commit calls it. A container that
appeared in any other way stays: made by the configuration from a request the restored directory
carried, or by a create whose answer did not arrive.
-/

namespace ForgePlane

open Fleet Service

/-! ## What other processes may do meanwhile -/

def Call.marksFailed : Call → Bool
  | .tx (.updateMigrationStatus _ .failed _) => true
  | _ => false

def Call.bystanding : Call → Bool
  | .daemon _ q => q.keepsWorkloads
  | c => !c.marksFailed

variable {t : Tx} {id : String} {db db' : DB}

theorem bystanding_read (h : t.reads = true) : (Call.tx t).bystanding = true := by
  cases t with
  | updateMigrationStatus => cases h
  | _ => rfl

theorem bystanding_cancel (H : Sha256) (id : String) :
    All (fun c => Call.bystanding c = true) (Task.program H (.cancel id)) :=
  All_ignore (All_cancelMigration (fun _ => bystanding_read) H rfl rfl (fun _ _ _ => rfl) (fun _ _ => rfl) rfl rfl
    fun _ => rfl)

theorem Effect.not_failed {now : Nat} (h : Effect now db t db')
    (ht : ∀ reason, t ≠ .updateMigrationStatus id .failed reason) (hs : db.status id ≠ some .failed) :
    db'.status id ≠ some .failed := by
  cases hm : db.migration id with
  | some =>
    obtain hm' | ⟨m', hw, hm'⟩ := h.migration hm
    · simpa [DB.status, hm, hm'] using hs
    · cases hw with
      | status st reason =>
        have hst : st ≠ .failed := fun he => ht reason (by rw [he])
        simpa [DB.status, hm'] using hst
      | commit => simp [DB.status, hm']
  | none =>
    -- a row that is not there can only be inserted, as planned
    cases h with
    | rest _ _ hrest =>
      rw [DB.status, DB.migration, hrest.1]
      exact hs
    | create =>
      simp only [DB.migration] at hm
      simp only [DB.status, DB.migration, rowAt_append, hm, Option.none_or]
      split <;> simp
    | status i =>
      simp only [DB.migration] at hm
      rw [DB.status, DB.migration, rowAt_updateAt i _ fun _ => by rfl, hm]
      split <;> simp
    | commit => simp [DB.status, DB.migration_commitOwnership, hm]
    | _ => exact hs

/-! ## A run and one workload -/

def Call.makesWorkloads : Call → Bool
  | .daemon _ q => q.makesWorkloads
  | _ => false

inductive Leftover where
  | absent
  | gone
  | present (token : String)
  | settled

def leftover (u v : String) : Monitor Resp Leftover where
  admits m c :=
    match m, c with
    | .absent, _ => True
    | .gone, c => c.makesWorkloads = false
    | .present token, .daemon url (.deleteServer t s) => url = u ∧ t = token ∧ s = v
    | _, c => c.makesWorkloads = false ∧ c.marksFailed = false
  next m c r :=
    match m, c, r with
    | .absent, .daemon url (.createServer token req _), .ok true =>
      if url = u ∧ req.serverID = v then .present token else .absent
    | .absent, .tx (.updateMigrationStatus _ .failed _), _ => .gone
    | .present _, .daemon _ (.deleteServer ..), _ => .absent
    | .present _, .tx (.finalizeMigration _), .ok _ => .settled
    | m, _, _ => m

def Leftover.Holds (id u v : String) (m : Leftover) (w : World Fleet) : Prop :=
  match m with
  | .absent => w.fleet.workload u v = none ∧ w.db.status id ≠ some .failed
  | .gone => w.fleet.workload u v = none
  | .present token => w.fleet.token u = some token ∧ w.db.status id ≠ some .failed
  | .settled => w.db.status id ≠ some .failed

def Leftover.over : Leftover → Prop
  | .present _ => False
  | _ => True

def Leftover.clear : Leftover → Prop
  | .absent | .gone => True
  | _ => False

variable {m : Leftover}

theorem Leftover.clear.over (h : m.clear) : m.over := by
  cases m with
  | present => cases h
  | _ => trivial

section
variable {u v sc dc : String}
variable {c : Call} {cause : Err} {source target : ServerProvisionTarget}

theorem leftover_neutral (h : Neutral id c) :
    (leftover u v).Silent (fun m => m = .absent ∨ ∃ token, m = .present token) c := by
  rintro m (rfl | ⟨token, rfl⟩)
  · refine ⟨trivial, fun r _ => ?_⟩
    cases h with
    | read t ht => cases t <;> first | rfl | cases ht
    | status st reason hst => obtain rfl | rfl := hst <;> rfl
    | _ => rfl
  · cases h with
    | read t ht => cases t <;> first | exact ⟨⟨rfl, rfl⟩, fun _ _ => rfl⟩ | cases ht
    | status st reason hst => obtain rfl | rfl := hst <;> exact ⟨⟨rfl, rfl⟩, fun _ _ => rfl⟩
    | _ => exact ⟨⟨rfl, rfl⟩, fun _ _ => rfl⟩

theorem leftover_released (h : Released id c) : (leftover u v).Silent Leftover.over c := by
  intro m hm
  cases m with
  | present => exact hm.elim
  | absent => cases h <;> exact ⟨trivial, fun _ _ => rfl⟩
  | gone => cases h <;> exact ⟨rfl, fun _ _ => rfl⟩
  | settled => cases h <;> exact ⟨⟨rfl, rfl⟩, fun _ _ => rfl⟩

theorem leftover_clear (hc : c.makesWorkloads = false) : (leftover u v).Keeps Leftover.clear c := by
  intro m hm
  cases m with
  | absent =>
    refine ⟨trivial, fun r _ => ?_⟩
    simp [leftover]
    split
    · cases hc
    · trivial
    · contradiction
    · contradiction
    · trivial
  | gone => exact ⟨hc, fun _ _ => trivial⟩
  | _ => exact hm.elim

theorem leftover_fail_absent {created : Bool} :
    wp (leftover u v) (fail id cause source target created sc dc) (fun _ => Leftover.over) .absent := by
  have hall : All (fun c => Call.makesWorkloads c = false) (fail id cause source target created sc dc) :=
    All_fail (fun _ _ => rfl) (fun _ _ => rfl) (fun _ => rfl) (fun _ => rfl) rfl rfl fun _ => rfl
  exact wp_mono (fun _ _ hm => hm.over) ((hall.mono fun _ => leftover_clear).keeps trivial)

theorem leftover_fail_present {x : Service.Attempt} (hu : x.target.nodeURL = u) (hv : x.target.serverID = v) (hne : u ≠ "") :
    wp (leftover u v) (x.fail cause true) (fun _ => Leftover.over) (.present x.target.nodeToken) := by
  have hsend : (true && decide (x.target.nodeURL ≠ "")) = true := by simp [hu, hne]
  unfold Service.Attempt.fail fail
  rw [wp_bind]
  have hcancel : ∀ credential, (leftover u v).Silent (· = .present x.target.nodeToken)
      (.daemon x.target.nodeURL (.cancelTransfer x.id credential)) := by
    rintro credential m rfl
    exact ⟨⟨rfl, rfl⟩, fun _ _ => rfl⟩
  refine (All_sendIf fun _ => hcancel _).wp rfl fun _ => ?_
  rw [wp_bind, hsend]
  refine ⟨⟨hu, rfl, hv⟩, fun r _ => ?_⟩
  -- from here on there is no container, and nothing left of `fail` makes one
  have hrest : All (fun c => Call.makesWorkloads c = false) (do
        sendIf (x.sourceCredential ≠ "" && x.source.nodeURL ≠ "") x.source.nodeURL
          (.cancelTransfer x.id x.sourceCredential)
        sendIf (x.source.nodeURL ≠ "") x.source.nodeURL (.startServer x.source.nodeToken x.source.serverID)
        ignore (tx (.failMigrationRun x.id cause))
        ignore (markFailed x.id cause)) := by
    refine All.bind (P := fun c => Call.makesWorkloads c = false) (All_sendIf fun _ => rfl) fun _ => ?_
    refine All.bind (P := fun c => Call.makesWorkloads c = false) (All_sendIf fun _ => rfl) fun _ => ?_
    refine All.bind (P := fun c => Call.makesWorkloads c = false) (All_ignore (All_tx rfl)) fun _ => ?_
    exact All_ignore (All_markFailed (fun _ _ => rfl) rfl fun _ => rfl)
  have hclear : Leftover.clear ((leftover u v).next (.present x.target.nodeToken)
      (.daemon x.target.nodeURL (.deleteServer x.target.nodeToken x.target.serverID)) r) := trivial
  exact wp_mono (fun _ _ hm => Leftover.clear.over hm) ((hrest.mono fun _ => leftover_clear).keeps hclear)

theorem leftover_run (H : Sha256) (worker : String) (hne : u ≠ "") :
    wp (leftover u v) (run H worker id) (fun _ => Leftover.over) .absent := by
  let D (x : Service.Attempt) (m : Leftover) : Prop :=
    m = .absent ∨ m = .present x.target.nodeToken ∧ x.target.nodeURL = u ∧ x.target.serverID = v
  have O : Outline (leftover u v) id (fun m => m = .absent ∨ ∃ token, m = .present token) (fun _ m => m = .absent)
      (fun _ m => m = .absent) (fun _ m => m = .absent) D Leftover.over := {
    silent := fun _ => leftover_neutral
    live := fun _ _ h => .inl h
    ready := by rintro x m (rfl | ⟨rfl, -⟩) <;> simp
    prepared := fun _ _ h => h
    prepare := by rintro x m - rfl; exact ⟨trivial, fun _ _ => rfl⟩
    configured := fun _ _ h => h
    configure := by rintro x m - rfl; exact ⟨trivial, fun _ _ => rfl⟩
    create := by
      rintro x m - rfl
      refine ⟨trivial, fun r _ => ?_⟩
      match r with
      | .error e => exact rfl
      | .ok false => exact rfl
      | .ok true =>
        rw [if_pos rfl]
        by_cases hat : x.target.nodeURL = u ∧ x.target.serverID = v
        · exact .inr ⟨if_pos hat, hat⟩
        · exact .inl (if_neg hat)
    resume := fun _ _ _ h => .inl h
    commit := by
      rintro x m hx (rfl | ⟨rfl, hu, hv⟩)
      · exact ⟨trivial, fun _ => Worker.released_wp hx (fun _ => leftover_released) trivial, fun e _ => leftover_fail_absent⟩
      · exact ⟨⟨rfl, rfl⟩, fun _ => Worker.released_wp hx (fun _ => leftover_released) trivial,
          fun e _ => leftover_fail_present hu hv hne⟩
    fail := by rintro x m cause - rfl; exact leftover_fail_absent }
  exact Worker.run_wp O H worker (.inl rfl) trivial (fun _ _ => rfl) fun _ => leftover_fail_absent

end

section
variable {H : Sha256} {sites : String → Site} {P : Platform Unit} {id u v worker : String} {w w' : World Fleet}

/-- The workload at `u` is in no danger from step `l`: a configuration finds no request for `v`
there, a create of it is answered and can keep its request, a delete arrives. -/
def tidy (sites : String → Site) (id u v : String) (s : Config Resp Task (World Fleet)) : Label Task → Bool
  | .start t => t = .cancel id
  | .call i o =>
    match s.pending i with
    | some (_, .daemon url (.syncServerConfiguration _ serverID payload)) =>
      url ≠ u || o.isLost ||
        ((s.world.fleet.node u).bind fun n => Daemon.desired (sites u) n.host serverID payload).all fun r => r.serverID ≠ v
    | some (_, .daemon url (.createServer _ req _)) =>
      url ≠ u || req.serverID ≠ v || !o.isAmbiguous &&
        (s.world.fleet.node u).all fun n => (n.host.safePath v Daemon.runtimeRequestPath).isOk
    | some (_, .daemon _ (.deleteServer ..)) => !o.isLost
    | _ => true
  | _ => true

theorem Leftover.Holds.mono (hworkload : w.fleet.workload u v = none → w'.fleet.workload u v = none)
    (htoken : w'.fleet.token u = w.fleet.token u)
    (hstatus : w.db.status id ≠ some .failed → w'.db.status id ≠ some .failed) (h : m.Holds id u v w) :
    m.Holds id u v w' := by
  cases m with
  | absent => exact ⟨hworkload h.1, hstatus h.2⟩
  | gone => exact hworkload h
  | present => exact ⟨htoken.trans h.1, hstatus h.2⟩
  | settled => exact hstatus h

variable {m : Leftover} {w w' : World Fleet} {o : Outcome}

variable {url token : String} {c : Call} {r : Resp c} {s : Config Resp Task (World Fleet)} {i : Nat} {t : Task}

theorem Leftover.Holds.request {q : DaemonReq} {r : Except Err q.Val} (hq : q.makesWorkloads = false)
    (hr : (panel H (platform H sites P)).answer w (.daemon url q) o = some (r, w')) (h : m.Holds id u v w) :
    m.Holds id u v w' := by
  obtain ⟨hdb, ⟨e, -, -, hf⟩ | ⟨hf, -⟩⟩ := answer_daemon hr
  · exact h.mono (by rw [hf]; exact fun hn => hn) (by rw [hf]) (by rw [hdb]; exact fun hn => hn)
  · exact h.mono (fun hn => by rw [hf]; exact workload_absent hq hn) (by rw [hf]; exact token_serve)
      (by rw [hdb]; exact fun hn => hn)

theorem Leftover.Holds.other (hc : c.isDaemon = false)
    (hstatus : w.db.status id ≠ some .failed → w'.db.status id ≠ some .failed)
    (hr : (panel H (platform H sites P)).answer w c o = some (r, w')) (h : m.Holds id u v w) :
    m.Holds id u v w' := by
  have hf := answer_fleet hc hr
  exact h.mono (by rw [hf]; exact fun hn => hn) (by rw [hf]) hstatus

theorem answer_not_failed (hc : c.marksFailed = false)
    (hr : (panel H (platform H sites P)).answer w c o = some (r, w')) (hs : w.db.status id ≠ some .failed) :
    w'.db.status id ≠ some .failed := by
  obtain hdb | ⟨t, rfl, hdb⟩ := answer_db hr
  · rw [hdb]
    exact hs
  · rw [hdb]
    exact (t.effect w.now w.db).not_failed (fun reason ht => by rw [ht] at hc; cases hc) hs

theorem created_or_not {req : CreateRequest} {diskMB : Int} {r : Except Err Bool}
    (hsafe : req.serverID ≠ v ∨ u ≠ url ∨ o.isAmbiguous = false ∧
      ∀ n, w.fleet.node u = some n → ∃ p, n.host.safePath v Daemon.runtimeRequestPath = .ok p)
    (hr : (panel H (platform H sites P)).answer w (.daemon url (.createServer token req diskMB)) o = some (r, w'))
    (h : Leftover.absent.Holds id u v w) :
    ((leftover u v).next .absent (.daemon url (.createServer token req diskMB)) r).Holds id u v w' := by
  obtain ⟨hdb, hcase⟩ := answer_daemon hr
  have hstatus : w'.db.status id ≠ some .failed := by
    rw [hdb]
    exact h.2
  by_cases hok : r = .ok true
  · subst hok
    obtain ⟨e, -, he, -⟩ | ⟨hf, ⟨-, hr⟩ | ⟨e, -, he⟩⟩ := hcase
    · cases he
    · by_cases hat : url = u ∧ req.serverID = v
      · have hnext : (leftover u v).next .absent (.daemon url (.createServer token req diskMB)) (.ok true) =
            .present token := if_pos hat
        rw [hnext]
        refine ⟨?_, hstatus⟩
        rw [hf, token_serve, ← hat.1]
        exact token_create hr.symm
      · have hnext : (leftover u v).next .absent (.daemon url (.createServer token req diskMB)) (.ok true) = .absent :=
          if_neg hat
        rw [hnext]
        refine ⟨?_, hstatus⟩
        rw [hf, workload_create, h.1]
        by_cases hv : req.serverID = v
        · exact .inr (.inl fun hu => hat ⟨hu.symm, hv⟩)
        · exact .inl hv
    · cases he
  · have hnext : (leftover u v).next .absent (.daemon url (.createServer token req diskMB)) r = .absent := by
      match r with
      | .error e => rfl
      | .ok false => rfl
      | .ok true => exact absurd rfl hok
    rw [hnext]
    refine ⟨?_, hstatus⟩
    obtain ⟨e, -, -, hf⟩ | ⟨hf, ho⟩ := hcase
    · rw [hf, h.1]
    · rw [hf, workload_create, h.1]
      obtain hv | hu | ⟨hamb, hkeep⟩ := hsafe
      · exact .inl hv
      · exact .inr (.inl hu)
      · obtain ⟨rfl, rfl⟩ | ⟨e, rfl, -⟩ := ho
        · by_cases hv : req.serverID = v
          · exact .inr (.inr ⟨hok, by rw [hv]; exact hkeep⟩)
          · exact .inl hv
        · cases hamb

variable (ha : tidy sites id u v s (.call i o) = true)
include ha

variable (hsend : s.sends (.call i o) = some (t, c))
include hsend

theorem tidy_absent
    (hr : (panel H (platform H sites P)).answer s.world c o = some (r, w'))
    (h : Leftover.absent.Holds id u v s.world) : ((leftover u v).next .absent c r).Holds id u v w' := by
  have hpending : s.pending i = some (t, c) := hsend
  simp [tidy, hpending] at ha
  cases c with
  | daemon url q =>
    cases q with
    | syncServerConfiguration =>
      obtain ⟨hdb, ⟨e, -, -, hf⟩ | ⟨hf, ho⟩⟩ := answer_daemon hr
      · refine ⟨?_, ?_⟩
        · rw [hf, h.1]
        · rw [hdb]
          exact h.2
      refine ⟨?_, ?_⟩
      · have hlost : o.isLost = false := by obtain ⟨rfl, -⟩ | ⟨e, rfl, -⟩ := ho <;> rfl
        rw [hf, workload_sync, h.1]
        rintro rfl n hn r hd
        simpa [hlost, hn, hd] using ha
      · rw [hdb]
        exact h.2
    | createServer token req =>
      have hsafe : req.serverID ≠ v ∨ u ≠ url ∨ o.isAmbiguous = false ∧
          ∀ n, s.world.fleet.node u = some n → ∃ p, n.host.safePath v Daemon.runtimeRequestPath = .ok p := by
        by_cases hv : req.serverID = v
        · by_cases hu : url = u
          · refine .inr (.inr ?_)
            simp [hv, hu] at ha
            refine ⟨ha.1, fun n hn => ?_⟩
            have hok := ha.2
            rw [hn, Option.all_some] at hok
            cases hp : n.host.safePath v Daemon.runtimeRequestPath with
            | ok p => exact ⟨p, rfl⟩
            | error => rw [hp] at hok; cases hok
          · exact .inr (.inl fun he => hu he.symm)
        · exact .inl hv
      exact created_or_not hsafe hr h
    | _ => exact Leftover.Holds.request rfl hr h
  | tx t =>
    cases t with
    | updateMigrationStatus i st =>
      cases st with
      | failed => exact (congrArg (workload · u v) (answer_fleet rfl hr)).trans h.1
      | _ => exact Leftover.Holds.other rfl (answer_not_failed rfl hr) hr h
    | _ => exact Leftover.Holds.other rfl (answer_not_failed rfl hr) hr h
  | _ => exact Leftover.Holds.other rfl (answer_not_failed rfl hr) hr h

theorem tidy_present
    (hadm : (leftover u v).admits (.present token) c)
    (hr : (panel H (platform H sites P)).answer s.world c o = some (r, w'))
    (h : (Leftover.present token).Holds id u v s.world) : ((leftover u v).next (.present token) c r).Holds id u v w' := by
  have hpending : s.pending i = some (t, c) := hsend
  cases c with
  | daemon url q =>
    cases q with
    | deleteServer =>
      obtain ⟨rfl, rfl, rfl⟩ := hadm
      simp [tidy, hpending] at ha
      obtain ⟨hdb, ⟨e, rfl, -, -⟩ | ⟨hf, -⟩⟩ := answer_daemon hr
      · cases ha
      · refine ⟨?_, ?_⟩
        · rw [hf, workload_delete, if_pos ⟨rfl, h.1, rfl⟩]
        · rw [hdb]
          exact h.2
    | syncServerConfiguration | createServer => cases hadm.1
    | _ => exact Leftover.Holds.request rfl hr h
  | tx t =>
    cases t with
    | finalizeMigration =>
      cases r with
      | ok => exact answer_not_failed rfl hr h.2
      | error => exact Leftover.Holds.other rfl (answer_not_failed rfl hr) hr h
    | updateMigrationStatus => exact Leftover.Holds.other rfl (answer_not_failed hadm.2 hr) hr h
    | _ => exact Leftover.Holds.other rfl (answer_not_failed rfl hr) hr h
  | _ => exact Leftover.Holds.other rfl (answer_not_failed rfl hr) hr h

omit hsend

omit ha

theorem leftover_inv : LeaderInv (panel H (platform H sites P)) (fun s l => tidy sites id u v s l = true)
    (leftover u v) (fun c => c.bystanding = true) (Leftover.Holds id u v) Leftover.over where
  start s t ha := by
    obtain rfl : t = .cancel id := of_decide_eq_true ha
    exact bystanding_cancel H id
  tick m w d h := h.mono (fun hn => hn) rfl fun hs => hs
  crash s m _ h := by
    cases m with
    | present => exact ⟨.settled, h.2, trivial⟩
    | _ => exact ⟨_, h, trivial⟩
  lead s o t c m r w' ha hsend hadm h hr := by
    refine ⟨trivial, ?_⟩
    cases m with
    | absent => exact tidy_absent ha hsend hr h
    | gone =>
      cases c with
      | daemon => exact Leftover.Holds.request hadm hr h
      | _ => exact (congrArg (workload · u v) (answer_fleet rfl hr)).trans h
    | present => exact tidy_present ha hsend hadm hr h
    | settled => exact answer_not_failed hadm.2 hr h
  follow s i o t c m r w' _ _ hq h hr := by
    cases c with
    | daemon url q =>
      refine h.request ?_ hr
      cases q <;> first | rfl | cases hq
    | tx => exact h.other rfl (answer_not_failed (by simpa [Call.bystanding] using hq) hr) hr
    | _ => exact h.other rfl (answer_not_failed rfl hr) hr

/-- A run that ends with its migration failed leaves no container of `v` at `u` where there was
none, if no step endangers that. -/
theorem failed_leaves_no_workload {s₀ s₁ : Config Resp Task (World Fleet)} {ls : List (Label Task)}
    (hu : u ≠ "") (hrun : s₀.threads = [(.run worker id, Task.program H (.run worker id))])
    (hopen : s₀.world.db.status id ≠ some .failed) (hnone : s₀.world.fleet.workload u v = none)
    (h : Run (panel H (Fleet.platform H sites P)).next (fun s l => tidy sites id u v s l = true) s₀ ls s₁)
    (hended : s₁.ended 0 = true) (hfailed : s₁.world.db.status id = some .failed) :
    s₁.world.fleet.workload u v = none := by
  have hled : Led (leftover u v) (fun c => c.bystanding = true) (Leftover.Holds id u v) Leftover.over s₀ :=
    ⟨_, _, [], .absent, hrun, nofun, leftover_run H worker hu, hnone, hopen⟩
  obtain ⟨m, hover, hm⟩ := (leftover_inv.run hled h).ended hended
  cases m with
  | absent => exact hm.1
  | gone => exact hm
  | present => exact hover.elim
  | settled => exact absurd hfailed hm

end

def registrationLost : List (Label Task) := answered 0 15 ++ [.call 0 (.lost "connection reset")] ++ answered 0 8

theorem failed_leaves_no_workload_registrationLost : ∃ s : Config Resp Task (World Fleet),
    Run (panel zeroSha sampleFleet).next (fun s l => tidy (fun _ => workshop) "m" "http://b" someServer s l = true)
      leaving registrationLost s ∧
    s.world.db.status "m" = some .failed ∧ s.world.fleet.workload "http://b" someServer = none := by
  have hopen : leaving.world.db.status "m" = some .preparing := by decide +kernel
  have hnone : leaving.world.fleet.workload "http://b" someServer = none := by
    have hw : (leaving.world.fleet.workload "http://b" someServer).isNone = true := by decide +kernel
    exact Option.isNone_iff_eq_none.mp hw
  obtain ⟨s, hr, hended, hfailed⟩ : ∃ s, Run (panel zeroSha sampleFleet).next
      (fun s l => tidy (fun _ => workshop) "m" "http://b" someServer s l = true) leaving registrationLost s ∧
      s.ended 0 = true ∧ s.world.db.status "m" = some .failed := by decide +kernel
  exact ⟨s, hr, hfailed, failed_leaves_no_workload (by decide) rfl (by rw [hopen]; nofun) hnone hr hended hfailed⟩

def undisturbed : List (Label Task) := answered 0 46

theorem failed_run_leaves_workload : leaving.world.fleet.workload "http://b" someServer = none ∧
    ∃ s : Config Resp Task (World Fleet), Run (panel zeroSha sampleFleet).next (fun _ _ => True) leaving undisturbed s ∧
      s.ended 0 = true ∧ s.world.db.status "m" = some .failed ∧
      (s.world.fleet.workload "http://b" someServer).isSome = true := by decide +kernel

end ForgePlane
