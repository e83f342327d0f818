import ForgePlane.Panel

/-!
# Rollback and the owner

`fail` takes every error of the commit for a commit that did not happen, and `CancelMigration` looks
at the status before it talks to the daemons. Once the commit is in, the target owns the server.
-/

namespace ForgePlane

open DB

def rollbackTo (id : String) : Call → Option String
  | .daemon url (.cancelTransfer i _) => if i = id then some url else none
  | .daemon url (.deleteServer ..) => some url
  | _ => none

def Quiet (id : String) : Call → Prop
  | .tx (.updateMigrationStatus i st _) => i = id → st.terminal = true
  | .tx (.updateMigrationRun i _ _ _ _) => i ≠ id
  | c => rollbackTo id c = none

variable {c : Call} {id sc dc : String} {now i : Nat}

theorem Quiet.rollbackTo (h : Quiet id c) : rollbackTo id c = none := by
  unfold Quiet at h
  split at h
  · rfl
  · rfl
  · exact h

/-! ## A committed migration -/

def DB.Committed (db : DB) (id : String) : Prop :=
  db.phase id = some .completed ∧ ∃ st, db.status id = some st ∧ st.terminal = true

variable {db : DB} {D α : Type} {l : Label Task} {source target : ServerProvisionTarget}

section
variable {db' : DB} {t : Tx}

theorem Effect.committed_stays (h : Effect now db t db') (hq : Quiet id (.tx t)) (hc : db.Committed id) :
    db'.Committed id := by
  obtain ⟨hp, st, hs, hterm⟩ := hc
  obtain ⟨r, hr, hph⟩ := Option.map_eq_some_iff.mp hp
  obtain ⟨m, hm, rfl⟩ := Option.map_eq_some_iff.mp hs
  constructor
  · obtain hr' | ⟨r', hw, hr'⟩ := h.run hr
    · simp [DB.phase, hr', hph]
    · cases hw with
      | progress => exact absurd rfl hq
      | cancel _ hne => exact absurd hph hne
      | fail _ _ hne => exact absurd hph hne
      | commit => simp [DB.phase, hr']
      | _ => simp [DB.phase, hr', hph]
  · obtain hm' | ⟨m', hw, hm'⟩ := h.migration hm
    · exact ⟨m.status, by simp [DB.status, hm'], hterm⟩
    · cases hw with
      | status st => exact ⟨st, by simp [DB.status, hm'], hq rfl⟩
      | commit => exact ⟨.completed, by simp [DB.status, hm'], rfl⟩

theorem Effect.commits (h : Effect now db (.finalizeMigration id) db') (hopen : db.phase id ≠ some .completed)
    (hdone : db'.phase id = some .completed) : db'.Committed id := by
  cases h with
  | rest _ _ hrest =>
    rw [DB.phase, DB.run, hrest.2.1] at hdone
    exact absurd hdone hopen
  | commit _ m a hc =>
    have hkey : m.id = id := rowAt_key hc.migration
    have hm : (db.commitOwnership m a).status id = some .completed := by
      rw [DB.status, DB.migration_commitOwnership, if_pos hkey.symm, hc.migration]
      rfl
    exact ⟨hdone, .completed, hm, rfl⟩

theorem DB.Committed.claim_fails (h : db.Committed id) (worker : String) (lease : Nat) :
    db.claimMigrationRun now id worker lease = .error "migration run is already claimed" := by
  obtain ⟨r, hr, hp⟩ := Option.map_eq_some_iff.mp h.1
  simp [claimMigrationRun, hr, claimable, hp, RunPhase.terminal]

end

/-! ## The worker after its commit -/

/-- Watches for the answer to `FinalizeMigration`: after a success only quiet calls follow. -/
def commitMonitor (id : String) : Monitor Resp Bool where
  admits committed c := committed = true → Quiet id c
  next committed c r :=
    match c, r with
    | .tx (.finalizeMigration _), .ok _ => true
    | _, _ => committed

theorem commitMonitor_open (hc : ∀ i, c ≠ .tx (.finalizeMigration i)) : (commitMonitor id).Silent (· = false) c := by
  rintro _ rfl
  refine ⟨nofun, fun r _ => ?_⟩
  simp [commitMonitor]
  split
  · exact absurd rfl (hc _)
  · rfl

theorem commitMonitor_quiet : ∀ {p : Action α} {Φ : α → Bool → Prop}, wp (commitMonitor id) p Φ true →
    All (Quiet id) p
  | .ret _, _, _ => trivial
  | .call c k, Φ, h => by
    refine ⟨h.1 rfl, fun r => commitMonitor_quiet (Φ := Φ) ?_⟩
    have hnext : (commitMonitor id).next true c r = true := by
      simp [commitMonitor]
      split <;> rfl
    rw [← hnext]
    exact h.2 r trivial

theorem commitMonitor_fail {cause : Err} {created : Bool} :
    wp (commitMonitor id) (Service.fail id cause source target created sc dc) (fun _ _ => True) false := by
  have hall : All (fun c => ∀ i, c ≠ .tx (.finalizeMigration i))
      (Service.fail id cause source target created sc dc) :=
    All_fail (fun t ht i hi => by cases hi; cases ht) nofun nofun nofun nofun nofun nofun
  exact (hall.mono fun _ => commitMonitor_open).wp rfl fun _ => trivial

theorem commitMonitor_neutral (h : Neutral id c) : (commitMonitor id).Silent (· = false) c := by
  refine commitMonitor_open fun i hi => ?_
  subst hi
  cases h with
  | read _ ht => cases ht

theorem commitMonitor_released (h : Released id c) : (commitMonitor id).Silent (fun _ => True) c := by
  intro m _
  cases h <;> exact ⟨fun _ => rfl, fun _ _ => rfl⟩

theorem commitMonitor_run (H : Sha256) (worker : String) :
    wp (commitMonitor id) (Service.run H worker id) (fun _ _ => True) false := by
  have O : Outline (commitMonitor id) id (· = false) (fun _ m => m = false) (fun _ m => m = false)
      (fun _ m => m = false) (fun _ m => m = false) (fun _ => True) := {
    silent := fun _ => commitMonitor_neutral
    live := fun _ _ h => h
    ready := fun _ _ h => h
    prepared := fun _ _ h => h
    prepare := fun _ _ _ h => ⟨by simp [commitMonitor, h], fun _ _ => h⟩
    configured := fun _ _ h => h
    configure := fun _ _ _ h => ⟨by simp [commitMonitor, h], fun _ _ => h⟩
    create := fun _ _ _ h => ⟨by simp [commitMonitor, h], fun _ _ => by split <;> exact h⟩
    resume := fun _ _ _ h => h
    commit := by
      rintro x _ hx rfl
      subst hx
      exact ⟨nofun, fun _ => Worker.released_wp rfl (fun _ => commitMonitor_released) trivial, fun _ _ => commitMonitor_fail⟩
    fail := by
      rintro x _ cause hx rfl
      subst hx
      exact commitMonitor_fail }
  exact Worker.run_wp O H worker rfl trivial (fun _ _ => rfl) fun _ => commitMonitor_fail

theorem commitMonitor_cancel (H : Sha256) :
    wp (commitMonitor id) (ignore (Service.cancelMigration H id)) (fun _ _ => True) false := by
  have hall : All (fun c => ∀ i, c ≠ .tx (.finalizeMigration i)) (Service.cancelMigration H id) :=
    All_cancelMigration (fun t ht i hi => by cases hi; cases ht) H nofun nofun nofun nofun nofun nofun nofun
  exact ((All_ignore hall).mono fun _ => commitMonitor_open).wp rfl fun _ => trivial

/-! ## Everyone else at the commit -/

section
variable {H : Sha256} {P : Platform D} {id worker : String} {s₀ s₁ s₂ s₃ : Config Resp Task (World D)}
variable {o : Outcome} {w w' : World D}

/-- The thread has only quiet calls left, or is a worker or a cancellation that has not made its
first call yet. -/
def Settled (H : Sha256) (id : String) (task : Task) (p : Action Unit) : Prop :=
  All (Quiet id) p ∨ (p = task.program H ∧ (task = .cancel id ∨ ∃ worker, task = .run worker id))

def committing (id : String) (s : Config Resp Task (World D)) (i : Nat) : Bool :=
  match s.pending i with
  | some (_, .tx (.finalizeMigration k)) =>
    decide (k = id) && decide (s.world.db.phase id ≠ some .completed) && (s.world.db.finalizeMigration id).isOk
  | _ => false

/-- Workers and cancellations of `id` only, and at the commit the worker is told the truth and
no other thread is in the middle of undoing the transfer. -/
def SafeCommit (H : Sha256) (id : String) (s : Config Resp Task (World D)) : Label Task → Prop
  | .start (.run _ i) => i = id
  | .start (.cancel i) => i = id
  | .start _ => False
  | .call i o => committing id s i = true → (∀ e, o ≠ .ambiguous e) ∧
    ∀ j, j ≠ i → ∀ task p, s.threads[j]? = some (task, p) → Settled H id task p
  | _ => True

theorem committing_statement (h : committing id s₀ i = true) :
    s₀.statement (.call i o) = some (.finalizeMigration id) ∧ s₀.world.db.phase id ≠ some .completed := by
  unfold committing at h
  split at h
  · rename_i k hp
    simp at h
    obtain ⟨⟨rfl, hopen⟩, -⟩ := h
    exact ⟨by simp [Config.statement, Config.sends, hp], hopen⟩
  · cases h

theorem SafeCommit.program {task : Task} (h : SafeCommit H id s₀ (.start task)) :
    task = .cancel id ∨ ∃ worker, task = .run worker id := by
  cases task with
  | run worker i => exact .inr ⟨worker, by rw [show i = id from h]⟩
  | cancel i => exact .inl (by rw [show i = id from h])
  | _ => exact h.elim

theorem cancel_stops {r : Except Err Migration} (hc : w.db.Committed id)
    (h : (panel H P).answer w (.tx (.selectMigration id)) o = some (r, w')) {k : Except Err Migration → Action Unit}
    (hk : .call (.tx (.selectMigration id)) k = ignore (Service.cancelMigration H id)) : All (Quiet id) (k r) := by
  have hended : ∀ m, r = .ok m → m.status.terminal = true := by
    rintro m rfl
    obtain ⟨st, hs, hterm⟩ := hc.2
    obtain ⟨row, hrow, rfl⟩ := Option.map_eq_some_iff.mp hs
    have hr := System.answer_delivered h nofun
    have hm : Except.ok m = w.db.selectMigration id := congrArg Prod.fst hr
    rw [selectMigration, hrow] at hm
    cases hm
    exact hterm
  cases hk
  cases r with
  | error => trivial
  | ok m =>
    refine ⟨rfl, forall_result fun _ => ?_⟩
    have hterm := hended m rfl
    simp only [Prog.pure_def, Prog.bind, hterm, if_true]
    trivial

theorem run_stops {r : Except Err Unit} (hc : w.db.Committed id)
    (h : (panel H P).answer w (.tx (.claimMigrationRun id worker leaseSeconds)) o = some (r, w'))
    {k : Except Err Unit → Action Unit}
    (hk : .call (.tx (.claimMigrationRun id worker leaseSeconds)) k = Service.run H worker id) :
    All (Quiet id) (k r) := by
  have hrefused : ∃ e, r = .error e := by
    obtain ⟨-, hr⟩ | ⟨e, -, hr, -⟩ | ⟨e, -, hr, -⟩ := System.answer_cases h
    · have hm : r = (commit w.db (w.db.claimMigrationRun w.now id worker leaseSeconds)).1 := congrArg Prod.fst hr
      rw [hc.claim_fails] at hm
      exact ⟨_, hm⟩
    · exact ⟨e, (Option.some.inj hr).symm⟩
    · exact ⟨e, (Option.some.inj hr).symm⟩
  obtain ⟨e, rfl⟩ := hrefused
  cases hk
  trivial

theorem settled_inv : ThreadInv (panel H P) (SafeCommit H id) (fun w => w.db.Committed id)
    (fun _ task p => Settled H id task p) where
  start s task _ ha := .inr ⟨rfl, ha.program⟩
  stop _ _ _ := .inl trivial
  tick _ _ hI := ⟨hI, fun _ _ h => h⟩
  call s i o task c k r w hI hJ ha hi hr := by
    have hc : Quiet id c ∧ All (Quiet id) (k r) := by
      obtain hq | ⟨hfresh, rfl | ⟨worker, rfl⟩⟩ := hJ _ (List.mem_of_getElem? hi)
      · exact ⟨hq.1, hq.2 r⟩
      · cases hfresh
        exact ⟨rfl, cancel_stops hI hr rfl⟩
      · cases hfresh
        exact ⟨rfl, run_stops hI hr rfl⟩
    refine ⟨?_, .inl hc.2, fun j t' p _ hj => hJ _ (List.mem_of_getElem? hj)⟩
    obtain he | ⟨t, rfl, he⟩ := answer_db hr
    · rw [he]; exact hI
    · rw [he]; exact (t.effect _ _).committed_stays hc.1 hI

theorem monitored_inv : ThreadInv (panel H P) (SafeCommit H id) (fun _ => True)
    (fun _ _ p => ∃ m, wp (commitMonitor id) p (fun _ _ => True) m) := by
  refine ThreadInv.monitored ⟨false, trivial⟩ (fun _ _ _ => trivial) fun s task ha => ⟨false, ?_⟩
  obtain rfl | ⟨worker, rfl⟩ := ha.program
  · exact commitMonitor_cancel H
  · exact commitMonitor_run H worker

theorem finalize_ok (hopen : db.phase id ≠ some .completed)
    (hdone : ((Tx.finalizeMigration id).exec now db).2.phase id = some .completed) :
    (db.finalizeMigration id).isOk = true ∧ ((Tx.finalizeMigration id).exec now db).1 = .ok () := by
  simp [Tx.exec] at hdone ⊢
  cases hf : db.finalizeMigration id with
  | ok => exact ⟨rfl, rfl⟩
  | error =>
    rw [hf] at hdone
    exact absurd hdone hopen

theorem commit_settles (hw : ∀ x ∈ s₁.threads, ∃ m, wp (commitMonitor id) x.2 (fun _ _ => True) m)
    (ha : SafeCommit H id s₁ l) (hsend : s₁.statement l = some (.finalizeMigration id))
    (hopen : s₁.world.db.phase id ≠ some .completed) (hn : (panel H P).next s₁ l = some s₂)
    (hdone : s₂.world.db.phase id = some .completed) :
    s₂.world.db.Committed id ∧ ∀ x ∈ s₂.threads, Settled H id x.1 x.2 := by
  obtain ⟨i, o, rfl⟩ : ∃ i o, l = .call i o := by
    cases l with
    | call i o => exact ⟨i, o, rfl⟩
    | _ => cases hsend
  obtain ⟨task, c, k, r, w, hi, hr, rfl⟩ := System.next_call hn
  obtain rfl : c = .tx (.finalizeMigration id) := Config.statement_call hi hsend
  obtain he | ⟨t, ht, he⟩ := answer_db hr
  · rw [he] at hdone
    exact absurd hdone hopen
  cases ht
  obtain ⟨hok, hanswer⟩ := finalize_ok hopen (he ▸ hdone)
  have hcommits : committing id s₁ i = true := by
    simp [committing, Config.pending_eq hi, hopen, hok]
  obtain ⟨htold, hothers⟩ := ha hcommits
  -- the worker was told of its commit
  have hr' : r = .ok () := by
    obtain ⟨-, hr⟩ | ⟨e, -, -, hw⟩ | ⟨e, ho, -⟩ := System.answer_cases hr
    · exact (congrArg Prod.fst hr).trans hanswer
    · rw [hw] at hdone
      exact absurd hdone hopen
    · exact absurd ho (htold e)
  subst hr'
  refine ⟨he ▸ ((Tx.finalizeMigration id).effect _ _).commits hopen (he ▸ hdone), fun x hx => ?_⟩
  obtain ⟨j, hj⟩ := List.getElem?_of_mem hx
  by_cases hji : j = i
  · subst hji
    rw [List.getElem?_set_self (lt_at hi)] at hj
    cases hj
    obtain ⟨m, hm⟩ := mem_at hw hi
    exact .inl (commitMonitor_quiet (hm.2 (.ok ()) trivial))
  · rw [List.getElem?_set_ne (Ne.symm hji)] at hj
    exact hothers j hji _ _ hj

/-- Once `FinalizeMigration` has committed, no step of a worker or a cancellation undoes the
transfer or deletes a container. -/
theorem no_rollback_after_commit {ls ls' : List (Label Task)} {l l' : Label Task} {task : Task} {c : Call}
    (hidle : s₀.threads = []) (h₀ : Run (panel H P).next (SafeCommit H id) s₀ ls s₁)
    (hsend : s₁.statement l = some (.finalizeMigration id)) (hopen : s₁.world.db.phase id ≠ some .completed)
    (h₁ : Run (panel H P).next (SafeCommit H id) s₁ [l] s₂) (hdone : s₂.world.db.phase id = some .completed)
    (h₂ : Run (panel H P).next (SafeCommit H id) s₂ ls' s₃) (hcall : s₃.sends l' = some (task, c)) :
    rollbackTo id c = none := by
  have hw := (monitored_inv.run ⟨trivial, by simp [hidle]⟩ h₀).2
  obtain ⟨ha, _, hn, rfl⟩ := h₁
  obtain ⟨-, hJ⟩ := settled_inv.run (commit_settles hw ha hsend hopen hn hdone) h₂
  obtain ⟨k, hk⟩ := Config.sends_mem hcall
  obtain hq | ⟨hfresh, rfl | ⟨worker, rfl⟩⟩ := hJ _ hk
  · exact hq.1.rollbackTo
  · cases hfresh
    rfl
  · cases hfresh
    rfl

end

def readyToCommit : List (Label Task) := [.start (.run "w" "m")] ++ answered 0 40

def commitsAlone {D : Type} (id : String) (s : Config Resp Task (World D)) : Label Task → Bool
  | .start (.run _ i) | .start (.cancel i) => i = id
  | .start _ => false
  | .call i o => !committing id s i || (decide (o = .delivered) && decide (s.threads.length ≤ 1))
  | _ => true

theorem commitsAlone_safe {H : Sha256} {s : Config Resp Task (World D)}
    (h : commitsAlone id s l = true) : SafeCommit H id s l := by
  cases l with
  | start task =>
    cases task with
    | run worker i => exact (of_decide_eq_true h : i = id)
    | cancel i => exact (of_decide_eq_true h : i = id)
    | _ => cases h
  | call i =>
    intro hc
    simp [commitsAlone, hc] at h
    obtain ⟨rfl, halone⟩ := h
    refine ⟨nofun, fun j hji task p hj => ?_⟩
    have hi : i < s.threads.length := by
      by_contra hge
      simp [committing, Config.pending, List.getElem?_eq_none (not_lt.mp hge)] at hc
    have hj := lt_at hj
    omega
  | tick | crash => trivial

theorem no_rollback_after_commit_lateCancel : ∃ s₁ s₂ s₃ : Config Resp Task (World Unit),
    Run (panel zeroSha obliging).next (SafeCommit zeroSha "m") moving readyToCommit s₁ ∧
    Run (panel zeroSha obliging).next (SafeCommit zeroSha "m") s₁ [.call 0 .delivered] s₂ ∧
    Run (panel zeroSha obliging).next (SafeCommit zeroSha "m") s₂ [.start (.cancel "m"), .call 1 .delivered] s₃ ∧
    ∀ i c task, s₃.sends (.call i .delivered) = some (task, c) → rollbackTo "m" c = none := by
  have h₁ : (follow (panel zeroSha obliging).next (commitsAlone "m") moving readyToCommit).map (committing "m" · 0) =
      some true := by
    decide +kernel
  have h₂ : (follow (panel zeroSha obliging).next (commitsAlone "m") moving
      (readyToCommit ++ [.call 0 .delivered])).map (fun s => s.world.db.phase "m") = some (some .completed) := by
    decide +kernel
  have h₃ : (follow (panel zeroSha obliging).next (commitsAlone "m") moving
      (readyToCommit ++ [.call 0 .delivered] ++ [.start (.cancel "m"), .call 1 .delivered])).isSome = true := by
    decide +kernel
  obtain ⟨s₁, hs₁, hc⟩ := Option.map_eq_some_iff.mp h₁
  obtain ⟨s₂, hs₂, hdone⟩ := Option.map_eq_some_iff.mp h₂
  obtain ⟨s₃, hs₃⟩ := Option.isSome_iff_exists.mp h₃
  rw [follow_append hs₂] at hs₃
  rw [follow_append hs₁] at hs₂
  have hr₁ := (Run.of_follow hs₁).mono fun _ _ => commitsAlone_safe (H := zeroSha)
  have hr₂ := (Run.of_follow hs₂).mono fun _ _ => commitsAlone_safe (H := zeroSha)
  have hr₃ := (Run.of_follow hs₃).mono fun _ _ => commitsAlone_safe (H := zeroSha)
  obtain ⟨hsend, hopen⟩ := committing_statement (o := .delivered) hc
  exact ⟨s₁, s₂, s₃, hr₁, hr₂, hr₃, fun i c task hcall =>
    no_rollback_after_commit rfl hr₁ hsend hopen hr₂ hdone hr₃ hcall⟩

def cancelUnderWay : List (Label Task) := readyToCommit ++ [.start (.cancel "m")] ++ answered 1 15 ++ [.call 0 .delivered]

def commitUnreported : List (Label Task) := readyToCommit ++ [.call 0 (.ambiguous "connection reset")]

def undoes (i : Nat) (s : Config Resp Task (World Unit)) : Option String × Option String :=
  ((s.pending i).bind fun x => rollbackTo "m" x.2,
    ((s.world.db.server "s").bind fun v => s.world.db.node v.nodeID).map (·.baseURL))

/-- With the server already on the target, an unreported commit is rolled back there by its own
worker, and a reported one by a cancellation. -/
theorem rollback_reaches_owner : ∃ s s' : Config Resp Task (World Unit),
    Run (panel zeroSha obliging).next (fun _ _ => True) moving commitUnreported s ∧
    s.world.db.phase "m" = some .completed ∧ undoes 0 s = (some "http://b", some "http://b") ∧
    Run (panel zeroSha obliging).next (fun _ _ => True) moving cancelUnderWay s' ∧
    s'.world.db.phase "m" = some .completed ∧ undoes 1 s' = (some "http://b", some "http://b") := by
  simp
  decide +kernel

end ForgePlane
