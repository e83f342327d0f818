import Mathlib.Data.List.Pairwise
import ForgePlane.Schedules

/-!
# Leases of schedule runs

A lease is recorded twice: on the schedule under the id of the worker process, and on the row of the run. A
late extension or failure of an older run checks the worker only.
-/

namespace ForgePlane.Schedules

open List

def ScheduleRow.lease (s : ScheduleRow) : String × Option String × Option Nat := (s.id, s.leaseOwner, s.leaseExpiresAt)

namespace DB

open List

structure Fenced (db : DB) : Prop where
  unique : (db.runs.map (·.id)).Nodup
  fresh : ∀ r ∈ db.runs, r.id < db.nextRun
  owned : ∀ r ∈ db.runs, ∃ s ∈ db.schedules, s.id = r.scheduleID
  held : ∀ r ∈ db.runs, r.status = .running → ∀ s ∈ db.schedules, s.id = r.scheduleID →
    s.leaseOwner = some r.workerID ∧ s.leaseExpiresAt = r.leaseExpiresAt
  last : db.runs.Pairwise fun r r' => r.scheduleID = r'.scheduleID → r.status ≠ .running

def superseded (db : DB) (c : ClaimedSchedule) : Bool :=
  match db.runs.dropWhile fun r => r.id ≠ c.runID with
  | [] => false
  | r :: later => later.any fun r' => r'.scheduleID = r.scheduleID

section
variable {db db' : DB}

variable {r r' : RunRow} {c : ClaimedSchedule} {f : ScheduleRow → ScheduleRow} {s : ScheduleRow} {status : RunStatus}
variable {clock last next : Nat}

theorem Fenced.run_eq (h : db.Fenced) (hr : r ∈ db.runs) (hr' : r' ∈ db.runs) (hid : r.id = r'.id) : r = r' :=
  inj_on_of_nodup_map h.unique hr hr' hid

theorem Fenced.running_eq (h : db.Fenced) (hr : r ∈ db.runs) (hr' : r' ∈ db.runs)
    (hsame : r.scheduleID = r'.scheduleID) (hrun : r.status = .running) (hrun' : r'.status = .running) : r = r' := by
  by_contra hne
  have hpair : db.runs.Pairwise fun a b => a.scheduleID = b.scheduleID → ¬ (a.status = .running ∧ b.status = .running) :=
    h.last.imp fun hab he hboth => hab he hboth.1
  have hsymm : Std.Symm fun a b : RunRow => a.scheduleID = b.scheduleID → ¬ (a.status = .running ∧ b.status = .running) :=
    ⟨fun _ _ hab he hboth => hab he.symm hboth.symm⟩
  exact hpair.forall hr hr' hne hsame ⟨hrun, hrun'⟩

theorem Fenced.not_running (h : db.Fenced) (hc : db.superseded c = true) (hr : r ∈ db.runs)
    (hid : r.id = c.runID) : r.status ≠ .running := by
  unfold superseded at hc
  split at hc
  · cases hc
  rename_i r₀ later hdrop
  have hsub : (r₀ :: later).Sublist db.runs := hdrop ▸ dropWhile_sublist _
  have hid₀ : r₀.id = c.runID := by
    have := head_dropWhile_not (fun r : RunRow => decide (r.id ≠ c.runID)) (hdrop ▸ cons_ne_nil r₀ later)
    simpa only [hdrop, head_cons, decide_eq_false_iff_not, not_not] using this
  obtain rfl := h.run_eq hr (hsub.subset mem_cons_self) (hid.trans hid₀.symm)
  obtain ⟨r', hr', hsame⟩ := any_eq_true.mp hc
  exact (pairwise_cons.mp (h.last.sublist hsub)).1 r' hr' (of_decide_eq_true hsame).symm

/-! ## Updates that leave the leases alone -/

variable (h : db.Fenced)
include h

theorem Fenced.schedules (hruns : db'.runs = db.runs) (hnext : db'.nextRun = db.nextRun)
    (hlease : db'.schedules.map (·.lease) = db.schedules.map (·.lease)) : db'.Fenced where
  unique := hruns ▸ h.unique
  fresh := by rw [hruns, hnext]; exact h.fresh
  owned r hr := by
    obtain ⟨s, hs, hid⟩ := h.owned r (hruns ▸ hr)
    have hmem : s.lease ∈ db'.schedules.map (·.lease) := hlease ▸ mem_map_of_mem hs
    obtain ⟨s', hs', he⟩ := mem_map.mp hmem
    exact ⟨s', hs', (congrArg Prod.fst he).trans hid⟩
  held r hr hrun s' hs' hid := by
    have hmem : s'.lease ∈ db.schedules.map (·.lease) := hlease ▸ mem_map_of_mem hs'
    obtain ⟨s, hs, he⟩ := mem_map.mp hmem
    obtain ⟨hid', he⟩ := Prod.mk.inj he
    obtain ⟨howner, hexpires⟩ := Prod.mk.inj he
    have := h.held r (hruns ▸ hr) hrun s hs (hid'.trans hid)
    exact ⟨howner ▸ this.1, hexpires ▸ this.2⟩
  last := hruns ▸ h.last

theorem Fenced.update {p : ScheduleRow → Bool} (hf : ∀ s, (f s).lease = s.lease) :
    ({ db with schedules := updateWhere p f db.schedules } : DB).Fenced :=
  h.schedules rfl rfl (map_key_updateWhere p f hf)

theorem Fenced.patchSchedule (serverID scheduleID : String) (req : PatchScheduleRequest) :
    (db.patchSchedule serverID scheduleID req).2.Fenced := by
  unfold DB.patchSchedule
  simp only
  split
  · exact h
  · exact h.update fun _ => rfl

theorem Fenced.updateNextRun (scheduleID : String) (next : Nat) : (db.updateNextRun scheduleID next).Fenced :=
  h.update fun _ => rfl

theorem Fenced.createSchedule (id serverID : String) (req : CreateScheduleRequest) :
    (db.createSchedule id serverID req).2.Fenced := by
  unfold DB.createSchedule
  split
  · exact h
  split
  · exact h
  rename_i hfresh
  refine ⟨h.unique, h.fresh, fun r hr => ?_, fun r hr hrun s hs hid => ?_, h.last⟩
  · obtain ⟨s, hs, hid⟩ := h.owned r hr
    exact ⟨s, mem_append_left _ hs, hid⟩
  · obtain hs | hs := mem_append.mp hs
    · exact h.held r hr hrun s hs hid
    · -- every run has its schedule, so none has the new identifier
      obtain ⟨s', hs', hid'⟩ := h.owned r hr
      rw [mem_singleton.mp hs] at hid
      exact absurd (any_eq_true.mpr ⟨s', hs', decide_eq_true (hid'.trans hid.symm)⟩) hfresh

theorem Fenced.deleteSchedule (serverID scheduleID : String) : (db.deleteSchedule serverID scheduleID).2.Fenced := by
  unfold DB.deleteSchedule
  split
  · exact h
  have hsub : (deleteWhere (fun r : RunRow => r.scheduleID = scheduleID) db.runs).Sublist db.runs := filter_sublist
  refine ⟨h.unique.sublist (hsub.map _), fun r hr => h.fresh r (hsub.subset hr), fun r hr => ?_, fun r hr hrun s hs hid => ?_,
    h.last.sublist hsub⟩
  · obtain ⟨s, hs, hid⟩ := h.owned r (hsub.subset hr)
    have hne : ¬ r.scheduleID = scheduleID := by simpa using (mem_filter.mp hr).2
    exact ⟨s, mem_filter.mpr ⟨hs, by simpa [hid] using hne⟩, hid⟩
  · exact h.held r (hsub.subset hr) hrun s (mem_filter.mp hs).1 hid

theorem Fenced.createScheduleTask (task : Task) : (db.createScheduleTask task).2.Fenced := by
  unfold DB.createScheduleTask
  split
  · exact h
  split
  · exact h
  · exact h.schedules rfl rfl rfl

omit h

variable (h : db.Fenced)
include h

theorem Fenced.rewrite {g : RunRow → RunRow}
    (hid : ∀ r, (g r).id = r.id) (hschedule : ∀ r, (g r).scheduleID = r.scheduleID)
    (hrunning : ∀ r, (g r).status = .running → r.status = .running) (hf : ∀ s, (f s).id = s.id)
    (hheld : ∀ r ∈ db.runs, (g r).status = .running → ∀ s ∈ db.schedules, s.id = r.scheduleID →
      (f s).leaseOwner = some (g r).workerID ∧ (f s).leaseExpiresAt = (g r).leaseExpiresAt) :
    ({ db with runs := db.runs.map g, schedules := db.schedules.map f } : DB).Fenced where
  unique := by
    rw [map_map, show (fun r : RunRow => r.id) ∘ g = fun r => r.id from funext hid]
    exact h.unique
  fresh r hr := by
    obtain ⟨u, hu, rfl⟩ := mem_map.mp hr
    exact (hid u).symm ▸ h.fresh u hu
  owned r hr := by
    obtain ⟨u, hu, rfl⟩ := mem_map.mp hr
    obtain ⟨s, hs, he⟩ := h.owned u hu
    exact ⟨f s, mem_map_of_mem hs, (hf s).trans (he.trans (hschedule u).symm)⟩
  held r hr hrun s hs he := by
    obtain ⟨u, hu, rfl⟩ := mem_map.mp hr
    obtain ⟨v, hv, rfl⟩ := mem_map.mp hs
    exact hheld u hu hrun v hv ((hf v).symm.trans (he.trans (hschedule u)))
  last := by
    refine pairwise_map.mpr (h.last.imp fun {u v} huv hsame hrun => ?_)
    exact huv ((hschedule u).symm.trans (hsame.trans (hschedule v))) (hrunning u hrun)

theorem Fenced.expire (clock : Nat) : (db.expire clock).Fenced := by
  refine h.rewrite (fun r => ?_) (fun r => ?_) (fun r hrun => ?_) (fun s => ?_) fun r hr hrun s hs hid => ?_
  · split <;> rfl
  · split <;> rfl
  · split at hrun
    · cases hrun
    · exact hrun
  · split <;> rfl
  · split at hrun
    · cases hrun
    rename_i hexp
    obtain ⟨howner, hexpires⟩ := h.held r hr hrun s hs hid
    have hnot : ¬ before s.leaseExpiresAt clock = true := by
      simpa [hrun, hexpires] using hexp
    rw [if_neg hnot, if_neg hexp]
    exact ⟨howner, hexpires⟩

theorem Fenced.take (hs : s ∈ db.schedules) (hfree : s.leaseOwner = none) (now : Nat)
    (workerID : String) (trigger : Trigger) : (db.take s now workerID trigger).2.Fenced := by
  -- the schedule is free, so none of its runs is running
  have hidle : ∀ r ∈ db.runs, r.status = .running → r.scheduleID ≠ s.id := by
    intro r hr hrun hid
    have := (h.held r hr hrun s hs hid.symm).1
    rw [hfree] at this
    cases this
  refine ⟨?_, fun r hr => ?_, fun r hr => ?_, fun r hr hrun v hv hid => ?_, ?_⟩
  · refine nodup_snoc h.unique fun hmem => ?_
    obtain ⟨r, hr, hid⟩ := mem_map.mp hmem
    exact Nat.ne_of_lt (h.fresh r hr) hid
  · obtain hr | hr := mem_append.mp hr
    · exact Nat.lt_succ_of_lt (h.fresh r hr)
    · rw [mem_singleton.mp hr]
      exact Nat.lt_succ_self _
  · have hmap : (db.take s now workerID trigger).2.schedules.map (·.id) = db.schedules.map (·.id) :=
      map_key_updateWhere _ _ fun _ => rfl
    have howned : ∃ u ∈ db.schedules, u.id = r.scheduleID := by
      obtain hr | hr := mem_append.mp hr
      · exact h.owned r hr
      · rw [mem_singleton.mp hr]
        exact ⟨s, hs, rfl⟩
    obtain ⟨u, hu, hid⟩ := howned
    have hmem : u.id ∈ (db.take s now workerID trigger).2.schedules.map (·.id) := hmap ▸ mem_map_of_mem hu
    obtain ⟨u', hu', hid'⟩ := mem_map.mp hmem
    exact ⟨u', hu', hid'.trans hid⟩
  · obtain ⟨u, hu, rfl⟩ := mem_updateWhere.mp hv
    obtain hr | hr := mem_append.mp hr
    · have hne : ¬ u.id = s.id := by
        intro he
        refine hidle r hr hrun (Eq.trans ?_ he)
        rw [← hid]
        split <;> rfl
      rw [if_neg (by simpa using hne)] at hid ⊢
      exact h.held r hr hrun u hu hid
    · rw [mem_singleton.mp hr] at hid ⊢
      have he : u.id = s.id := by
        split at hid <;> exact hid
      rw [if_pos (by simpa using he)]
      exact ⟨rfl, rfl⟩
  · refine pairwise_append.mpr ⟨h.last, pairwise_singleton _ _, fun r hr r' hr' hsame hrun => ?_⟩
    rw [mem_singleton.mp hr'] at hsame
    exact hidle r hr hrun hsame

theorem Fenced.claimSchedule (clock now : Nat) (workerID : String) (trigger : Trigger) (manualKey : String) :
    (db.claimSchedule clock now workerID trigger manualKey).2.Fenced := by
  unfold DB.claimSchedule
  simp only
  split
  · exact h
  rename_i s hfound
  have hs : s ∈ (db.expire clock).schedules ∧ s.leaseOwner = none := by
    split at hfound
    · have hmem := mem_filter.mp (mem_of_find?_eq_some hfound)
      simp at hmem
      exact ⟨hmem.1, hmem.2.1.2⟩
    · have hsome := List.find?_some hfound
      simp at hsome
      exact ⟨mem_of_find?_eq_some hfound, hsome.1.2⟩
  exact (h.expire clock).take hs.1 hs.2 now workerID trigger

omit h

/-! ## Runs that go on and end -/

def isLive (db : DB) (c : ClaimedSchedule) : Bool := db.runs.any (isRunning c) || !db.schedules.any (isLeased c)

theorem isRunning_iff : isRunning c r = true ↔
    r.id = c.runID ∧ r.scheduleID = c.schedule.id ∧ r.workerID = c.workerID ∧ r.status = .running := by
  simp [isRunning, and_assoc]

theorem isLeased_iff : isLeased c s = true ↔
    s.id = c.schedule.id ∧ s.leaseOwner = some c.workerID := by
  simp [isLeased]

variable (h : db.Fenced)
include h

variable (hlive : db.isLive c = true)
include hlive

theorem Fenced.leased_iff (hr : r ∈ db.runs)
    (hrun : r.status = .running) (hs : s ∈ db.schedules) (hid : s.id = r.scheduleID) :
    isLeased c s = true ↔ isRunning c r = true := by
  have hheld := h.held r hr hrun s hs hid
  constructor
  · intro hleased
    obtain ⟨r₀, hr₀, hmine⟩ : ∃ r₀ ∈ db.runs, isRunning c r₀ = true := by
      have hany : db.schedules.any (isLeased c) = true := any_eq_true.mpr ⟨s, hs, hleased⟩
      exact any_eq_true.mp (by simpa [isLive, hany] using hlive)
    have hmine' := isRunning_iff.mp hmine
    have hsame : r.scheduleID = r₀.scheduleID := hid.symm.trans ((isLeased_iff.mp hleased).1.trans hmine'.2.1.symm)
    exact h.running_eq hr hr₀ hsame hrun hmine'.2.2.2 ▸ hmine
  · intro hmine
    obtain ⟨-, hsame, hworker, -⟩ := isRunning_iff.mp hmine
    exact isLeased_iff.mpr ⟨hid.trans hsame, hheld.1.trans (congrArg some hworker)⟩

theorem Fenced.extendScheduleLease (until_ : Nat) : (db.extendScheduleLease c until_).2.Fenced := by
  unfold DB.extendScheduleLease
  simp only
  cases hleased : db.schedules.any (isLeased c) with
  | false =>
    rw [updateWhere_none hleased]
    exact h
  | true =>
  obtain ⟨r₀, hr₀, hmine₀⟩ : ∃ r₀ ∈ db.runs, isRunning c r₀ = true :=
    any_eq_true.mp (by simpa [isLive, hleased] using hlive)
  -- the statement finds the run by id and worker; the id alone decides
  have hmine : ∀ r ∈ db.runs, (decide (r.id = c.runID) && decide (r.workerID = c.workerID) && decide (r.status = .running)) = true →
      isRunning c r = true := by
    intro r hr hm
    simp at hm
    exact h.run_eq hr hr₀ (hm.1.1.trans (isRunning_iff.mp hmine₀).1.symm) ▸ hmine₀
  refine h.rewrite (fun r => ?_) (fun r => ?_) (fun r hrun => ?_) (fun s => ?_) fun r hr hrun s hs hid => ?_
  · split <;> rfl
  · split <;> rfl
  · split at hrun <;> exact hrun
  · split <;> rfl
  · have hrun : r.status = .running := by split at hrun <;> exact hrun
    have hheld := h.held r hr hrun s hs hid
    have hiff := h.leased_iff hlive hr hrun hs hid
    by_cases hm : (decide (r.id = c.runID) && decide (r.workerID = c.workerID) && decide (r.status = .running)) = true
    · rw [if_pos hm, if_pos (hiff.mpr (hmine r hr hm))]
      exact ⟨hheld.1, rfl⟩
    · have hfree : ¬ isLeased c s = true := by
        intro hl
        obtain ⟨hid', -, hworker, -⟩ := isRunning_iff.mp (hiff.mp hl)
        exact hm (by simp [hid', hworker, hrun])
      rw [if_neg hm, if_neg hfree]
      exact hheld

theorem Fenced.release (clock : Nat) (hstatus : status ≠ .running) (error : Option Err) (hf : ∀ s, (f s).id = s.id) :
    ({ db.endRun clock c status error with schedules := updateWhere (isLeased c) f db.schedules } : DB).Fenced := by
  refine h.rewrite (fun r => ?_) (fun r => ?_) (fun r hrun => ?_) (fun s => ?_) fun r hr hrun s hs hid => ?_
  · split <;> rfl
  · split <;> rfl
  · split at hrun
    · exact absurd hrun hstatus
    · exact hrun
  · split
    · exact hf s
    · rfl
  · split at hrun
    · exact absurd hrun hstatus
    rename_i hmine
    have hfree : ¬ isLeased c s = true := fun hleased => hmine ((h.leased_iff hlive hr hrun hs hid).mp hleased)
    rw [if_neg hfree, if_neg hmine]
    exact h.held r hr hrun s hs hid

omit hlive

theorem Fenced.finishScheduleClaim (hstatus : status ≠ .running) {error : Option Err} :
    (db.finishScheduleClaim clock c status error last next).2.Fenced := by
  unfold DB.finishScheduleClaim
  split
  · exact h
  rename_i hrun
  split
  · exact h
  have hlive : db.isLive c = true := by
    simp at hrun
    simp [isLive, hrun]
  exact h.release hlive clock hstatus error fun _ => rfl

theorem Fenced.failScheduleClaim (hlive : db.isLive c = true) (clock : Nat)
    (message : Err) : (db.failScheduleClaim clock c message).Fenced :=
  h.release hlive clock (by decide) (some message) fun _ => rfl

end

end DB

def Call.claim : Call → Option ClaimedSchedule
  | .extend c _ | .finish c .. | .fail c _ => some c
  | _ => none

/-- A run that is no longer running extends or fails its claim only while its worker holds no
lease on the schedule. -/
def fenced (s : Config Resp Job World) (l : Label Job) : Bool :=
  match s.sends l with
  | some (_, .extend c _) => s.world.db.isLive c
  | some (_, .fail c _) => s.world.db.isLive c
  | _ => true

variable {parser : CronParser}
variable {j : Job} {l : Label Job}
variable {s : Config Resp Job World} {c : Call}

theorem fenced_handle (hsends : s.sends l = some (j, c))
    (hfenced : fenced s l = true) (hc : c.Proper parser) (h : s.world.db.Fenced) : (s.world.handle c).2.db.Fenced := by
  unfold fenced at hfenced
  rw [hsends] at hfenced
  cases c with
  | extend => exact h.extendScheduleLease hfenced _
  | fail => exact h.failScheduleClaim hfenced _ _
  | finish => exact h.finishScheduleClaim hc.1
  | patch => exact h.patchSchedule _ _ _
  | initNextRun => exact h.updateNextRun _ _
  | claimDue | claimManual => exact h.claimSchedule _ _ _ _ _
  | create => exact h.createSchedule _ _ _
  | delete => exact h.deleteSchedule _ _
  | createTask => exact h.createScheduleTask _
  | setOnline => exact h.schedules rfl rfl rfl
  | _ => exact h

theorem fenced_inv : ThreadInv (panels parser) (fun s l => fenced s l = true) (fun w => w.db.Fenced)
    (fun _ _ p => All (Call.Proper parser) p) where
  start _ j _ _ := proper_program parser j
  stop _ _ _ := trivial
  tick _ _ h := ⟨h, fun _ _ hp => hp⟩
  call s i o j c k r w h hJ ha hi hans := by
    have hp := hJ _ (mem_of_getElem? hi)
    have hsends := Config.sends_eq o hi
    refine ⟨?_, hp.2 r, fun _ _ _ _ hj => hJ _ (mem_of_getElem? hj)⟩
    obtain rfl | rfl := System.answer_world hans
    · exact h
    · exact fenced_handle hsends ha hp.1 h

theorem superseded_handle {claimed : ClaimedSchedule}
    (hsends : s.sends l = some (j, c)) (hfenced : fenced s l = true) (hclaim : c.claim = some claimed)
    (h : s.world.db.Fenced) (hover : s.world.db.superseded claimed = true) : (s.world.handle c).2.db = s.world.db := by
  have hdead : s.world.db.runs.any (DB.isRunning claimed) = false := by
    refine any_eq_false.mpr fun r hr hrun => ?_
    obtain ⟨hid, -, -, hrunning⟩ := DB.isRunning_iff.mp hrun
    exact h.not_running hover hr hid hrunning
  unfold fenced at hfenced
  rw [hsends] at hfenced
  cases c with
  | extend =>
    cases hclaim
    have hfree : s.world.db.schedules.any (DB.isLeased claimed) = false := by simpa [DB.isLive, hdead] using hfenced
    simp only [World.handle, DB.extendScheduleLease, hfree, updateWhere_none hfree]
    rfl
  | fail =>
    cases hclaim
    have hfree : s.world.db.schedules.any (DB.isLeased claimed) = false := by simpa [DB.isLive, hdead] using hfenced
    simp only [World.handle, DB.failScheduleClaim, DB.endRun, updateWhere_none hfree, updateWhere_none hdead]
  | finish =>
    cases hclaim
    simp [World.handle, DB.finishScheduleClaim, hdead]
  | _ => cases hclaim

/-- If no run that is over touches its claim while its worker holds the schedule again, a superseded run changes
nothing and one run at most holds a lease. -/
theorem superseded_run_is_fenced {s₀ s : Config Resp Job World} {ls : List (Label Job)} (hstart : s₀.threads = [])
    (hdb : s₀.world.db.Fenced) (hr : Run (panels parser).next (fun s l => fenced s l = true) s₀ ls s) :
    (∀ l s' j c claimed, fenced s l = true → (panels parser).next s l = some s' → s.sends l = some (j, c) →
      c.claim = some claimed → s.world.db.superseded claimed = true → s'.world.db = s.world.db) ∧
    ∀ r ∈ s.world.db.runs, ∀ r' ∈ s.world.db.runs, r.scheduleID = r'.scheduleID → r.status = .running →
      r'.status = .running → r = r' := by
  obtain ⟨h, -⟩ := fenced_inv.run ⟨hdb, by simp [hstart]⟩ hr
  refine ⟨fun l s' j c claimed hl hn hsends hclaim hover => ?_, fun r hr r' hr' hsame hrun hrun' => ?_⟩
  · obtain hw | ⟨d, hw⟩ | ⟨j', c', hsends', hw⟩ := System.next_world hn
    · rw [hw]
    · rw [hw]
      rfl
    · cases hsends'.symm.trans hsends
      rw [hw]
      exact superseded_handle hsends hl hclaim h hover
  · exact h.running_eq hr hr' hsame hrun hrun'

/-! ## A worker that comes back -/

def twoTasks : Config Resp Job World :=
  ⟨{ db := {
      schedules := [{ id := "s", serverID := "v", cron := { minute := "0" } }]
      tasks := [{ id := "t1", scheduleID := "s", sequence := 1 }, { id := "t2", scheduleID := "s", sequence := 2 }] } }, []⟩

theorem twoTasks_fenced : twoTasks.world.db.Fenced where
  unique := nodup_nil
  fresh _ h := absurd h not_mem_nil
  owned _ h := absurd h not_mem_nil
  held _ h := absurd h not_mem_nil
  last := List.Pairwise.nil

def overrun (w w' : String) (n : Nat) : List (Label Job) :=
  .start (.runNow w "v" "s") :: List.replicate 5 (.call 0 .delivered) ++
    [.tick 400, .start (.runNow w' "v" "s"), .call 1 .delivered, .call 1 .delivered, .tick 10] ++
    List.replicate n (.call 0 .delivered)

theorem superseded_run_is_fenced_other : ∃ s s' : Config Resp Job World, ∃ claimed : ClaimedSchedule,
    s.world.db.superseded claimed = true ∧ s.world.db.schedules.map (·.leaseOwner) = [some "w'"] ∧ s'.world.db = s.world.db := by
  obtain ⟨s, hs, hsends, howner, hfenced, s', hnext, -⟩ : ∃ s,
      Run (panels hourly).next (fun s l => fenced s l = true) twoTasks (overrun "w" "w'" 4) s ∧
      (s.sends (.call 0 .delivered)).any (fun x => x.2.claim.any fun c => s.world.db.superseded c) = true ∧
      s.world.db.schedules.map (·.leaseOwner) = [some "w'"] ∧ fenced s (.call 0 .delivered) = true ∧
      ∃ s', (panels hourly).next s (.call 0 .delivered) = some s' ∧ True := by decide +kernel
  simp only [Option.any_eq_true] at hsends
  obtain ⟨⟨j, c⟩, hsends, claimed, hclaim, hover⟩ := hsends
  exact ⟨s, s', claimed, hover, howner,
    (superseded_run_is_fenced rfl twoTasks_fenced hs).1 _ _ _ _ _ hfenced hnext hsends hclaim hover⟩

/-- The same worker has started the later run: the late failure of the earlier one releases
the schedule, and the later run goes on without its lease. -/
theorem late_failure_releases_lease : ∃ s s' : Config Resp Job World, ∃ claimed : ClaimedSchedule,
    Run (panels hourly).next (fun _ _ => True) twoTasks (overrun "w" "w" 5) s ∧
    (panels hourly).next s (.call 0 .delivered) = some s' ∧
    (∃ j c, s.sends (.call 0 .delivered) = some (j, c) ∧ c.claim = some claimed) ∧ s.world.db.superseded claimed = true ∧
    s.world.db.schedules.map (·.leaseOwner) = [some "w"] ∧ s'.world.db.schedules.map (·.leaseOwner) = [none] ∧
    s'.world.db.runs.map (·.status) = [.failed, .running] := by
  obtain ⟨s, hs, hsends, howner, s', hnext, hfree, hstatus⟩ : ∃ s,
      Run (panels hourly).next (fun _ _ => True) twoTasks (overrun "w" "w" 5) s ∧
      (s.sends (.call 0 .delivered)).any (fun x => x.2.claim.any fun c => s.world.db.superseded c) = true ∧
      s.world.db.schedules.map (·.leaseOwner) = [some "w"] ∧
      ∃ s', (panels hourly).next s (.call 0 .delivered) = some s' ∧
        s'.world.db.schedules.map (·.leaseOwner) = [none] ∧ s'.world.db.runs.map (·.status) = [.failed, .running] := by
    decide +kernel
  simp only [Option.any_eq_true] at hsends
  obtain ⟨⟨j, c⟩, hsends, claimed, hclaim, hover⟩ := hsends
  exact ⟨s, s', claimed, hs, hnext, ⟨j, c, hsends, hclaim⟩, hover, howner, hfree, hstatus⟩

/-! ## Runs that are over -/

/-- Each run of `db'` is new, or was running in `db`, or is as it was there. -/
structure DB.Follows (db db' : DB) : Prop where
  next : db.nextRun ≤ db'.nextRun
  runs : ∀ r' ∈ db'.runs, db.nextRun ≤ r'.id ∨ ∃ r ∈ db.runs, r.id = r'.id ∧ (r.status ≠ .running → r' = r)

variable {parser : CronParser} {db db' db'' : DB}

theorem DB.Follows.same (hnext : db'.nextRun = db.nextRun := by rfl) (h : db'.runs ⊆ db.runs := by exact Subset.refl _) :
    db.Follows db' :=
  ⟨hnext.ge, fun r hr => .inr ⟨r, h hr, rfl, fun _ => rfl⟩⟩

theorem DB.Follows.trans (h : db.Follows db') (h' : db'.Follows db'') : db.Follows db'' := by
  refine ⟨h.next.trans h'.next, fun r'' hr'' => ?_⟩
  obtain hnew | ⟨r', hr', hid', hsame'⟩ := h'.runs r'' hr''
  · exact .inl (h.next.trans hnew)
  · obtain hnew | ⟨r, hr, hid, hsame⟩ := h.runs r' hr'
    · exact .inl (hid' ▸ hnew)
    · refine .inr ⟨r, hr, hid.trans hid', fun hover => ?_⟩
      obtain rfl := hsame hover
      exact hsame' hover

theorem DB.Follows.update {p : RunRow → Bool} {f : RunRow → RunRow} (hnext : db'.nextRun = db.nextRun)
    (hruns : db'.runs = updateWhere p f db.runs) (hp : ∀ r, p r = true → r.status = .running)
    (hf : ∀ r, (f r).id = r.id) : db.Follows db' := by
  refine ⟨hnext.ge, fun r' hr' => .inr ?_⟩
  obtain ⟨r, hr, rfl⟩ := mem_updateWhere.mp (hruns ▸ hr')
  refine ⟨r, hr, ?_⟩
  split
  · rename_i hpr
    exact ⟨(hf r).symm, fun hover => absurd (hp r hpr) hover⟩
  · exact ⟨rfl, fun _ => rfl⟩

theorem DB.follows_claimSchedule (clock now : Nat) (workerID : String) (trigger : Trigger) (manualKey : String) :
    db.Follows (db.claimSchedule clock now workerID trigger manualKey).2 := by
  have hexpire : db.Follows (db.expire clock) := .update rfl rfl (by simp +contextual) fun _ => rfl
  unfold DB.claimSchedule
  dsimp only
  split
  · exact .same
  · refine hexpire.trans ⟨Nat.le_succ _, fun r hr => ?_⟩
    obtain hr | hr := mem_append.mp hr
    · exact .inr ⟨r, hr, rfl, fun _ => rfl⟩
    · exact .inl (mem_singleton.mp hr ▸ Nat.le_refl _)

theorem follows_handle (w : World) (c : Call) : w.db.Follows (w.handle c).2.db := by
  cases c with
  | claimDue | claimManual => exact DB.follows_claimSchedule ..
  | extend =>
    simp only [World.handle, DB.extendScheduleLease]
    split
    · exact .update rfl rfl (by simp) fun _ => rfl
    · exact .same
  | finish =>
    simp only [World.handle, DB.finishScheduleClaim]
    split_ifs
    · exact .same
    · exact .same
    · exact .update rfl rfl (by simp [DB.isRunning]) fun _ => rfl
  | fail => exact .update rfl rfl (by simp [DB.isRunning]) fun _ => rfl
  | delete =>
    simp only [World.handle, DB.deleteSchedule]
    split
    · exact .same
    · exact .same rfl filter_sublist.subset
  | create | patch | createTask =>
    simp only [World.handle, DB.createSchedule, DB.patchSchedule, DB.createScheduleTask]
    split_ifs <;> exact .same
  | _ => exact .same

/-- Whatever workers overlap, crash or come back late, a run that is over is never changed again. -/
theorem ended_run_final {s s' : Config Resp Job World} {ls : List (Label Job)} {r r' : RunRow}
    (hunique : (s.world.db.runs.map (·.id)).Nodup) (hfresh : ∀ r ∈ s.world.db.runs, r.id < s.world.db.nextRun)
    (hr : r ∈ s.world.db.runs) (hover : r.status ≠ .running)
    (hrun : Run (panels parser).next (fun _ _ => True) s ls s') (hr' : r' ∈ s'.world.db.runs) (hid : r'.id = r.id) :
    r' = r := by
  have h : s.world.db.Follows s'.world.db :=
    Run.related (R := fun w w' => w.db.Follows w'.db) (fun _ => .same) .trans (fun _ _ => .same) follows_handle hrun
  obtain hnew | ⟨r₀, hr₀, hid₀, hsame⟩ := h.runs r' hr'
  · exact absurd (hfresh r hr) (by omega)
  · obtain rfl : r₀ = r := inj_on_of_nodup_map hunique hr₀ hr (hid₀.trans hid)
    exact hsame hover

def endedRun : RunRow :=
  { id := 0, scheduleID := "s", serverID := "v", status := .failed, trigger := .manual, workerID := "w", leaseExpiresAt := none }

theorem ended_run_final_late : ∃ s', Run (panels hourly).next (fun _ _ => True)
    { twoTasks with world.db.runs := [endedRun], world.db.nextRun := 1 } (overrun "w" "w" 6) s' ∧
      s'.world.db.runs.length = 3 ∧ ∀ r' ∈ s'.world.db.runs, r'.id = 0 → r' = endedRun :=
  exists_run_and (by decide +kernel) fun _ h _ r' hr' hid =>
    @ended_run_final _ _ _ _ endedRun r' (by decide) (by decide) (by decide) (by decide) h hr' hid

end ForgePlane.Schedules
