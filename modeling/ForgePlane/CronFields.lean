import ForgePlane.Schedules

/-!
# The next run and the cron fields

`next_run_at` is written when a runner first sees a schedule and when a run ends, both from the cron fields as
they were read before. An edit of the fields leaves it alone.
-/

namespace ForgePlane.Schedules

variable (parser : CronParser)

def ScheduleRow.OnCron (s : ScheduleRow) : Prop := ∀ t, s.nextRunAt = some t → parser.occurs s.cron.expression t

/-! ## What the statements leave -/

/-- An edit changes the expression only where no next run is set, and a next run is written only while the row still
has the expression it was computed from. -/
def keepsFields (s : Config Resp Job World) (l : Label Job) : Bool :=
  match s.sends l with
  | some (_, .patch serverID scheduleID req) =>
    s.world.db.schedules.all fun r => !(r.id = scheduleID && r.serverID = serverID) ||
      r.nextRunAt.isNone || (req.cron r.cron).expression = r.cron.expression
  | some (_, .finish claimed _ _ _ _) =>
    s.world.db.schedules.all fun r => !DB.isLeased claimed r || r.cron.expression = claimed.schedule.cron.expression
  | some (_, .initNextRun schedule _) =>
    s.world.db.schedules.all fun r => r.id ≠ schedule.id || r.cron.expression = schedule.cron.expression
  | _ => true

def DB.OnCron (db : DB) : Prop := ∀ s ∈ db.schedules, s.OnCron parser

section
variable {parser : CronParser} {db : DB} {clock last next : Nat} {serverID scheduleID : String}

variable (h : db.OnCron parser)
include h

theorem DB.OnCron.update {p : ScheduleRow → Bool} {f : ScheduleRow → ScheduleRow}
    (hf : ∀ s ∈ db.schedules, p s = true → s.OnCron parser → (f s).OnCron parser) :
    ∀ s ∈ updateWhere p f db.schedules, s.OnCron parser := by
  intro s hs
  obtain ⟨u, hu, rfl⟩ := mem_updateWhere.mp hs
  split
  · rename_i hp
    exact hf u hu hp (h u hu)
  · exact h u hu

theorem DB.OnCron.expire (clock : Nat) : (db.expire clock).OnCron parser :=
  h.update fun _ _ _ hs => hs

theorem DB.OnCron.claimSchedule (clock now : Nat) (workerID : String) (trigger : Trigger)
    (manualKey : String) : (db.claimSchedule clock now workerID trigger manualKey).2.OnCron parser := by
  unfold DB.claimSchedule
  simp only
  split
  · exact h
  · exact (h.expire clock).update fun _ _ _ hs => hs

theorem DB.OnCron.extendScheduleLease (c : ClaimedSchedule) (until_ : Nat) :
    (db.extendScheduleLease c until_).2.OnCron parser := h.update fun _ _ _ hs => hs

theorem DB.OnCron.failScheduleClaim (clock : Nat) (c : ClaimedSchedule) (message : Err) :
    (db.failScheduleClaim clock c message).OnCron parser := h.update fun _ _ _ hs => hs

theorem DB.OnCron.finishScheduleClaim {c : ClaimedSchedule} {status : RunStatus}
    {error : Option Err} (hnext : parser.occurs c.schedule.cron.expression next)
    (hsame : ∀ s ∈ db.schedules, DB.isLeased c s = true → s.cron.expression = c.schedule.cron.expression) :
    (db.finishScheduleClaim clock c status error last next).2.OnCron parser := by
  unfold DB.finishScheduleClaim
  split
  · exact h
  split
  · exact h
  refine h.update fun s hs hleased _ t ht => ?_
  cases ht
  rw [hsame s hs hleased]
  exact hnext

theorem DB.OnCron.updateNextRun {schedule : Schedule} (hnext : parser.occurs schedule.cron.expression next)
    (hsame : ∀ s ∈ db.schedules, s.id = schedule.id → s.cron.expression = schedule.cron.expression) :
    (db.updateNextRun schedule.id next).OnCron parser := by
  refine h.update fun s hs hid _ t ht => ?_
  cases ht
  rw [hsame s hs (of_decide_eq_true hid)]
  exact hnext

theorem DB.OnCron.patchSchedule {req : DB.PatchScheduleRequest}
    (hsame : ∀ s ∈ db.schedules, s.id = scheduleID → s.serverID = serverID →
      s.nextRunAt = none ∨ (req.cron s.cron).expression = s.cron.expression) :
    (db.patchSchedule serverID scheduleID req).2.OnCron parser := by
  unfold DB.patchSchedule
  simp only
  split
  · exact h
  refine h.update fun s hs hnamed hon t ht => ?_
  simp at hnamed
  obtain hnone | hexpr := hsame s hs hnamed.1 hnamed.2
  · cases hnone.symm.trans ht
  · exact hexpr.symm ▸ hon t ht

theorem DB.OnCron.createSchedule (id serverID : String) (req : DB.CreateScheduleRequest) :
    (db.createSchedule id serverID req).2.OnCron parser := by
  unfold DB.createSchedule
  split
  · exact h
  split
  · exact h
  exact forall_snoc h nofun

theorem DB.OnCron.deleteSchedule (serverID scheduleID : String) :
    (db.deleteSchedule serverID scheduleID).2.OnCron parser := by
  unfold DB.deleteSchedule
  split
  · exact h
  · exact fun s hs => h s (List.mem_filter.mp hs).1

theorem DB.OnCron.createScheduleTask (task : Task) : (db.createScheduleTask task).2.OnCron parser := by
  unfold DB.createScheduleTask
  split
  · exact h
  split <;> exact h

end

theorem onCron_handle {s : Config Resp Job World} {l : Label Job} {j : Job} {c : Call} (hsends : s.sends l = some (j, c))
    (hkeeps : keepsFields s l = true) (hc : c.Proper parser) (h : s.world.db.OnCron parser) :
    (s.world.handle c).2.db.OnCron parser := by
  unfold keepsFields at hkeeps
  rw [hsends] at hkeeps
  cases c with
  | patch =>
    refine h.patchSchedule fun r hr hid hserver => ?_
    have hr := List.all_eq_true.mp hkeeps r hr
    simpa [hid, hserver] using hr
  | finish =>
    refine h.finishScheduleClaim hc.2 fun r hr hleased => ?_
    have hr := List.all_eq_true.mp hkeeps r hr
    simpa [hleased] using hr
  | initNextRun =>
    refine h.updateNextRun hc fun r hr hid => ?_
    have hr := List.all_eq_true.mp hkeeps r hr
    simpa [hid] using hr
  | claimDue | claimManual => exact h.claimSchedule _ _ _ _ _
  | extend => exact h.extendScheduleLease _ _
  | fail => exact h.failScheduleClaim _ _ _
  | create => exact h.createSchedule _ _ _
  | delete => exact h.deleteSchedule _ _
  | createTask => exact h.createScheduleTask _
  | _ => exact h

theorem onCron_inv : ThreadInv (panels parser) (fun s l => keepsFields s l = true) (fun w => w.db.OnCron parser)
    (fun _ _ p => All (Call.Proper parser) p) where
  start _ j _ _ := proper_program parser j
  stop _ _ _ := trivial
  tick _ _ h := ⟨h, fun _ _ hp => hp⟩
  call s i o j c k r w h hJ ha hi hans := by
    have hp := hJ _ (List.mem_of_getElem? hi)
    have hsends := Config.sends_eq o hi
    refine ⟨?_, hp.2 r, fun _ _ _ _ hj => hJ _ (List.mem_of_getElem? hj)⟩
    obtain rfl | rfl := System.answer_world hans
    · exact h
    · exact onCron_handle parser hsends ha hp.1 h

/-- As long as no edit takes the fields away from under a next run, every next run of an enabled
schedule is an occurrence of its current fields. -/
theorem next_run_follows_fields {s₀ s : Config Resp Job World} {ls : List (Label Job)} (hstart : s₀.threads = [])
    (hdb : s₀.world.db.OnCron parser) (hr : Run (panels parser).next (fun s l => keepsFields s l = true) s₀ ls s) :
    ∀ row ∈ s.world.db.schedules, row.enabled = true → ∀ t, row.nextRunAt = some t →
      parser.occurs row.cron.expression t := by
  have hinv := (onCron_inv parser).run ⟨hdb, by simp [hstart]⟩ hr
  exact fun row hrow _ t ht => hinv.1 row hrow t ht

/-! ## A schedule on the hour -/

def scheduled : List (Label Job) :=
  [.start (.createSchedule "s" "v" { name := "backup", cron := { minute := "0" } }), .call 0 .delivered,
   .start (.tick "w"), .call 1 .delivered, .call 1 .delivered, .call 1 .delivered]

def unused : Config Resp Job World := ⟨{ db := {} }, []⟩

theorem next_run_follows_fields_hourly : ∃ s : Config Resp Job World,
    (∃ row ∈ s.world.db.schedules, row.enabled = true ∧ row.nextRunAt = some 3600) ∧
    ∀ row ∈ s.world.db.schedules, row.enabled = true → ∀ t, row.nextRunAt = some t → hourly.occurs row.cron.expression t := by
  obtain ⟨s, hs, hrow⟩ : ∃ s, Run (panels hourly).next (fun s l => keepsFields s l = true) unused scheduled s ∧
      ∃ row ∈ s.world.db.schedules, row.enabled = true ∧ row.nextRunAt = some 3600 := by decide +kernel
  exact ⟨s, hrow, next_run_follows_fields hourly rfl (fun _ h => absurd h List.not_mem_nil) hs⟩

instance (expression : String) (t : Nat) : Decidable (hourly.occurs expression t) := inferInstanceAs (Decidable (_ ∨ _))

theorem edit_keeps_next_run : ∃ s : Config Resp Job World,
    Run (panels hourly).next (fun _ _ => True) unused
      (scheduled ++ [.start (.patchSchedule "v" "s" { minute := some "30" }), .call 2 .delivered]) s ∧
    ∃ row ∈ s.world.db.schedules, row.enabled = true ∧ row.nextRunAt = some 3600 ∧ ¬ hourly.occurs row.cron.expression 3600 := by decide +kernel

end ForgePlane.Schedules
